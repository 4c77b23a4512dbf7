import Ember.Config.Grammar
import Ember.Config.Validate

/-!
# Loading a configuration

`Config::load` reads a file, lays the environment over it, and validates the result.  We say
which configurations are loaded: those that the file spells, that validation accepts, with the
variables of the environment that can be used in the place of what the file says, and with the
limits of the tenants clamped into the budget of the engine (`Config.load_iff`).
-/

namespace Ember

/-- What loading a configuration meets outside the process. -/
structure LoadHost where
  /-- `std::fs::read_to_string`. -/
  read : String → Except String String
  /-- The syntax of TOML: the root table of a document. -/
  parse : String → Except String Toml
  /-- The text of an error of the deserializers. -/
  deError : DeError → String
  /-- `SocketAddr::from_str`. -/
  isSocketAddr : String → Bool
  /-- `std::env::var`. -/
  var : String → Option String

/-- `u64::from_str`: digits, after a sign that may be left out. -/
def parseU64 (s : Text) : Option ℕ :=
  let digits := if s.head? = some '+' then s.tail else s
  if digits ≠ [] ∧ digits.all Char.isDigit then parseUsize 0 digits else none

namespace Config

variable (host : LoadHost)

/-- Layer environment overrides on top of file configuration. -/
def applyEnv (c : Config) : Config :=
  let c :=
    match host.var "EMBER_BIND" with
    | none => c
    | some bind => if host.isSocketAddr bind then { c with bind } else c
  let c :=
    match host.var "EMBER_REGISTRY_ENDPOINT" with
    | none => c
    | some endpoint => { c with registry := { c.registry with endpoint } }
  match host.var "EMBER_PULL_INTERVAL_SECS" with
  | none => c
  | some interval =>
      match parseU64 interval.toList with
      | none => c
      | some v => { c with registry := { c.registry with pullIntervalSecs := v } }

/-- The configuration of a file. -/
def readFile (p : String) : Except Error Config :=
  match host.read p with
  | .error e => .error (.config s!"cannot read {p}: {e}")
  | .ok raw =>
      match host.parse raw with
      | .error e => .error (.config s!"invalid TOML in {p}: {e}")
      | .ok doc =>
          match Config.deserialize host.isSocketAddr doc with
          | .error e =>
              let cause := host.deError e
              .error (.config s!"invalid TOML in {p}: {cause}")
          | .ok c => .ok c

/-- Load configuration from a TOML file. -/
def load (path : Option String) : Except Error Config :=
  match path with
  | none => (applyEnv host {}).validate
  | some p =>
      match readFile host p with
      | .error e => .error e
      | .ok c => (applyEnv host c).validate

end Config

/-! ### Numbers in the environment -/

/-- The text is a number of 64 bits: digits, after a sign that may be left out. -/
def IsNumber (s : Text) (n : ℕ) : Prop :=
  ∃ digits, (s = digits ∨ s = '+' :: digits) ∧ digits ≠ [] ∧ (∀ c ∈ digits, c.isDigit = true)
    ∧ n = Nat.ofDigitChars 10 digits 0 ∧ n < 2 ^ 64

/-- Exactly the numbers are parsed. -/
theorem parseU64_eq_some {s : Text} {n : ℕ} :
  parseU64 s = some n ↔ IsNumber s n
  := by
  have hdigits : ∀ digits : Text,
      (if digits ≠ [] ∧ digits.all Char.isDigit then parseUsize 0 digits else none) = some n
        ↔ digits ≠ [] ∧ (∀ c ∈ digits, c.isDigit = true)
          ∧ n = Nat.ofDigitChars 10 digits 0 ∧ n < 2 ^ 64 := by
    intro digits
    rw [Option.ite_none_right_eq_some, parseUsize_eq_some (by decide), List.all_eq_true, and_assoc,
      eq_comm]
  have hsign : ¬('+'.isDigit = true) := by decide
  simp only [parseU64]
  rw [hdigits]
  split
  next hplus =>
    obtain ⟨rest, rfl⟩ : ∃ rest, s = '+' :: rest := by
      cases s with
      | nil => cases hplus
      | cons c rest => exact ⟨rest, by rw [Option.some.inj hplus]⟩
    constructor
    · intro h
      exact ⟨rest, .inr rfl, h⟩
    · rintro ⟨digits, rfl | hrest, h⟩
      · exact absurd (h.2.1 _ List.mem_cons_self) hsign
      · rw [List.tail_cons, (List.cons.inj hrest).2]
        apply h
  next hplus =>
    constructor
    · intro h
      exact ⟨s, .inl rfl, h⟩
    · rintro ⟨digits, rfl | rfl, h⟩
      · apply h
      · exact absurd rfl hplus

/-! ### What is loaded -/

/-- The variable decides the setting `b`, or it is not set or cannot be used, and the setting is
`a` as it was. -/
def Overridden {α : Type} (means : String → α → Prop) (var : Option String) (a b : α) : Prop :=
  (∃ s, var = some s ∧ means s b) ∨ ((∀ s, var = some s → ∀ x, ¬means s x) ∧ b = a)

/-- What a variable decides, and that it decides nothing when it cannot be used. -/
theorem overridden_iff {α : Type} {means : String → α → Prop} {use : String → Option α}
    (huse : ∀ s x, use s = some x ↔ means s x) {var : Option String} {a b : α} :
  Overridden means var a b ↔ b = (var.bind use).getD a
  := by
  cases var with
  | none => simp [Overridden]
  | some s =>
      simp only [Overridden, Option.some.injEq, exists_eq_left', forall_eq', Option.bind_some,
        ← huse]
      cases use s with
      | none => simp
      | some x => simp [eq_comm]

namespace Config

variable (host : LoadHost)

/-- The configuration before the environment is laid over it: the default one, or that of the
file. -/
def ReadFrom (path : Option String) (c : Config) : Prop :=
  match path with
  | none => c = {}
  | some p => ∃ raw doc, host.read p = .ok raw ∧ host.parse raw = .ok doc
      ∧ Config.deserialize host.isSocketAddr doc = .ok c

/-- The configuration `c'` is loaded when `c` is read. -/
structure LoadedFrom (c c' : Config) : Prop where
  accepted : c.Accepted
  bind : Overridden (fun s x => host.isSocketAddr s = true ∧ x = s) (host.var "EMBER_BIND")
    c.bind c'.bind
  endpoint : Overridden (fun s x => x = s) (host.var "EMBER_REGISTRY_ENDPOINT")
    c.registry.endpoint c'.registry.endpoint
  interval : Overridden (fun s n => IsNumber s.toList n) (host.var "EMBER_PULL_INTERVAL_SECS")
    c.registry.pullIntervalSecs c'.registry.pullIntervalSecs
  insecure : c'.registry.insecure = c.registry.insecure
  cacheDir : c'.registry.cacheDir = c.registry.cacheDir
  engine : c'.engine = c.engine
  http : c'.http = c.http
  tenants : List.Forall₂ (TenantConfig.ClampedTo c.engine) c.tenants c'.tenants

/-- The environment leaves all but three settings as they are. -/
theorem applyEnv_eq (c : Config) :
  c.applyEnv host
    = { c with
        bind := ((host.var "EMBER_BIND").bind fun s =>
          if host.isSocketAddr s then some s else none).getD c.bind
        registry :=
          { c.registry with
            endpoint := (host.var "EMBER_REGISTRY_ENDPOINT").getD c.registry.endpoint
            pullIntervalSecs := ((host.var "EMBER_PULL_INTERVAL_SECS").bind fun s =>
              parseU64 s.toList).getD c.registry.pullIntervalSecs } }
  := by
  have hbind : ∀ c : Config,
      (match host.var "EMBER_BIND" with
        | none => c
        | some bind => if host.isSocketAddr bind then { c with bind } else c)
      = { c with
          bind := ((host.var "EMBER_BIND").bind fun s =>
            if host.isSocketAddr s then some s else none).getD c.bind } := by
    intro c
    cases host.var "EMBER_BIND" with
    | none => rfl
    | some s =>
        simp only [Option.bind_some]
        split
        all_goals rfl
  rw [applyEnv]
  simp only [hbind]
  cases host.var "EMBER_REGISTRY_ENDPOINT" with
  | none =>
      cases host.var "EMBER_PULL_INTERVAL_SECS" with
      | none => rfl
      | some interval => cases hv : parseU64 interval.toList <;> simp [hv]
  | some endpoint =>
      cases host.var "EMBER_PULL_INTERVAL_SECS" with
      | none => rfl
      | some interval => cases hv : parseU64 interval.toList <;> simp [hv]

/-- Validation succeeds when the checks pass, and clamps the tenants. -/
theorem validate_ok_cases {c c' : Config} :
  c.validate = .ok c'
    ↔ c.Accepted ∧ c' = { c with tenants := c.engine.clampTenants c.tenants }
  := by
  rw [validate_eq]
  obtain ⟨haccepted, hleft⟩ | ⟨hrefused, e, hleft⟩ := c.validateInPlace_cases
  · rw [hleft]
    simp [Except.map, haccepted, eq_comm]
  · rw [hleft]
    simp [Except.map, hrefused]

/-- Tenants are those of an accepted configuration clamped exactly when they are what clamping
gives. -/
theorem Accepted.clampTenants_eq_iff {c : Config} (h : c.Accepted) {ts : List TenantConfig} :
  List.Forall₂ (TenantConfig.ClampedTo c.engine) c.tenants ts
    ↔ ts = c.engine.clampTenants c.tenants
  := by
  have hone : ∀ {t t' : TenantConfig}, t ∈ c.tenants →
      (t.ClampedTo c.engine t' ↔ t' = { t with
        limits := t.limits.clampTo c.engine.maxMemoryBytes c.engine.maxInstances }) := by
    intro t t' ht
    constructor
    · intro hclamped
      rw [hclamped.same, hclamped.memory, hclamped.instances, hclamped.epochDelta]
      rfl
    · rintro rfl
      apply h.clampedTo ht
  have hall : ∀ l : List TenantConfig, (∀ t ∈ l, t ∈ c.tenants) → ∀ ts,
      List.Forall₂ (TenantConfig.ClampedTo c.engine) l ts ↔ ts = c.engine.clampTenants l := by
    intro l
    induction l with
    | nil =>
        intro _ ts
        rw [List.forall₂_nil_left_iff]
        rfl
    | cons t l ih =>
        intro hl ts
        rw [List.forall_mem_cons] at hl
        rw [List.forall₂_cons_left_iff]
        simp only [hone hl.1, ih hl.2]
        constructor
        · rintro ⟨t', ts', rfl, rfl, rfl⟩
          rfl
        · rintro rfl
          exact ⟨_, _, rfl, rfl, rfl⟩
  apply hall c.tenants fun _ => id

/-- The environment does not change what validation looks at. -/
theorem applyEnv_accepted {c : Config} :
  (c.applyEnv host).Accepted ↔ c.Accepted
  := by
  rw [applyEnv_eq]
  constructor
  · rintro ⟨hmemory, hinstances, htenants⟩
    exact ⟨hmemory, hinstances, htenants⟩
  · rintro ⟨hmemory, hinstances, htenants⟩
    exact ⟨hmemory, hinstances, htenants⟩

/-- The configuration `c'` is loaded when `c` is read exactly when validating `c` under the
environment succeeds with it. -/
theorem loadedFrom_iff {c c' : Config} :
  LoadedFrom host c c' ↔ (c.applyEnv host).validate = .ok c'
  := by
  have hbind : ∀ s x, (if host.isSocketAddr s then some s else none) = some x
      ↔ host.isSocketAddr s = true ∧ x = s := by
    intro s x
    rw [Option.ite_none_right_eq_some, Option.some.injEq, @eq_comm _ s x]
  have hendpoint : ∀ s x : String, some s = some x ↔ x = s := by
    intro s x
    rw [Option.some.injEq, eq_comm]
  rw [validate_ok_cases, applyEnv_accepted, applyEnv_eq]
  constructor
  · rintro ⟨haccepted, hbind', hendpoint', hinterval', hinsecure, hcache, hengine, hhttp, htenants⟩
    use haccepted
    rw [overridden_iff hbind] at hbind'
    rw [overridden_iff hendpoint, Option.bind_fun_some] at hendpoint'
    rw [overridden_iff fun s n => parseU64_eq_some] at hinterval'
    rw [haccepted.clampTenants_eq_iff] at htenants
    obtain ⟨bind, tenants, engine, ⟨endpoint, insecure, interval, cache⟩, http⟩ := c'
    simp only at *
    subst hbind' hendpoint' hinterval' hinsecure hcache hengine hhttp htenants
    rfl
  · rintro ⟨haccepted, rfl⟩
    constructor
    · apply haccepted
    · rw [overridden_iff hbind]
    · rw [overridden_iff hendpoint, Option.bind_fun_some]
    · rw [overridden_iff fun s n => parseU64_eq_some]
    · rfl
    · rfl
    · rfl
    · rfl
    · rw [haccepted.clampTenants_eq_iff]

/-- A file is read exactly when its text is a document that is read. -/
theorem readFile_ok {p : String} {c : Config} :
  readFile host p = .ok c ↔ ReadFrom host (some p) c
  := by
  constructor
  · intro h
    rw [readFile] at h
    split at h
    · cases h
    next raw hraw =>
      split at h
      · cases h
      next doc hdoc =>
        split at h
        · cases h
        next c' hc =>
          obtain rfl := Except.ok.inj h
          exact ⟨raw, doc, hraw, hdoc, hc⟩
  · rintro ⟨raw, doc, hraw, hdoc, hc⟩
    simp only [readFile, hraw, hdoc, hc]

/-- What is loaded is what validation makes of what is read, under the environment. -/
theorem load_ok {path : Option String} {c' : Config} :
  load host path = .ok c' ↔ ∃ c, ReadFrom host path c ∧ (c.applyEnv host).validate = .ok c'
  := by
  cases path with
  | none => simp [load, ReadFrom]
  | some p =>
      simp only [← readFile_ok, load]
      cases readFile host p with
      | error e => simp
      | ok c => simp

/-- Laying the environment over what was validated under it changes nothing. -/
theorem applyEnv_applyEnv (c : Config) (tenants : List TenantConfig) :
  ({ c.applyEnv host with tenants } : Config).applyEnv host = { c.applyEnv host with tenants }
  := by
  have hagain : ∀ {α : Type} (x : Option α) (a : α), x.getD (x.getD a) = x.getD a := by
    intro α x a
    cases x
    all_goals rfl
  simp only [applyEnv_eq, hagain]

/-- A configuration is loaded exactly when one is read, from the file or by default, that
validation accepts, and three settings are what the environment says where it says something
usable, and the limits of the tenants are clamped into the budget of the engine.  Laying the
environment over the loaded configuration and validating it again changes nothing. -/
theorem load_iff {path : Option String} {c' : Config} :
  (load host path = .ok c' ↔ ∃ c, ReadFrom host path c ∧ LoadedFrom host c c')
    ∧ (load host path = .ok c' → (c'.applyEnv host).validate = .ok c')
  := by
  constructor
  · simp only [loadedFrom_iff]
    apply load_ok
  · intro h
    obtain ⟨c, -, hvalidate⟩ := (load_ok host).mp h
    obtain ⟨haccepted, rfl⟩ := validate_ok_cases.mp hvalidate
    rw [applyEnv_applyEnv, validate_ok_cases]
    use haccepted.clampTenants
    rw [clampTenants_clampTenants]

end Config

end Ember
