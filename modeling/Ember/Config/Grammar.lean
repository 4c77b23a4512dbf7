import Ember.Library.Fieldwise
import Ember.Config.Schema

/-!
# What a document says

The deserializers of `Config` and of the types in it visit the entries of tables one after the
other.  Here we say what a document spells, without visiting anything: of each field, which
values are given for it, what they mean, and what the field is when none is given.  We show that
the deserializers read exactly what is spelled.

The free-form tables are maps, so configurations are compared by what their maps hold.
-/

namespace Ember

namespace Toml

/-! ### Values -/

/-- The value is a text. -/
def IsString (v : Toml) (s : String) : Prop := v = .string s

/-- The value is a boolean. -/
def IsBoolean (v : Toml) (b : Bool) : Prop := v = .boolean b

/-- The value is a natural number of the given number of bits. -/
def IsUnsigned (bits : ℕ) (v : Toml) (n : ℕ) : Prop := v = .integer n ∧ n < 2 ^ bits

/-- The value is a number of bytes: a natural number, or a size. -/
def IsMemory (v : Toml) (n : ℕ) : Prop :=
  v.IsUnsigned 64 n ∨ ∃ s, v.IsString s ∧ IsMemorySize s n

/-- The value is a duration in milliseconds. -/
def IsMillis (v : Toml) (d : Duration) : Prop := ∃ n, v.IsUnsigned 64 n ∧ d = n * 1000000

/-- The value is an array of items. -/
def IsArray {α : Type} (item : Toml → α → Prop) (v : Toml) (as : List α) : Prop :=
  ∃ items, v = .array items ∧ List.Forall₂ item items as

/-- The value is a table of texts, or a date, which stands for a table with one private key.  Of
several entries for a key the last one counts. -/
def IsTexts (v : Toml) (m : ConfigMap) : Prop :=
  ∃ texts : List (String × String),
    (v = .table (texts.map (Prod.map id .string))
      ∨ ∃ text, v = .datetime text ∧ texts = [("$__toml_private_datetime", text)])
    ∧ ∀ key, m.lookup key = texts.reverse.lookup key

/-! ### Structs -/

/-- The value is a struct with these fields: none of them is given twice, and nothing else is
given when unknown fields are denied. -/
def IsStruct (denyUnknown : Bool) (fields : List String) (v : Toml) : Prop :=
  ∃ entries, v.entries fields = .ok entries
    ∧ ((entries.map Prod.fst).filter (· ∈ fields)).Nodup
    ∧ (denyUnknown = true → ∀ e ∈ entries, e.1 ∈ fields)

/-- The field `key` of the struct `v` is `a`: what is given for it means `a`, or nothing is given
and `a` is the default. -/
structure Field {α : Type} (fields : List String) (v : Toml) (key : String)
    (means : Toml → α → Prop) (default a : α) : Prop where
  given {w : Toml} (h : v.Gives fields key w) : means w a
  omitted (h : ∀ w, ¬v.Gives fields key w) : a = default

/-- The field `key` of the struct `v` has to be given, and is `a`. -/
structure Required {α : Type} (fields : List String) (v : Toml) (key : String)
    (means : Toml → α → Prop) (a : α) : Prop where
  present : ∃ w, v.Gives fields key w
  given {w : Toml} (h : v.Gives fields key w) : means w a

/-- The value is an enum: it has one tag, `kind`, and `content` is the rest of it. -/
def IsTagged (v : Toml) (kind : String) (content : Toml) : Prop :=
  (∃ entries, v = .table entries
      ∧ entries.filter (·.1 = "kind") = [("kind", .string kind)]
      ∧ content = .table (entries.filter (·.1 ≠ "kind")))
    ∨ ∃ items, v = .array (.string kind :: items) ∧ content = .array items

/-- The value does not have more items than there are fields. -/
def Fits (fields : List String) (v : Toml) : Prop :=
  ∀ items, v = .array items → items.length ≤ fields.length

end Toml

/-! ### The types of a configuration -/

/-- The value spells the budget of the engine. -/
structure EngineConfig.Spelled (v : Toml) (c : EngineConfig) : Prop where
  struct : v.IsStruct true engineFields
  memory : v.Field engineFields "max_memory_bytes" Toml.IsMemory (1024 * 1024 * 1024)
    c.maxMemoryBytes
  instances : v.Field engineFields "max_instances" (Toml.IsUnsigned 64) 64 c.maxInstances
  threads : v.Field engineFields "threads" (Toml.IsUnsigned 64) 4 c.threads
  epoch : v.Field engineFields "epoch_interval_ms" (Toml.IsUnsigned 64) 100 c.epochIntervalMs

/-- The value spells the configuration of the registry client. -/
structure RegistryConfig.Spelled (v : Toml) (c : RegistryConfig) : Prop where
  struct : v.IsStruct true registryFields
  endpoint : v.Field registryFields "endpoint" Toml.IsString "ghcr.io" c.endpoint
  insecure : v.Field registryFields "insecure" Toml.IsBoolean false c.insecure
  interval : v.Field registryFields "pull_interval_secs" (Toml.IsUnsigned 64) 30
    c.pullIntervalSecs
  cache : v.Field registryFields "cache_dir" Toml.IsString "registry-cache" c.cacheDir

/-- The value spells the tuning of the ingress. -/
structure HttpConfig.Spelled (v : Toml) (c : HttpConfig) : Prop where
  struct : v.IsStruct true httpFields
  timeout : v.Field httpFields "timeout_secs" (Toml.IsUnsigned 64) 30 c.timeoutSecs
  concurrency : v.Field httpFields "concurrency" (Toml.IsUnsigned 64) 512 c.concurrency
  body : v.Field httpFields "max_body_bytes" Toml.IsMemory (8 * 1024 * 1024) c.maxBodyBytes
  header : v.Field httpFields "request_id_header" Toml.IsString "x-request-id" c.requestIdHeader

/-- The value spells the limits of a tenant. -/
structure SandboxLimits.Spelled (v : Toml) (l : SandboxLimits) : Prop where
  struct : v.IsStruct false limitsFields
  memory : v.Field limitsFields "max_memory_bytes" Toml.IsMemory (128 * 1024 * 1024)
    l.maxMemoryBytes
  instances : v.Field limitsFields "max_instances" (Toml.IsUnsigned 64) 8 l.maxInstances
  tables : v.Field limitsFields "max_tables" (Toml.IsUnsigned 64) 32 l.maxTables
  epoch : v.Field limitsFields "max_epoch_delta" (Toml.IsUnsigned 64) 10000000 l.maxEpochDelta
  wall : v.Field limitsFields "max_wall_duration_ms" Toml.IsMillis (.ofSecs 10)
    l.maxWallDuration
  body : v.Field limitsFields "max_body_bytes" Toml.IsMemory (8 * 1024 * 1024) l.maxBodyBytes
  quota : v.Field limitsFields "memfs_quota_bytes" Toml.IsMemory (4 * 1024 * 1024)
    l.memfsQuotaBytes
  cpus : v.Field limitsFields "cpus" (Toml.IsUnsigned 32) 1 l.cpus
  egress : v.Field limitsFields "egress_allow" (Toml.IsArray Toml.IsString) [] l.egressAllow
  deny : v.Field limitsFields "default_deny_egress" Toml.IsBoolean true l.defaultDenyEgress

/-- The value spells where a component comes from. -/
def ComponentSource.Spelled (v : Toml) (source : ComponentSource) : Prop :=
  ∃ kind content, v.IsTagged kind content
    ∧ match source with
      | .oci reference pin =>
          kind = "oci" ∧ content.Fits ociFields ∧ content.IsStruct false ociFields
            ∧ content.Required ociFields "reference" Toml.IsString reference
            ∧ content.Field ociFields "pin" (fun w p => ∃ s, w.IsString s ∧ p = some s) none pin
      | .file path =>
          kind = "file" ∧ content.Fits fileFields ∧ content.IsStruct false fileFields
            ∧ content.Required fileFields "path" Toml.IsString path

/-- The value spells a tenant. -/
structure TenantConfig.Spelled (v : Toml) (t : TenantConfig) : Prop where
  struct : v.IsStruct true tenantFields
  name : v.Required tenantFields "name" Toml.IsString t.name
  component : v.Required tenantFields "component" ComponentSource.Spelled t.component
  limits : v.Field tenantFields "limits" SandboxLimits.Spelled {} t.limits
  config : v.Field tenantFields "config" Toml.IsTexts ∅ t.config

/-- The document spells a configuration. -/
structure Config.Spelled (isSocketAddr : String → Bool) (doc : Toml) (c : Config) : Prop where
  struct : doc.IsStruct true configFields
  bind : doc.Field configFields "bind" (fun w s => w.IsString s ∧ isSocketAddr s = true)
    "127.0.0.1:8080" c.bind
  tenants : doc.Field configFields "tenants" (Toml.IsArray TenantConfig.Spelled) [] c.tenants
  engine : doc.Field configFields "engine" EngineConfig.Spelled {} c.engine
  registry : doc.Field configFields "registry" RegistryConfig.Spelled {} c.registry
  http : doc.Field configFields "http" HttpConfig.Spelled {} c.http

/-! ### Equal maps -/

/-- The tenants are the same, and their maps hold the same. -/
structure TenantConfig.Alike (t t' : TenantConfig) : Prop where
  name : t.name = t'.name
  component : t.component = t'.component
  limits : t.limits = t'.limits
  config (key : String) : t.config.lookup key = t'.config.lookup key

/-- The configurations are the same, and the maps of their tenants hold the same. -/
structure Config.Alike (c c' : Config) : Prop where
  bind : c.bind = c'.bind
  tenants : List.Forall₂ TenantConfig.Alike c.tenants c'.tenants
  engine : c.engine = c'.engine
  registry : c.registry = c'.registry
  http : c.http = c'.http

theorem TenantConfig.Alike.refl (t : TenantConfig) :
  t.Alike t
  := ⟨rfl, rfl, rfl, fun _ => rfl⟩

theorem Config.Alike.refl (c : Config) :
  c.Alike c
  := by
  refine ⟨rfl, ?_, rfl, rfl, rfl⟩
  apply List.forall₂_same.mpr
  intro t _
  apply TenantConfig.Alike.refl

/-! ### Values are read -/

section Values

variable {v : Toml}

theorem deString_ok {s : String} :
  deString v = .ok s ↔ v.IsString s
  := by
  cases v
  all_goals simp [deString, Toml.IsString]

theorem deBool_ok {b : Bool} :
  deBool v = .ok b ↔ v.IsBoolean b
  := by
  cases v
  all_goals simp [deBool, Toml.IsBoolean]

theorem deUnsigned_ok {bits n : ℕ} :
  deUnsigned bits v = .ok n ↔ v.IsUnsigned bits n
  := by
  cases v with
  | integer z =>
      rw [deUnsigned, Toml.IsUnsigned, Toml.integer.injEq]
      split
      next hz =>
        rw [Except.ok.injEq]
        have hcast : (2 : ℤ) ^ bits = ((2 ^ bits : ℕ) : ℤ) := by simp
        rw [hcast] at hz
        omega
      next hz =>
        simp only [reduceCtorEq, false_iff]
        rintro ⟨rfl, hn⟩
        apply hz
        constructor
        · omega
        · exact_mod_cast hn
  | _ => simp [deUnsigned, Toml.IsUnsigned]

theorem deMemory_ok {n : ℕ} :
  deMemory v = .ok n ↔ v.IsMemory n
  := by
  have herror : deMemory v = .ok n ↔ deserializeMemory v = .ok n := by
    rw [deMemory]
    cases deserializeMemory v
    all_goals simp [Except.mapError]
  rw [herror, Toml.IsMemory, ← deUnsigned_ok]
  cases v with
  | string s =>
      rw [deserializeMemory_string]
      simp [deUnsigned, Toml.IsString]
  | integer z =>
      rw [deserializeMemory, deUnsigned]
      split
      all_goals simp [Toml.IsString]
  | _ => simp [deserializeMemory, deUnsigned, Toml.IsString]

theorem deMillis_ok {d : Duration} :
  deMillis v = .ok d ↔ v.IsMillis d
  := by
  rw [deMillis, Toml.IsMillis]
  simp only [← deUnsigned_ok]
  cases deUnsigned 64 v with
  | error e => simp [Except.map]
  | ok n => simp [Except.map, eq_comm]

/-- The items of an array are read one by one. -/
theorem deItems_iff {α : Type} {item : Toml → Except DeError α} {items : List Toml} :
  ∀ {as : List α}, deItems item items = .ok as
    ↔ List.Forall₂ (fun v a => item v = .ok a) items as
  := by
  induction items with
  | nil =>
      intro as
      rw [deItems, List.forall₂_nil_left_iff, Except.ok.injEq, eq_comm]
  | cons v items ih =>
      intro as
      rw [deItems, List.forall₂_cons_left_iff]
      cases hitem : item v with
      | error e => simp
      | ok a =>
          cases hitems : deItems item items with
          | error e =>
              have hnone : ∀ as, ¬List.Forall₂ (fun v a => item v = .ok a) items as := by
                intro as has
                cases hitems.symm.trans (ih.mpr has)
              simp [Except.map, hnone]
          | ok rest =>
              have hrest : ∀ as, List.Forall₂ (fun v a => item v = .ok a) items as ↔ rest = as := by
                intro as
                rw [← ih, hitems, Except.ok.injEq]
              simp [Except.map, hrest, eq_comm]

theorem deList_ok {α : Type} {item : Toml → Except DeError α} {as : List α} :
  deList item v = .ok as ↔ v.IsArray (fun w a => item w = .ok a) as
  := by
  cases v with
  | array items =>
      rw [deList, deItems_iff, Toml.IsArray]
      simp
  | _ => simp [deList, Toml.IsArray]

end Values

/-! ### Structs are read -/

/-- A field that is read with `read` and not computed from others. -/
def slot {σ α : Type} (read : Toml → Except DeError α) (get : σ → α) (put : σ → α → σ)
    (get_put : ∀ s a, get (put s a) = a) : Visitor.Slot Toml σ DeError where
  Value := α
  read := read
  get := get
  put := put
  get_put := get_put

/-- A struct is read exactly when each of its fields is what is given for it, or the default. -/
theorem deStruct_ok {σ : Type} {V : Visitor String Toml σ DeError}
    {slots : List (String × Visitor.Slot Toml σ DeError)} (h : V.Fieldwise slots) {init t : σ}
    {v : Toml} :
  deStruct V init v = .ok t
    ↔ v.IsStruct V.denyUnknown V.fields
      ∧ ∀ p ∈ slots, v.Field V.fields p.1 (fun w a => p.2.read w = .ok a) (p.2.get init)
          (p.2.get t)
  := by
  rw [deStruct]
  cases hentries : v.entries V.fields with
  | error e =>
      simp only [reduceCtorEq, false_iff]
      rintro ⟨⟨entries, hentries', -⟩, -⟩
      cases hentries.symm.trans hentries'
  | ok entries =>
      have hgives : ∀ {key w}, v.Gives V.fields key w ↔ (key, w) ∈ entries := by
        intro key w
        rw [Toml.Gives, hentries]
        simp
      simp only
      rw [h.visit_ok_iff]
      constructor
      · rintro ⟨⟨honce, hknown⟩, hdecided⟩
        use ⟨entries, hentries, honce, hknown⟩
        intro p hp
        constructor
        · intro w hw
          apply (hdecided p hp).given (hgives.mp hw)
        · intro hnone
          apply (hdecided p hp).kept
          intro w hw
          apply hnone w (hgives.mpr hw)
      · rintro ⟨⟨entries', hentries', honce, hknown⟩, hfield⟩
        obtain rfl := Except.ok.inj (hentries.symm.trans hentries')
        use ⟨honce, hknown⟩
        intro p hp
        constructor
        · intro w hw
          apply (hfield p hp).given (hgives.mpr hw)
        · intro hnone
          apply (hfield p hp).omitted
          intro w hw
          apply hnone w (hgives.mp hw)

/-- The fields of the budget of the engine. -/
def EngineConfig.slots : List (String × Visitor.Slot Toml EngineConfig DeError) :=
  [("max_memory_bytes",
      slot deMemory maxMemoryBytes (fun c n => { c with maxMemoryBytes := n }) fun _ _ => rfl),
    ("max_instances",
      slot (deUnsigned 64) maxInstances (fun c n => { c with maxInstances := n }) fun _ _ => rfl),
    ("threads", slot (deUnsigned 64) threads (fun c n => { c with threads := n }) fun _ _ => rfl),
    ("epoch_interval_ms",
      slot (deUnsigned 64) epochIntervalMs (fun c n => { c with epochIntervalMs := n })
        fun _ _ => rfl)]

theorem EngineConfig.fieldwise :
  EngineConfig.visitor.Fieldwise EngineConfig.slots
  := by
  constructor
  · rfl
  · decide
  · simp [slots, slot, visitor, structVisitor]
  · simp [slots, slot]
  · intro s t h
    cases s
    cases t
    simpa [slots, slot] using h

/-- The budget of the engine is read as it is spelled. -/
theorem EngineConfig.deserialize_ok {v : Toml} {c : EngineConfig} :
  deStruct EngineConfig.visitor {} v = .ok c ↔ c.Spelled v
  := by
  rw [deStruct_ok EngineConfig.fieldwise]
  simp only [slots, slot, List.forall_mem_cons, deMemory_ok, deUnsigned_ok]
  constructor
  · rintro ⟨hstruct, hmemory, hinstances, hthreads, hepoch, -⟩
    exact ⟨hstruct, hmemory, hinstances, hthreads, hepoch⟩
  · rintro ⟨hstruct, hmemory, hinstances, hthreads, hepoch⟩
    exact ⟨hstruct, hmemory, hinstances, hthreads, hepoch, List.forall_mem_nil _⟩

/-- The fields of the configuration of the registry client. -/
def RegistryConfig.slots : List (String × Visitor.Slot Toml RegistryConfig DeError) :=
  [("endpoint", slot deString endpoint (fun c s => { c with endpoint := s }) fun _ _ => rfl),
    ("insecure", slot deBool insecure (fun c b => { c with insecure := b }) fun _ _ => rfl),
    ("pull_interval_secs",
      slot (deUnsigned 64) pullIntervalSecs (fun c n => { c with pullIntervalSecs := n })
        fun _ _ => rfl),
    ("cache_dir", slot deString cacheDir (fun c s => { c with cacheDir := s }) fun _ _ => rfl)]

theorem RegistryConfig.fieldwise :
  RegistryConfig.visitor.Fieldwise RegistryConfig.slots
  := by
  constructor
  · rfl
  · decide
  · simp [slots, slot, visitor, structVisitor]
  · simp [slots, slot]
  · intro s t h
    cases s
    cases t
    simpa [slots, slot] using h

/-- The configuration of the registry client is read as it is spelled. -/
theorem RegistryConfig.deserialize_ok {v : Toml} {c : RegistryConfig} :
  deStruct RegistryConfig.visitor {} v = .ok c ↔ c.Spelled v
  := by
  rw [deStruct_ok RegistryConfig.fieldwise]
  simp only [slots, slot, List.forall_mem_cons, deString_ok, deBool_ok, deUnsigned_ok]
  constructor
  · rintro ⟨hstruct, hendpoint, hinsecure, hinterval, hcache, -⟩
    exact ⟨hstruct, hendpoint, hinsecure, hinterval, hcache⟩
  · rintro ⟨hstruct, hendpoint, hinsecure, hinterval, hcache⟩
    exact ⟨hstruct, hendpoint, hinsecure, hinterval, hcache, List.forall_mem_nil _⟩

/-- The fields of the tuning of the ingress. -/
def HttpConfig.slots : List (String × Visitor.Slot Toml HttpConfig DeError) :=
  [("timeout_secs",
      slot (deUnsigned 64) timeoutSecs (fun c n => { c with timeoutSecs := n }) fun _ _ => rfl),
    ("concurrency",
      slot (deUnsigned 64) concurrency (fun c n => { c with concurrency := n }) fun _ _ => rfl),
    ("max_body_bytes",
      slot deMemory maxBodyBytes (fun c n => { c with maxBodyBytes := n }) fun _ _ => rfl),
    ("request_id_header",
      slot deString requestIdHeader (fun c s => { c with requestIdHeader := s })
        fun _ _ => rfl)]

theorem HttpConfig.fieldwise :
  HttpConfig.visitor.Fieldwise HttpConfig.slots
  := by
  constructor
  · rfl
  · decide
  · simp [slots, slot, visitor, structVisitor]
  · simp [slots, slot]
  · intro s t h
    cases s
    cases t
    simpa [slots, slot] using h

/-- The tuning of the ingress is read as it is spelled. -/
theorem HttpConfig.deserialize_ok {v : Toml} {c : HttpConfig} :
  deStruct HttpConfig.visitor {} v = .ok c ↔ c.Spelled v
  := by
  rw [deStruct_ok HttpConfig.fieldwise]
  simp only [slots, slot, List.forall_mem_cons, deString_ok, deMemory_ok, deUnsigned_ok]
  constructor
  · rintro ⟨hstruct, htimeout, hconcurrency, hbody, hheader, -⟩
    exact ⟨hstruct, htimeout, hconcurrency, hbody, hheader⟩
  · rintro ⟨hstruct, htimeout, hconcurrency, hbody, hheader⟩
    exact ⟨hstruct, htimeout, hconcurrency, hbody, hheader, List.forall_mem_nil _⟩

/-- The fields of the limits of a tenant. -/
def SandboxLimits.slots : List (String × Visitor.Slot Toml SandboxLimits DeError) :=
  [("max_memory_bytes",
      slot deMemory maxMemoryBytes (fun l n => { l with maxMemoryBytes := n }) fun _ _ => rfl),
    ("max_instances",
      slot (deUnsigned 64) maxInstances (fun l n => { l with maxInstances := n }) fun _ _ => rfl),
    ("max_tables",
      slot (deUnsigned 64) maxTables (fun l n => { l with maxTables := n }) fun _ _ => rfl),
    ("max_epoch_delta",
      slot (deUnsigned 64) maxEpochDelta (fun l n => { l with maxEpochDelta := n })
        fun _ _ => rfl),
    ("max_wall_duration_ms",
      slot deMillis maxWallDuration (fun l d => { l with maxWallDuration := d }) fun _ _ => rfl),
    ("max_body_bytes",
      slot deMemory maxBodyBytes (fun l n => { l with maxBodyBytes := n }) fun _ _ => rfl),
    ("memfs_quota_bytes",
      slot deMemory memfsQuotaBytes (fun l n => { l with memfsQuotaBytes := n }) fun _ _ => rfl),
    ("cpus", slot (deUnsigned 32) cpus (fun l n => { l with cpus := n }) fun _ _ => rfl),
    ("egress_allow",
      slot (deList deString) egressAllow (fun l rules => { l with egressAllow := rules })
        fun _ _ => rfl),
    ("default_deny_egress",
      slot deBool defaultDenyEgress (fun l b => { l with defaultDenyEgress := b })
        fun _ _ => rfl)]

theorem SandboxLimits.fieldwise :
  SandboxLimits.visitor.Fieldwise SandboxLimits.slots
  := by
  constructor
  · rfl
  · decide
  · simp [slots, slot, visitor, structVisitor]
  · simp [slots, slot]
  · intro s t h
    cases s
    cases t
    simpa [slots, slot] using h

/-- The limits of a tenant are read as they are spelled. -/
theorem SandboxLimits.deserialize_ok {v : Toml} {l : SandboxLimits} :
  deStruct SandboxLimits.visitor {} v = .ok l ↔ l.Spelled v
  := by
  rw [deStruct_ok SandboxLimits.fieldwise]
  simp only [slots, slot, List.forall_mem_cons, deString_ok, deBool_ok, deMemory_ok, deUnsigned_ok,
    deMillis_ok, deList_ok]
  constructor
  · rintro ⟨hstruct, hmemory, hinstances, htables, hepoch, hwall, hbody, hquota, hcpus, hegress,
      hdeny, -⟩
    exact ⟨hstruct, hmemory, hinstances, htables, hepoch, hwall, hbody, hquota, hcpus, hegress,
      hdeny⟩
  · rintro ⟨hstruct, hmemory, hinstances, htables, hepoch, hwall, hbody, hquota, hcpus, hegress,
      hdeny⟩
    exact ⟨hstruct, hmemory, hinstances, htables, hepoch, hwall, hbody, hquota, hcpus, hegress,
      hdeny, List.forall_mem_nil _⟩

/-! ### Fields that have to be given -/

/-- A field without a default is read as a field whose default is nothing. -/
theorem Toml.required_iff {α : Type} {fields : List String} {v : Toml} {key : String}
    {read : Toml → Except DeError α} {means : Toml → α → Prop}
    (hread : ∀ w a, read w = .ok a ↔ means w a) (a : α) :
  v.Field fields key (fun w o => (read w).map some = .ok o) none (some a)
    ↔ v.Required fields key means a
  := by
  have hsome : ∀ w, (read w).map some = .ok (some a) ↔ means w a := by
    intro w
    rw [← hread]
    cases read w
    all_goals simp [Except.map]
  constructor
  · rintro ⟨hgiven, homitted⟩
    constructor
    · by_contra hnone
      cases homitted (not_exists.mp hnone)
    · intro w hw
      apply (hsome w).mp (hgiven hw)
  · rintro ⟨⟨w, hw⟩, hgiven⟩
    constructor
    · intro u hu
      apply (hsome u).mpr (hgiven hu)
    · intro hnone
      exact absurd hw (hnone w)

/-- A value is read, and then set as the value of a field that may be missing. -/
theorem map_map_some {α β : Type} (x : Except DeError α) (f : Option α → β) :
  (x.map some).map f = x.map fun a => f (some a)
  := by
  cases x
  all_goals rfl

/-! ### The source of a component is read -/

/-- The fields of an OCI source. -/
def ociSlots : List (String × Visitor.Slot Toml (Option String × Option String) DeError) :=
  [("reference",
      slot (fun v => (deString v).map some) Prod.fst (fun c s => (s, c.2)) fun _ _ => rfl),
    ("pin", slot (fun v => (deString v).map some) Prod.snd (fun c s => (c.1, s)) fun _ _ => rfl)]

theorem oci_fieldwise :
  ociVisitor.Fieldwise ociSlots
  := by
  constructor
  · rfl
  · decide
  · simp [ociSlots, slot, ociVisitor, structVisitor, map_map_some]
  · simp [ociSlots, slot]
  · rintro ⟨r, p⟩ ⟨r', p'⟩ h
    simpa [ociSlots, slot] using h

/-- The fields of a file source. -/
def fileSlots : List (String × Visitor.Slot Toml (Option String) DeError) :=
  [("path", slot (fun v => (deString v).map some) id (fun _ s => s) fun _ _ => rfl)]

theorem file_fieldwise :
  fileVisitor.Fieldwise fileSlots
  := by
  constructor
  · rfl
  · decide
  · simp [fileSlots, slot, fileVisitor, structVisitor, map_map_some]
  · simp [fileSlots, slot]
  · intro s t h
    simpa [fileSlots, slot] using h

/-- A variant is read when it has no more items than fields, and its struct is read. -/
theorem deVariant_ok {σ : Type} {V : Visitor String Toml σ DeError} {init t : σ}
    {content : Toml} :
  deVariant V init content = .ok t ↔ content.Fits V.fields ∧ deStruct V init content = .ok t
  := by
  cases content with
  | array items =>
      rw [deVariant]
      split
      all_goals simp [Toml.Fits, *]
  | _ => simp [deVariant, Toml.Fits]

/-- The tag of an enum and the rest of it are read as they are spelled. -/
theorem deTagged_ok {v content : Toml} {kind : String} :
  deTagged v = .ok (.string kind, content) ↔ v.IsTagged kind content
  := by
  rw [Toml.IsTagged]
  cases v with
  | table entries =>
      rw [deTagged]
      split
      next hnone => simp [hnone]
      next key tag hone =>
        have hkey : key = "kind" := by
          have hmem : (key, tag) ∈ entries.filter (·.1 = "kind") := by
            rw [hone]
            apply List.mem_singleton_self
          simpa using (List.mem_filter.mp hmem).2
        subst hkey
        constructor
        · rintro ⟨⟩
          left
          exact ⟨entries, rfl, hone, rfl⟩
        · rintro (⟨entries', ⟨⟩, hkind, rfl⟩ | ⟨items, ⟨⟩, -⟩)
          rw [hone, List.cons.injEq, Prod.mk.injEq] at hkind
          rw [hkind.1.2]
      next hnone hone =>
        simp only [reduceCtorEq, false_iff]
        rintro (⟨entries', ⟨⟩, hkind, rfl⟩ | ⟨items, ⟨⟩, -⟩)
        apply hone _ _ hkind
  | array items =>
      cases items with
      | nil => simp [deTagged]
      | cons tag items => simp [deTagged, eq_comm]
  | _ => simp [deTagged]

/-- The content of an OCI source is read as it is spelled. -/
theorem oci_ok {content : Toml} {reference : String} {pin : Option String} :
  deVariant ociVisitor (none, none) content = .ok (some reference, pin)
    ↔ content.Fits ociFields ∧ content.IsStruct false ociFields
      ∧ content.Required ociFields "reference" Toml.IsString reference
      ∧ content.Field ociFields "pin" (fun w p => ∃ s, w.IsString s ∧ p = some s) none pin
  := by
  have hpin : ∀ w p, (deString w).map some = .ok p ↔ ∃ s, w.IsString s ∧ p = some s := by
    intro w p
    simp only [← deString_ok]
    cases deString w
    all_goals simp [Except.map, eq_comm]
  rw [deVariant_ok, deStruct_ok oci_fieldwise, ← Toml.required_iff fun _ _ => deString_ok]
  simp only [ociSlots, slot, List.forall_mem_cons, ← hpin]
  constructor
  · rintro ⟨hfits, hstruct, hreference, hpin, -⟩
    exact ⟨hfits, hstruct, hreference, hpin⟩
  · rintro ⟨hfits, hstruct, hreference, hpin⟩
    exact ⟨hfits, hstruct, hreference, hpin, List.forall_mem_nil _⟩

/-- The content of a file source is read as it is spelled. -/
theorem file_ok {content : Toml} {path : String} :
  deVariant fileVisitor none content = .ok (some path)
    ↔ content.Fits fileFields ∧ content.IsStruct false fileFields
      ∧ content.Required fileFields "path" Toml.IsString path
  := by
  rw [deVariant_ok, deStruct_ok file_fieldwise, ← Toml.required_iff fun _ _ => deString_ok]
  simp only [fileSlots, slot, List.forall_mem_cons]
  constructor
  · rintro ⟨hfits, hstruct, hpath, -⟩
    exact ⟨hfits, hstruct, hpath⟩
  · rintro ⟨hfits, hstruct, hpath⟩
    exact ⟨hfits, hstruct, hpath, List.forall_mem_nil _⟩

/-- The source of a component is read as it is spelled. -/
theorem ComponentSource.deserialize_ok {v : Toml} {source : ComponentSource} :
  ComponentSource.deserialize v = .ok source ↔ source.Spelled v
  := by
  constructor
  · intro h
    rw [deserialize] at h
    split at h
    · cases h
    next tag content htag =>
      split at h
      · cases h
      next kind hkind =>
        rw [deString_ok, Toml.IsString] at hkind
        subst hkind
        use kind, content, deTagged_ok.mp htag
        split at h
        next hoci =>
          split at h
          · cases h
          · cases h
          next reference pin hcontent =>
            obtain rfl := Except.ok.inj h
            exact ⟨hoci, oci_ok.mp hcontent⟩
        split at h
        next hfile =>
          split at h
          · cases h
          · cases h
          next path hcontent =>
            obtain rfl := Except.ok.inj h
            exact ⟨hfile, file_ok.mp hcontent⟩
        · cases h
  · rintro ⟨kind, content, htagged, hcontent⟩
    rw [deserialize, deTagged_ok.mpr htagged]
    cases source with
    | oci reference pin =>
        obtain ⟨rfl, hcontent⟩ := hcontent
        simp [deString, oci_ok.mpr hcontent]
    | file path =>
        obtain ⟨rfl, hcontent⟩ := hcontent
        simp [deString, file_ok.mpr hcontent]

/-! ### Maps are read -/

/-- The texts of a table are inserted one after the other. -/
theorem deTexts_ok {entries : List (String × Toml)} :
  ∀ {m m' : ConfigMap}, deTexts m entries = .ok m'
    ↔ ∃ texts : List (String × String), entries = texts.map (Prod.map id .string)
      ∧ m' = texts.foldl (fun m e => m.insert e.1 e.2) m
  := by
  induction entries with
  | nil =>
      intro m m'
      rw [deTexts, Except.ok.injEq]
      constructor
      · rintro rfl
        exact ⟨[], rfl, rfl⟩
      · rintro ⟨texts, htexts, rfl⟩
        rw [List.map_eq_nil_iff.mp htexts.symm]
        rfl
  | cons entry entries ih =>
      obtain ⟨key, v⟩ := entry
      intro m m'
      rw [deTexts]
      constructor
      · intro h
        split at h
        · cases h
        next s hs =>
          rw [deString_ok, Toml.IsString] at hs
          obtain ⟨texts, rfl, rfl⟩ := ih.mp h
          exact ⟨(key, s) :: texts, by simp [hs], rfl⟩
      · rintro ⟨texts, htexts, rfl⟩
        cases texts with
        | nil => cases htexts
        | cons text texts =>
            obtain ⟨key', s⟩ := text
            simp only [List.map_cons, List.cons.injEq, Prod.map_apply, id_eq, Prod.mk.injEq]
              at htexts
            obtain ⟨⟨rfl, rfl⟩, rfl⟩ := htexts
            apply ih.mpr ⟨texts, rfl, rfl⟩

/-- Of the texts inserted for a key the last one counts. -/
theorem lookup_foldl_insert {texts : List (String × String)} (key : String) :
  ∀ {m : ConfigMap}, (texts.foldl (fun m e => m.insert e.1 e.2) m).lookup key
    = (texts.reverse.lookup key).or (m.lookup key)
  := by
  induction texts with
  | nil =>
      intro m
      rfl
  | cons text texts ih =>
      obtain ⟨key', s⟩ := text
      intro m
      rw [List.foldl_cons, ih, List.reverse_cons, List.lookup_append, Option.or_assoc]
      congr 1
      by_cases hkey : key = key'
      · subst hkey
        simp
      · rw [AList.lookup_insert_ne hkey]
        simp [hkey]

/-- What is inserted into an empty map is looked up from the end. -/
theorem deTexts_empty_ok {entries : List (String × Toml)} {m : ConfigMap} :
  (∃ m', deTexts ∅ entries = .ok m' ∧ ∀ key, m'.lookup key = m.lookup key)
    ↔ ∃ texts : List (String × String), entries = texts.map (Prod.map id .string)
      ∧ ∀ key, m.lookup key = texts.reverse.lookup key
  := by
  simp only [deTexts_ok]
  constructor
  · rintro ⟨m', ⟨texts, htexts, rfl⟩, hlookup⟩
    use texts, htexts
    intro key
    rw [← hlookup, lookup_foldl_insert, AList.lookup_empty, Option.or_none]
  · rintro ⟨texts, htexts, hlookup⟩
    refine ⟨_, ⟨texts, htexts, rfl⟩, ?_⟩
    intro key
    rw [hlookup, lookup_foldl_insert, AList.lookup_empty, Option.or_none]

/-- A table of texts is read as it is spelled. -/
theorem deStringMap_ok {v : Toml} {m : ConfigMap} :
  (∃ m', deStringMap v = .ok m' ∧ ∀ key, m'.lookup key = m.lookup key) ↔ v.IsTexts m
  := by
  rw [Toml.IsTexts]
  cases v with
  | table entries => simp [deStringMap, deTexts_empty_ok]
  | datetime text =>
      rw [deStringMap, deTexts_empty_ok]
      apply exists_congr
      intro texts
      apply and_congr_left'
      constructor
      · intro htexts
        right
        use text, rfl
        obtain ⟨⟨key, s⟩, rfl, heq⟩ := List.map_eq_singleton_iff.mp htexts.symm
        obtain ⟨rfl, hs⟩ := Prod.mk.inj heq
        rw [Toml.string.inj hs]
      · rintro (htable | ⟨text', htext, rfl⟩)
        · cases htable
        · obtain rfl := Toml.datetime.inj htext
          rfl
  | _ => simp [deStringMap]

/-! ### Tenants are read -/

/-- The fields of a tenant. -/
def TenantParts.slots : List (String × Visitor.Slot Toml TenantParts DeError) :=
  [("name",
      slot (fun v => (deString v).map some) name (fun c s => { c with name := s }) fun _ _ => rfl),
    ("component",
      slot (fun v => (ComponentSource.deserialize v).map some) component
        (fun c source => { c with component := source }) fun _ _ => rfl),
    ("limits",
      slot (deStruct SandboxLimits.visitor {}) limits (fun c l => { c with limits := l })
        fun _ _ => rfl),
    ("config", slot deStringMap config (fun c m => { c with config := m }) fun _ _ => rfl)]

theorem TenantParts.fieldwise :
  TenantParts.visitor.Fieldwise TenantParts.slots
  := by
  constructor
  · rfl
  · decide
  · simp [slots, slot, visitor, structVisitor, map_map_some]
  · simp [slots, slot]
  · intro s t h
    cases s
    cases t
    simpa [slots, slot] using h

/-- A tenant is read when its name and its component are. -/
theorem TenantConfig.deserialize_parts {v : Toml} {t : TenantConfig} :
  TenantConfig.deserialize v = .ok t
    ↔ deStruct TenantParts.visitor {} v
      = .ok { name := some t.name, component := some t.component, limits := t.limits,
              config := t.config }
  := by
  rw [deserialize]
  constructor
  · intro h
    split at h
    · cases h
    next parts hparts =>
      obtain ⟨name, component, limits, config⟩ := parts
      split at h
      · cases h
      · cases h
      next hname hcomponent =>
        obtain rfl := Except.ok.inj h
        simp only at hname hcomponent
        rw [hparts, hname, hcomponent]
  · intro h
    rw [h]

/-- A tenant is read when its parts are spelled and its map is read. -/
theorem TenantConfig.deserialize_ok {v : Toml} {t : TenantConfig} :
  TenantConfig.deserialize v = .ok t
    ↔ v.IsStruct true tenantFields
      ∧ v.Required tenantFields "name" Toml.IsString t.name
      ∧ v.Required tenantFields "component" ComponentSource.Spelled t.component
      ∧ v.Field tenantFields "limits" (fun w l => l.Spelled w) {} t.limits
      ∧ v.Field tenantFields "config" (fun w m => deStringMap w = .ok m) ∅ t.config
  := by
  rw [deserialize_parts, deStruct_ok TenantParts.fieldwise,
    ← Toml.required_iff fun _ _ => deString_ok,
    ← Toml.required_iff fun _ _ => ComponentSource.deserialize_ok]
  simp only [TenantParts.slots, slot, List.forall_mem_cons, SandboxLimits.deserialize_ok]
  constructor
  · rintro ⟨hstruct, hname, hcomponent, hlimits, hconfig, -⟩
    exact ⟨hstruct, hname, hcomponent, hlimits, hconfig⟩
  · rintro ⟨hstruct, hname, hcomponent, hlimits, hconfig⟩
    exact ⟨hstruct, hname, hcomponent, hlimits, hconfig, List.forall_mem_nil _⟩

/-! ### Up to equal maps -/

namespace Toml

/-- A field of a struct is given at most once. -/
theorem IsStruct.gives_unique {denyUnknown : Bool} {fields : List String} {v : Toml}
    (h : v.IsStruct denyUnknown fields) {key : String} (hkey : key ∈ fields) {w w' : Toml}
    (hw : v.Gives fields key w) (hw' : v.Gives fields key w') :
  w = w'
  := by
  obtain ⟨entries, hentries, honce, -⟩ := h
  obtain ⟨entries', hentries', hmem⟩ := hw
  obtain rfl := Except.ok.inj (hentries.symm.trans hentries')
  obtain ⟨entries', hentries', hmem'⟩ := hw'
  obtain rfl := Except.ok.inj (hentries.symm.trans hentries')
  rw [List.filter_map] at honce
  have hfilter : ∀ {u}, (key, u) ∈ entries →
      (key, u) ∈ entries.filter ((fun k => decide (k ∈ fields)) ∘ Prod.fst) := by
    intro u hu
    rw [List.mem_filter]
    exact ⟨hu, by simpa using hkey⟩
  have hpair := List.inj_on_of_nodup_map honce (hfilter hmem) (hfilter hmem') rfl
  apply (Prod.mk.inj hpair).2

/-- When values that mean the same up to a relation are compared up to it, so are fields. -/
theorem Field.upTo {α : Type} {denyUnknown : Bool} {fields : List String} {v : Toml}
    (hstruct : v.IsStruct denyUnknown fields) {key : String} (hkey : key ∈ fields)
    {means reads : Toml → α → Prop} {alike : α → α → Prop}
    (hmeans : ∀ w a, means w a ↔ ∃ a', reads w a' ∧ alike a' a) {default : α}
    (hdefault : ∀ a, alike default a ↔ a = default) {a : α} :
  v.Field fields key means default a
    ↔ ∃ a', v.Field fields key reads default a' ∧ alike a' a
  := by
  constructor
  · rintro ⟨hgiven, homitted⟩
    by_cases hsome : ∃ w, v.Gives fields key w
    · obtain ⟨w, hw⟩ := hsome
      obtain ⟨a', hreads, halike⟩ := (hmeans w a).mp (hgiven hw)
      refine ⟨a', ⟨?_, ?_⟩, halike⟩
      · intro u hu
        rw [hstruct.gives_unique hkey hu hw]
        apply hreads
      · intro hnone
        exact absurd hw (hnone w)
    · have hnone := not_exists.mp hsome
      refine ⟨default, ⟨?_, fun _ => rfl⟩, ?_⟩
      · intro w hw
        exact absurd hw (hnone w)
      · apply (hdefault a).mpr (homitted hnone)
  · rintro ⟨a', ⟨hgiven, homitted⟩, halike⟩
    constructor
    · intro w hw
      apply (hmeans w a).mpr ⟨a', hgiven hw, halike⟩
    · intro hnone
      rw [homitted hnone] at halike
      apply (hdefault a).mp halike

end Toml

/-- A map that holds nothing is empty. -/
theorem ConfigMap.eq_empty_iff {m : ConfigMap} :
  (∀ key, (∅ : ConfigMap).lookup key = m.lookup key) ↔ m = ∅
  := by
  constructor
  · intro h
    apply AList.ext
    apply List.eq_nil_iff_forall_not_mem.mpr
    rintro ⟨key, s⟩ hmem
    have hsome := AList.mem_lookup_iff.mpr hmem
    rw [← h key] at hsome
    cases hsome
  · rintro rfl key
    rfl

/-- The map of a tenant is read as it is spelled. -/
theorem config_iff {v : Toml} (hstruct : v.IsStruct true tenantFields) {m : ConfigMap} :
  v.Field tenantFields "config" Toml.IsTexts ∅ m
    ↔ ∃ m', v.Field tenantFields "config" (fun w m => deStringMap w = .ok m) ∅ m'
      ∧ ∀ key, m'.lookup key = m.lookup key
  := by
  apply Toml.Field.upTo hstruct (by decide)
  · intro w m
    rw [deStringMap_ok]
  · intro m
    rw [ConfigMap.eq_empty_iff]

/-- A tenant is read as it is spelled. -/
theorem TenantConfig.spelled_reads {v : Toml} {t : TenantConfig} :
  t.Spelled v ↔ ∃ t', TenantConfig.deserialize v = .ok t' ∧ t'.Alike t
  := by
  constructor
  · rintro ⟨hstruct, hname, hcomponent, hlimits, hconfig⟩
    obtain ⟨m, hm, hsame⟩ := (config_iff hstruct).mp hconfig
    use { t with config := m }
    constructor
    · rw [deserialize_ok]
      exact ⟨hstruct, hname, hcomponent, hlimits, hm⟩
    · exact ⟨rfl, rfl, rfl, hsame⟩
  · rintro ⟨t', ht', hsame⟩
    obtain ⟨hstruct, hname, hcomponent, hlimits, hconfig⟩ := deserialize_ok.mp ht'
    constructor
    · apply hstruct
    · rw [← hsame.name]
      apply hname
    · rw [← hsame.component]
      apply hcomponent
    · rw [← hsame.limits]
      apply hlimits
    · apply (config_iff hstruct).mpr ⟨t'.config, hconfig, hsame.config⟩

/-! ### Configurations are read -/

section Config

variable {isSocketAddr : String → Bool}

theorem deSocketAddr_ok {v : Toml} {s : String} :
  deSocketAddr isSocketAddr v = .ok s ↔ v.IsString s ∧ isSocketAddr s = true
  := by
  cases v with
  | string t =>
      simp only [deSocketAddr, deString, Toml.IsString, Toml.string.injEq]
      split
      next haddr =>
        rw [Except.ok.injEq]
        constructor
        · rintro rfl
          exact ⟨rfl, haddr⟩
        · intro h
          apply h.1
      next haddr =>
        simp only [reduceCtorEq, false_iff]
        rintro ⟨rfl, h⟩
        apply haddr h
  | _ => simp [deSocketAddr, deString, Toml.IsString]

variable (isSocketAddr) in
/-- The fields of a configuration. -/
def Config.slots : List (String × Visitor.Slot Toml Config DeError) :=
  [("bind",
      slot (deSocketAddr isSocketAddr) bind (fun c s => { c with bind := s }) fun _ _ => rfl),
    ("tenants",
      slot (deList TenantConfig.deserialize) tenants (fun c ts => { c with tenants := ts })
        fun _ _ => rfl),
    ("engine",
      slot (deStruct EngineConfig.visitor {}) engine (fun c e => { c with engine := e })
        fun _ _ => rfl),
    ("registry",
      slot (deStruct RegistryConfig.visitor {}) registry (fun c r => { c with registry := r })
        fun _ _ => rfl),
    ("http",
      slot (deStruct HttpConfig.visitor {}) http (fun c h => { c with http := h })
        fun _ _ => rfl)]

theorem Config.fieldwise :
  (Config.visitor isSocketAddr).Fieldwise (Config.slots isSocketAddr)
  := by
  constructor
  · rfl
  · have honce : configFields.Nodup := by decide
    apply honce
  · simp [slots, slot, visitor, structVisitor]
  · simp [slots, slot]
  · intro s t h
    cases s
    cases t
    simpa [slots, slot] using h

/-- A configuration is read when it is spelled, but for the tenants, which are read. -/
theorem Config.deserialize_ok {doc : Toml} {c : Config} :
  Config.deserialize isSocketAddr doc = .ok c
    ↔ doc.IsStruct true configFields
      ∧ doc.Field configFields "bind" (fun w s => w.IsString s ∧ isSocketAddr s = true)
          "127.0.0.1:8080" c.bind
      ∧ doc.Field configFields "tenants"
          (Toml.IsArray fun w t => TenantConfig.deserialize w = .ok t) [] c.tenants
      ∧ doc.Field configFields "engine" (fun w e => e.Spelled w) {} c.engine
      ∧ doc.Field configFields "registry" (fun w r => r.Spelled w) {} c.registry
      ∧ doc.Field configFields "http" (fun w h => h.Spelled w) {} c.http
  := by
  rw [Config.deserialize, deStruct_ok Config.fieldwise]
  simp only [slots, slot, List.forall_mem_cons, deSocketAddr_ok, deList_ok,
    EngineConfig.deserialize_ok, RegistryConfig.deserialize_ok, HttpConfig.deserialize_ok]
  constructor
  · rintro ⟨hstruct, hbind, htenants, hengine, hregistry, hhttp, -⟩
    exact ⟨hstruct, hbind, htenants, hengine, hregistry, hhttp⟩
  · rintro ⟨hstruct, hbind, htenants, hengine, hregistry, hhttp⟩
    exact ⟨hstruct, hbind, htenants, hengine, hregistry, hhttp, List.forall_mem_nil _⟩

/-- Items mean something up to a relation when each of them does. -/
theorem forall₂_upTo {α β : Type} {means reads : α → β → Prop} {alike : β → β → Prop}
    (hmeans : ∀ a b, means a b ↔ ∃ b', reads a b' ∧ alike b' b) {as : List α} :
  ∀ {bs : List β}, List.Forall₂ means as bs
    ↔ ∃ bs', List.Forall₂ reads as bs' ∧ List.Forall₂ alike bs' bs
  := by
  induction as with
  | nil =>
      intro bs
      simp
  | cons a as ih =>
      intro bs
      constructor
      · rintro (_ | ⟨hhead, htail⟩)
        obtain ⟨b', hreads, halike⟩ := (hmeans _ _).mp hhead
        obtain ⟨bs', hreads', halike'⟩ := ih.mp htail
        exact ⟨b' :: bs', .cons hreads hreads', .cons halike halike'⟩
      · rintro ⟨_, (_ | ⟨hreads, hreads'⟩), (_ | ⟨halike, halike'⟩)⟩
        apply List.Forall₂.cons
        · apply (hmeans _ _).mpr ⟨_, hreads, halike⟩
        · apply ih.mpr ⟨_, hreads', halike'⟩

/-- Every item of the second list is related to one of the first. -/
theorem exists_related {α β : Type} {related : α → β → Prop} {as : List α} {bs : List β}
    (h : List.Forall₂ related as bs) {b : β} (hb : b ∈ bs) :
  ∃ a ∈ as, related a b
  := by
  induction h with
  | nil => cases hb
  | cons hhead _ ih =>
      obtain rfl | hb := List.mem_cons.mp hb
      · exact ⟨_, List.mem_cons_self, hhead⟩
      · obtain ⟨a, ha, hrelated⟩ := ih hb
        exact ⟨a, List.mem_cons_of_mem _ ha, hrelated⟩

/-- The tenants are read as they are spelled. -/
theorem tenants_iff {doc : Toml} (hstruct : doc.IsStruct true configFields)
    {ts : List TenantConfig} :
  doc.Field configFields "tenants" (Toml.IsArray fun w t => t.Spelled w) [] ts
    ↔ ∃ ts', doc.Field configFields "tenants"
          (Toml.IsArray fun w t => TenantConfig.deserialize w = .ok t) [] ts'
      ∧ List.Forall₂ TenantConfig.Alike ts' ts
  := by
  apply Toml.Field.upTo hstruct (by decide)
  · intro w ts
    have hitems : ∀ {items}, List.Forall₂ (fun w t => TenantConfig.Spelled w t) items ts
        ↔ ∃ ts', List.Forall₂ (fun w t => TenantConfig.deserialize w = .ok t) items ts'
          ∧ List.Forall₂ TenantConfig.Alike ts' ts := by
      intro items
      apply forall₂_upTo
      intro w t
      rw [TenantConfig.spelled_reads]
    simp only [Toml.IsArray, hitems]
    constructor
    · rintro ⟨items, rfl, ts', hts', hsame⟩
      exact ⟨ts', ⟨items, rfl, hts'⟩, hsame⟩
    · rintro ⟨ts', ⟨items, rfl, hts'⟩, hsame⟩
      exact ⟨items, rfl, ts', hts', hsame⟩
  · intro ts
    rw [List.forall₂_nil_left_iff]

/-- What a document spells is read. -/
theorem Config.deserialize_of_spelled {doc : Toml} {c : Config} (h : c.Spelled isSocketAddr doc) :
  ∃ c', Config.deserialize isSocketAddr doc = .ok c' ∧ c'.Alike c
  := by
  obtain ⟨hstruct, hbind, htenants, hengine, hregistry, hhttp⟩ := h
  obtain ⟨ts, hts, hsame⟩ := (tenants_iff hstruct).mp htenants
  use { c with tenants := ts }
  constructor
  · rw [deserialize_ok]
    exact ⟨hstruct, hbind, hts, hengine, hregistry, hhttp⟩
  · exact ⟨rfl, hsame, rfl, rfl, rfl⟩

/-- What is read is spelled. -/
theorem Config.spelled_of_deserialize {doc : Toml} {c c' : Config}
    (h : Config.deserialize isSocketAddr doc = .ok c') (hsame : c'.Alike c) :
  c.Spelled isSocketAddr doc
  := by
  obtain ⟨hstruct, hbind, htenants, hengine, hregistry, hhttp⟩ := deserialize_ok.mp h
  constructor
  · apply hstruct
  · rw [← hsame.bind]
    apply hbind
  · apply (tenants_iff hstruct).mpr ⟨c'.tenants, htenants, hsame.tenants⟩
  · rw [← hsame.engine]
    apply hengine
  · rw [← hsame.registry]
    apply hregistry
  · rw [← hsame.http]
    apply hhttp

/-- A document is read as a configuration exactly when it spells it: no field is given twice, no
unknown key is given where these are denied, every value that is given for a field means what
the field is, and a field for which nothing is given is its default. -/
theorem Config.spelled_iff {doc : Toml} {c : Config} :
  c.Spelled isSocketAddr doc
    ↔ ∃ c', Config.deserialize isSocketAddr doc = .ok c' ∧ c'.Alike c
  := by
  constructor
  · apply deserialize_of_spelled
  · rintro ⟨c', hc', hsame⟩
    apply spelled_of_deserialize hc' hsame

end Config

end Ember
