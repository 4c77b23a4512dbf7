import Ember.Config

/-!
# What validation leaves

`Config::validate` works on the configuration in place.  Here we give it in that form, as the
configuration it leaves together with its result, and show that a configuration that is refused
is left as it was, and that one that is accepted is fit for activation: the limits of every
tenant are within the budget of the engine and still valid, so its id and its sandbox can be
built, and validating again changes nothing.
-/

namespace Ember

/-- `Config::validate`, in place: the configuration it leaves, and its result. -/
def Config.validateInPlace (c : Config) : Config × Except Error Unit :=
  if c.engine.maxMemoryBytes = 0 then
    (c, .error (.config "engine.max_memory_bytes must be > 0"))
  else if c.engine.maxInstances = 0 then
    (c, .error (.config "engine.max_instances must be > 0"))
  else
    match validateTenants c.tenants with
    | .error e => (c, .error e)
    | .ok () => ({ c with tenants := c.engine.clampTenants c.tenants }, .ok ())

namespace Config

/-- The two forms agree: what `validate` returns is the configuration that is left. -/
theorem validate_eq (c : Config) :
  c.validate = c.validateInPlace.2.map fun _ => c.validateInPlace.1
  := by
  rw [validate, validateInPlace]
  split
  · rfl
  split
  · rfl
  cases validateTenants c.tenants
  all_goals rfl

/-- The checks all pass. -/
structure Accepted (c : Config) : Prop where
  memory : 0 < c.engine.maxMemoryBytes
  instances : 0 < c.engine.maxInstances
  tenants : ∀ t ∈ c.tenants, t.validate = .ok ()

end Config

/-- The loop over the tenants succeeds when the checks of each tenant do. -/
theorem validateTenants_ok {ts : List TenantConfig} :
  validateTenants ts = .ok () ↔ ∀ t ∈ ts, t.validate = .ok ()
  := by
  induction ts with
  | nil => simp [validateTenants]
  | cons t ts ih =>
      rw [validateTenants, List.forall_mem_cons]
      cases t.validate with
      | error e => simp
      | ok _ => simp [ih]

namespace Config

/-- Validation succeeds exactly when all checks pass, and then it clamps the tenants. -/
theorem validateInPlace_cases (c : Config) :
  (c.Accepted ∧ c.validateInPlace
      = ({ c with tenants := c.engine.clampTenants c.tenants }, .ok ()))
    ∨ (¬c.Accepted ∧ ∃ e, c.validateInPlace = (c, .error e))
  := by
  by_cases hmemory : c.engine.maxMemoryBytes = 0
  · right
    constructor
    · intro h
      apply h.memory.ne' hmemory
    · exact ⟨_, if_pos hmemory⟩
  by_cases hinstances : c.engine.maxInstances = 0
  · right
    constructor
    · intro h
      apply h.instances.ne' hinstances
    · rw [validateInPlace, if_neg hmemory, if_pos hinstances]
      exact ⟨_, rfl⟩
  rw [validateInPlace, if_neg hmemory, if_neg hinstances]
  cases hloop : validateTenants c.tenants with
  | error e =>
      right
      constructor
      · intro h
        rw [validateTenants_ok.mpr h.tenants] at hloop
        cases hloop
      · exact ⟨e, rfl⟩
  | ok _ =>
      left
      constructor
      · exact ⟨Nat.pos_of_ne_zero hmemory, Nat.pos_of_ne_zero hinstances,
          validateTenants_ok.mp hloop⟩
      · rfl

end Config

/-! ### Clamping -/

namespace SandboxLimits

/-- Clamping into a budget that is not zero keeps limits valid. -/
theorem validate_clampTo {l : SandboxLimits} {mem instances : ℕ} (hmem : 0 < mem)
    (hinstances : 0 < instances) (h : l.validate = .ok ()) :
  (l.clampTo mem instances).validate = .ok ()
  := by
  rw [validate_ok] at h ⊢
  obtain ⟨hmemory, hwall, hcount, hquota⟩ := h
  exact ⟨lt_min hmemory hmem, hwall, lt_min hcount hinstances, hquota⟩

/-- Clamping twice is clamping once. -/
theorem clampTo_clampTo (l : SandboxLimits) (mem instances : ℕ) :
  (l.clampTo mem instances).clampTo mem instances = l.clampTo mem instances
  := by
  simp [clampTo]

end SandboxLimits

namespace TenantConfig

/-- The checks on a tenant look at its limits, and at what clamping does not touch. -/
theorem validate_ok_iff {t : TenantConfig} :
  t.validate = .ok ()
    ↔ t.limits.validate = .ok () ∧ ({ t with limits := {} } : TenantConfig).validate = .ok ()
  := by
  have hdefault : ({} : SandboxLimits).validate = .ok () := rfl
  rw [validate, validate, hdefault]
  cases t.limits.validate with
  | error e => simp
  | ok _ => simp

/-- The limits of `t'` are those of `t` clamped into the budget of the engine, and nothing else
of `t` has changed. -/
structure ClampedTo (engine : EngineConfig) (t t' : TenantConfig) : Prop where
  memory : t'.limits.maxMemoryBytes = min t.limits.maxMemoryBytes engine.maxMemoryBytes
  memory_pos : 1 ≤ t'.limits.maxMemoryBytes
  instances : t'.limits.maxInstances = min t.limits.maxInstances engine.maxInstances
  instances_pos : 1 ≤ t'.limits.maxInstances
  epochDelta : t'.limits.maxEpochDelta = max t.limits.maxEpochDelta 1
  same : t' = { t with limits := { t.limits with
    maxMemoryBytes := t'.limits.maxMemoryBytes
    maxInstances := t'.limits.maxInstances
    maxEpochDelta := t'.limits.maxEpochDelta } }

/-- The id and the sandbox of a tenant can be built, as its activation does. -/
def Activates (t : TenantConfig) : Prop :=
  ∃ id sandbox, TenantId.new t.name = .ok id ∧ Sandbox.new id t.limits t.config = .ok sandbox

/-- A tenant that passes its checks can be activated. -/
theorem activates_of_validate {t : TenantConfig} (h : t.validate = .ok ()) :
  t.Activates
  := by
  have hlimits : t.limits.validate = .ok () := (validate_ok_iff.mp h).1
  rw [validate, hlimits] at h
  cases hid : TenantId.new t.name with
  | error e => simp [hid] at h
  | ok id => exact ⟨id, _, hid, Sandbox.new_ok.mpr ⟨hlimits, rfl⟩⟩

end TenantConfig

namespace Config

variable {c : Config}

/-- A tenant of an accepted configuration still passes its checks after clamping. -/
theorem Accepted.validate_clamped (h : c.Accepted) {t : TenantConfig} (ht : t ∈ c.tenants) :
  ({ t with limits := t.limits.clampTo c.engine.maxMemoryBytes c.engine.maxInstances }
    : TenantConfig).validate = .ok ()
  := by
  obtain ⟨hlimits, hrest⟩ := TenantConfig.validate_ok_iff.mp (h.tenants t ht)
  apply TenantConfig.validate_ok_iff.mpr
  exact ⟨SandboxLimits.validate_clampTo h.memory h.instances hlimits, hrest⟩

/-- The tenants of an accepted configuration are clamped to what the engine provides. -/
theorem Accepted.clampedTo (h : c.Accepted) {t : TenantConfig} (ht : t ∈ c.tenants) :
  TenantConfig.ClampedTo c.engine t
    { t with limits := t.limits.clampTo c.engine.maxMemoryBytes c.engine.maxInstances }
  := by
  have hvalid := (TenantConfig.validate_ok_iff.mp (h.validate_clamped ht)).1
  rw [SandboxLimits.validate_ok] at hvalid
  exact ⟨rfl, hvalid.1, rfl, hvalid.2.2.1, rfl, rfl⟩

/-- A clamped accepted configuration is accepted. -/
theorem Accepted.clampTenants (h : c.Accepted) :
  ({ c with tenants := c.engine.clampTenants c.tenants } : Config).Accepted
  := by
  refine ⟨h.memory, h.instances, ?_⟩
  intro t' ht'
  obtain ⟨t, ht, rfl⟩ := List.mem_map.mp ht'
  apply h.validate_clamped ht

/-- Clamping the tenants twice is clamping them once. -/
theorem clampTenants_clampTenants (engine : EngineConfig) (ts : List TenantConfig) :
  engine.clampTenants (engine.clampTenants ts) = engine.clampTenants ts
  := by
  simp [EngineConfig.clampTenants, SandboxLimits.clampTo_clampTo]

/-- Validation is atomic, sufficient and idempotent.  A configuration that is refused is left as
it was.  When it is accepted, only the limits of the tenants have changed: they are clamped into
the budget of the engine and not zero.  Every tenant can then be activated, and a second
validation succeeds and changes nothing. -/
theorem validateInPlace_atomic (c : Config) :
  (∀ e, c.validateInPlace.2 = .error e → c.validateInPlace.1 = c)
    ∧ (c.validateInPlace.2 = .ok () →
        c.validateInPlace.1 = { c with tenants := c.validateInPlace.1.tenants }
          ∧ List.Forall₂ (TenantConfig.ClampedTo c.engine) c.tenants c.validateInPlace.1.tenants
          ∧ (∀ t ∈ c.validateInPlace.1.tenants, t.Activates)
          ∧ c.validateInPlace.1.validateInPlace = (c.validateInPlace.1, .ok ()))
  := by
  rcases c.validateInPlace_cases with ⟨haccepted, hleft⟩ | ⟨-, e, hleft⟩
  · rw [hleft]
    constructor
    · rintro e ⟨⟩
    · rintro -
      refine ⟨rfl, ?_, ?_, ?_⟩
      · simp only [EngineConfig.clampTenants]
        rw [List.forall₂_map_right_iff, List.forall₂_same]
        intro t ht
        apply haccepted.clampedTo ht
      · intro t ht
        apply TenantConfig.activates_of_validate
        apply haccepted.clampTenants.tenants t ht
      · rcases Config.validateInPlace_cases _ with ⟨-, hagain⟩ | ⟨hrefused, -⟩
        · rw [hagain]
          simp only [clampTenants_clampTenants]
        · exact absurd haccepted.clampTenants hrefused
  · rw [hleft]
    constructor
    · intro e' _
      rfl
    · rintro ⟨⟩

end Config

end Ember
