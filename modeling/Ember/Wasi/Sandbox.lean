import Ember.Http.Bridge
import Ember.Runtime.TenantId
import Ember.Wasi.MemFs

/-!
# Sandboxes

The sandbox of a tenant carries its resource limits, its configuration, the host directories
it may read and its scratch filesystem.  All instances of a tenant share one scratch
filesystem: a clone of a sandbox refers to the same one.
-/

namespace Ember

/-- The resource limits of a tenant. -/
structure SandboxLimits where
  maxMemoryBytes : ℕ := 128 * 1024 * 1024
  maxInstances : ℕ := 8
  maxTables : ℕ := 32
  maxEpochDelta : ℕ := 10000000
  maxWallDuration : Duration := .ofSecs 10
  maxBodyBytes : ℕ := 8 * 1024 * 1024
  memfsQuotaBytes : ℕ := 4 * 1024 * 1024
  cpus : ℕ := 1
  egressAllow : List String := []
  defaultDenyEgress : Bool := true
  deriving DecidableEq, Repr

namespace SandboxLimits

/-- Reject limits that contradict themselves before they reach the engine. -/
def validate (l : SandboxLimits) : Except Error Unit :=
  if l.maxMemoryBytes = 0 then .error (.limitExceeded "max_memory_bytes must be > 0")
  else if l.maxWallDuration = 0 then .error (.limitExceeded "max_wall_duration must be > 0")
  else if l.maxInstances = 0 then .error (.limitExceeded "max_instances must be > 0")
  else if l.memfsQuotaBytes = 0 then .error (.limitExceeded "memfs_quota_bytes must be > 0")
  else .ok ()

/-- Clamp the limits of a tenant into the budget of the engine. -/
def clampTo (l : SandboxLimits) (engineMaxMem engineMaxInstances : ℕ) : SandboxLimits :=
  { l with
    maxMemoryBytes := min l.maxMemoryBytes engineMaxMem
    maxInstances := min l.maxInstances engineMaxInstances
    maxEpochDelta := max l.maxEpochDelta 1 }

/-- The egress policy the limits describe. -/
def egressPolicy (l : SandboxLimits) : EgressPolicy where
  allow := l.egressAllow
  defaultDeny := l.defaultDenyEgress

/-- The limits are valid exactly when none of the four ceilings is zero. -/
theorem validate_ok {l : SandboxLimits} :
  l.validate = .ok ()
    ↔ 0 < l.maxMemoryBytes ∧ 0 < l.maxWallDuration ∧ 0 < l.maxInstances ∧ 0 < l.memfsQuotaBytes
  := by
  simp only [Nat.pos_iff_ne_zero]
  rw [validate]
  split
  next h => simp [h]
  split
  next h => simp [h]
  split
  next h => simp [h]
  split
  next h => simp [h]
  simp [*]

end SandboxLimits

/-- The tenant-scoped configuration exposed to the guest. -/
abbrev ConfigMap := AList fun _ : String => String

/-- The sandbox of a tenant. -/
structure Sandbox where
  tenant : TenantId
  limits : SandboxLimits
  config : ConfigMap
  readonlyPreopens : List (String × String) := []
  scratch : MemFs

namespace Sandbox

/-- Construct the sandbox of a tenant. -/
def new (tenant : TenantId) (limits : SandboxLimits) (config : ConfigMap) : Except Error Sandbox :=
  match limits.validate with
  | .error e => .error e
  | .ok () => .ok { tenant, limits, config, scratch := MemFs.new limits.memfsQuotaBytes }

/-- The egress policy of the tenant. -/
def egressPolicy (s : Sandbox) : EgressPolicy := s.limits.egressPolicy

/-- A sandbox is built for valid limits only, with an empty scratch filesystem. -/
theorem new_ok {tenant : TenantId} {limits : SandboxLimits} {config : ConfigMap} {s : Sandbox} :
  new tenant limits config = .ok s
    ↔ limits.validate = .ok ()
      ∧ s = { tenant, limits, config, scratch := MemFs.new limits.memfsQuotaBytes }
  := by
  rw [new]
  cases limits.validate with
  | error e => simp
  | ok _ => simp [eq_comm]

end Sandbox

end Ember
