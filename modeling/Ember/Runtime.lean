import Ember.Config
import Ember.Library.Machine
import Ember.Library.Pass
import Ember.Registry.Oci
import Ember.Runtime.Pool
import Ember.Telemetry

/-!
# The runtime facade

The tenant registry and hot reload.  `loadTenant` registers a tenant with its initial
component, `pollOnce` re-resolves every tenant that comes from a registry and swaps in the
digests that moved.

A hash map has no order of its own, so a reload pass takes the order in which it meets the
tenants.  Everything a call meets outside the process (the answers of the registry, the cache
directory, local files, the readings of the clock) is an argument of it.
-/

namespace Ember

variable {κ : Type} (C : Crates κ)

/-- The component a tenant is running, and its compiled form. -/
structure ActiveComponent (κ : Type) where
  loaded : Loaded
  compiled : κ
  digest : String
  activatedAt : Instant

/-- A registered tenant. -/
structure Tenant (κ : Type) where
  id : TenantId
  sandbox : Sandbox
  bridge : HttpBridge
  source : ComponentSource
  active : ActiveComponent κ
  pool : InstancePool κ
  failures : ℕ
  invocations : ℕ
  lastSwap : Instant

/-- The runtime: the configuration of the registry client, the reload policy, the registered
tenants, and the metric updates emitted so far. -/
structure Runtime (κ : Type) where
  registry : OciClientConfig
  policy : HotReloadPolicy
  tenants : AList fun _ : TenantId => Tenant κ
  metrics : List MetricUpdate

/-- What loading a tenant meets outside the process. -/
structure LoadEnv where
  /-- The outcome of building the egress client. -/
  client : Except String Unit
  upstream : Upstream
  /-- `std::fs::read`. -/
  read : String → Except String Bytes
  activatedAt : Instant
  lastSwap : Instant

/-- What polling a tenant meets outside the process. -/
structure PollEnv where
  upstream : Upstream
  activatedAt : Instant
  lastSwap : Instant

/-- Compile an artifact on the engine of the runtime. -/
def compile (loaded : Loaded) : Except Error κ :=
  match C.fromBinary loaded.bytes with
  | .error e => .error (.wasm e)
  | .ok compiled => .ok compiled

/-- The artifact a source currently gives. -/
def ComponentSource.load (registry : OciClientConfig) (env : LoadEnv) :
    ComponentSource → Except Error Loaded
  | .oci reference pin => (Registry.pull C registry env.upstream reference pin).2
  | .file path => Loaded.fromPath C env.read path

namespace Tenant

/-- Build a tenant and load its initial component. -/
def activate (registry : OciClientConfig) (env : LoadEnv) (cfg : TenantConfig) :
    Except Error (Tenant κ) := do
  let id ← TenantId.new cfg.name
  let sandbox ← Sandbox.new id cfg.limits cfg.config
  let bridge ← HttpBridge.new env.client sandbox.egressPolicy cfg.limits.maxBodyBytes
  let loaded ← cfg.component.load C registry env
  ensureContract loaded
  let compiled ← compile C loaded
  return {
    id
    sandbox
    bridge
    source := cfg.component
    active := { loaded, compiled, digest := loaded.digest, activatedAt := env.activatedAt }
    pool := InstancePool.new cfg.limits.maxInstances
    failures := 0
    invocations := 0
    lastSwap := env.lastSwap }

/-- Swap a tenant to a freshly validated component. -/
def swap (tenant : Tenant κ) (loaded : Loaded) (env : PollEnv) :
    Except Error (Tenant κ × List MetricUpdate) := do
  let compiled ← compile C loaded
  let active : ActiveComponent κ :=
    { loaded, compiled, digest := loaded.digest, activatedAt := env.activatedAt }
  return ({ tenant with active, lastSwap := env.lastSwap, failures := 0 },
    Telemetry.recordReload tenant.id.name (some tenant.active.digest) active.digest)

/-- The body of the reload loop, for one tenant.  An outcome that is an error ends the pass. -/
def poll (registry : OciClientConfig) (policy : HotReloadPolicy) (now : Instant) (env : PollEnv)
    (tenant : Tenant κ) : Visit (Tenant κ) MetricUpdate Error :=
  match tenant.source with
  | .file _ => { value := tenant, events := [], outcome := .ok () }
  | .oci reference pin =>
      -- subtraction of natural numbers saturates, as `saturating_duration_since` does
      if now - tenant.lastSwap < policy.debounce then
        { value := tenant, events := [], outcome := .ok () }
      else
        match (Registry.pull C registry env.upstream reference pin).2 with
        | .ok loaded =>
            match ensureContract loaded with
            | .error e => { value := tenant, events := [], outcome := .error e }
            | .ok () =>
                if policy.shouldReload (some tenant.active.digest) loaded.digest then
                  match tenant.swap C loaded env with
                  | .error e => { value := tenant, events := [], outcome := .error e }
                  | .ok (tenant, events) =>
                      { value := { tenant with failures := 0 }, events, outcome := .ok () }
                else { value := { tenant with failures := 0 }, events := [], outcome := .ok () }
        | .error _ =>
            let failures := tenant.failures + 1
            { value := { tenant with failures }
              events :=
                if policy.exhausted failures then Telemetry.recordParked tenant.id.name failures
                else []
              outcome := .ok () }

end Tenant

namespace Runtime

/-- A runtime without tenants. -/
def new (registry : OciClientConfig) (policy : HotReloadPolicy) : Runtime κ :=
  { registry, policy, tenants := ∅, metrics := [] }

/-- Register one tenant and load its initial component. -/
def loadTenant (rt : Runtime κ) (env : LoadEnv) (cfg : TenantConfig) :
    Runtime κ × Except Error Unit :=
  match Tenant.activate C rt.registry env cfg with
  | .error e => (rt, .error e)
  | .ok tenant =>
      ({ rt with
          tenants := rt.tenants.insert tenant.id tenant
          metrics := rt.metrics ++ Telemetry.recordReload tenant.id.name none tenant.active.digest },
        .ok ())

/-- The tenant with an id. -/
def tenant (rt : Runtime κ) (id : TenantId) : Option (Tenant κ) := rt.tenants.lookup id

/-- The number of registered tenants. -/
def tenantCount (rt : Runtime κ) : ℕ := rt.tenants.entries.length

/-- One reload pass, which meets the tenants in the given order. -/
def pollOnce (rt : Runtime κ) (now : Instant) (order : List TenantId) (env : TenantId → PollEnv) :
    Runtime κ × Except Error Unit :=
  let r := rt.tenants.pass (fun id => Tenant.poll C rt.registry rt.policy now (env id)) order
  ({ rt with tenants := r.value, metrics := rt.metrics ++ r.events }, r.outcome)

end Runtime

/-- The calls on a runtime. -/
inductive RuntimeCall where
  | loadTenant (env : LoadEnv) (cfg : TenantConfig)
  | pollOnce (now : Instant) (order : List TenantId) (env : TenantId → PollEnv)

/-- The calls on a runtime, one after the other.  A reload pass meets every tenant once. -/
def runtimeMachine : Machine (Runtime κ) RuntimeCall where
  step rt
    | .loadTenant env cfg => some (rt.loadTenant C env cfg).1
    | .pollOnce now order env =>
        if order.Perm rt.tenants.keys then some (rt.pollOnce C now order env).1 else none

end Ember
