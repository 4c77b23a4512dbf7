import Ember.Registry.Oci
import Ember.Wasi.Sandbox

/-!
# Runtime configuration

`Config` is what a configuration file gives.  `Config.validate` checks it before the runtime is
built: the budget of the engine, and the limits, the name and the source of each tenant.  It
also clamps the limits of the tenants into the budget of the engine, so it returns the
configuration it leaves.
-/

namespace Ember

/-- Where the component of a tenant comes from. -/
inductive ComponentSource where
  /-- An OCI registry, optionally pinned to a content digest. -/
  | oci (reference : String) (pin : Option String)
  /-- A local file. -/
  | file (path : String)
  deriving DecidableEq, Repr

/-- One tenant, as configured. -/
structure TenantConfig where
  name : String
  component : ComponentSource
  limits : SandboxLimits := {}
  config : ConfigMap := ∅

/-- The budget of the engine, shared by all tenants. -/
structure EngineConfig where
  maxMemoryBytes : ℕ := 1024 * 1024 * 1024
  maxInstances : ℕ := 64
  threads : ℕ := 4
  epochIntervalMs : ℕ := 100
  deriving DecidableEq, Repr

/-- Configuration of the registry client. -/
structure RegistryConfig where
  endpoint : String := "ghcr.io"
  insecure : Bool := false
  pullIntervalSecs : ℕ := 30
  cacheDir : String := "registry-cache"
  deriving DecidableEq, Repr

/-- How often the reload loop re-resolves tags. -/
def RegistryConfig.pullInterval (c : RegistryConfig) : Duration :=
  Duration.ofSecs (max c.pullIntervalSecs 1)

/-- Tuning of the ingress. -/
structure HttpConfig where
  timeoutSecs : ℕ := 30
  concurrency : ℕ := 512
  /-- The largest request body, enforced before dispatch. -/
  maxBodyBytes : ℕ := 8 * 1024 * 1024
  requestIdHeader : String := "x-request-id"
  deriving DecidableEq, Repr

/-- The configuration of the runtime. -/
structure Config where
  /-- The address the ingress binds to, as its text. -/
  bind : String := "127.0.0.1:8080"
  tenants : List TenantConfig := []
  engine : EngineConfig := {}
  registry : RegistryConfig := {}
  http : HttpConfig := {}

/-- Clamp the limits of every tenant into the budget of the engine. -/
def EngineConfig.clampTenants (engine : EngineConfig) (tenants : List TenantConfig) :
    List TenantConfig :=
  tenants.map fun t =>
    { t with limits := t.limits.clampTo engine.maxMemoryBytes engine.maxInstances }

/-- The checks of `Config.validate` on one tenant. -/
def TenantConfig.validate (t : TenantConfig) : Except Error Unit :=
  match t.limits.validate with
  | .error e => .error e
  | .ok () =>
      match TenantId.new t.name with
      | .error e =>
          let cause := e.display
          .error (.config s!"tenant `{t.name}`: {cause}")
      | .ok _ =>
          match t.component with
          | .oci reference pin =>
              if reference = "" then .error (.config s!"tenant `{t.name}`: empty oci reference")
              else
                match pin with
                | none => .ok ()
                | some pin =>
                    match parseDigest pin with
                    | .error e =>
                        let cause := e.display
                        .error (.config s!"tenant `{t.name}`: bad pin: {cause}")
                    | .ok () => .ok ()
          | .file path =>
              if path = "" then .error (.config s!"tenant `{t.name}`: empty file path") else .ok ()

/-- The loop over the tenants: the first that fails its checks is the error. -/
def validateTenants : List TenantConfig → Except Error Unit
  | [] => .ok ()
  | t :: rest =>
      match t.validate with
      | .error e => .error e
      | .ok () => validateTenants rest

/-- Validate the configuration and clamp the limits of the tenants. -/
def Config.validate (c : Config) : Except Error Config :=
  if c.engine.maxMemoryBytes = 0 then .error (.config "engine.max_memory_bytes must be > 0")
  else if c.engine.maxInstances = 0 then .error (.config "engine.max_instances must be > 0")
  else
    match validateTenants c.tenants with
    | .error e => .error e
    | .ok () => .ok { c with tenants := c.engine.clampTenants c.tenants }

end Ember
