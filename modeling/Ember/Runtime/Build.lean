import Ember.Library.Roster
import Ember.Runtime.Reload

/-!
# Building a runtime

`Runtime.build` assembles a runtime from a validated configuration: the engine, the linker, the
default egress bridge, the registry client, and then the configured tenants, one after the
other.  The first error ends it.

The tenants are kept in a map by id, and the id of a tenant is made of its name only.
`Config.validate` looks at each tenant on its own and never compares two of them, so tenants of
one name pass it, and the later of them replaces the earlier one in the map
(`build_registers_iff`).
-/

namespace Ember

variable {κ : Type} (C : Crates κ)

/-- What building a runtime meets outside the process. -/
structure BuildEnv where
  /-- `Engine::new`. -/
  engine : Except String Unit
  /-- `build_linker`. -/
  linker : Except String Unit
  /-- Building the client of the default egress bridge. -/
  client : Except String Unit
  /-- `std::fs::create_dir_all` on the cache directory. -/
  cache : Except String Unit
  /-- What loading the tenant at each position meets. -/
  load : ℕ → LoadEnv

namespace Runtime

/-- The loop of `build` over the tenants. -/
def loadTenants (rt : Runtime κ) (load : ℕ → LoadEnv) :
    List TenantConfig → Except Error (Runtime κ)
  | [] => .ok rt
  | cfg :: rest =>
      match rt.loadTenant C (load 0) cfg with
      | (_, .error e) => .error e
      | (rt, .ok ()) => loadTenants rt (fun i => load (i + 1)) rest

/-- Assemble a runtime from a validated configuration. -/
def build (config : Config) (env : BuildEnv) : Except Error (Runtime κ) :=
  match env.engine with
  | .error e => .error (.wasm e)
  | .ok () =>
      match env.linker with
      | .error e => .error (.wasm e)
      | .ok () =>
          match HttpBridge.new env.client {} config.http.maxBodyBytes with
          | .error e => .error e
          | .ok _ =>
              match env.cache with
              | .error e => .error (.io e)
              | .ok () =>
                  let interval := config.registry.pullInterval
                  let registry : OciClientConfig :=
                    { endpoint := config.registry.endpoint
                      insecure := config.registry.insecure
                      cacheDir := config.registry.cacheDir
                      manifestCacheTtl := interval }
                  loadTenants C (.new registry { pollInterval := interval }) env.load config.tenants

/-- The tenant registered under the name of `cfg` has the source, the limits and the
configuration map of `cfg`. -/
def Registers (rt : Runtime κ) (cfg : TenantConfig) : Prop :=
  ∃ id tenant, TenantId.new cfg.name = .ok id
    ∧ rt.tenant id = some tenant
    ∧ tenant.source = cfg.component
    ∧ tenant.sandbox.limits = cfg.limits
    ∧ tenant.sandbox.config = cfg.config

end Runtime

/-! ### Loading a list of tenants -/

/-- A tenant is made from a configuration. -/
structure Tenant.Configured (cfg : TenantConfig) (t : Tenant κ) : Prop where
  id : TenantId.new cfg.name = .ok t.id
  source : t.source = cfg.component
  limits : t.sandbox.limits = cfg.limits
  config : t.sandbox.config = cfg.config

/-- An activated tenant is made from its configuration. -/
theorem Tenant.activate_configured {registry : OciClientConfig} {env : LoadEnv}
    {cfg : TenantConfig} {t : Tenant κ} (h : Tenant.activate C registry env cfg = .ok t) :
  t.Configured cfg
  := by
  obtain ⟨id, sandbox, bridge, loaded, compiled, hid, hsandbox, -, -, -, -, rfl⟩ :=
    (activate_ok C).mp h
  obtain ⟨-, rfl⟩ := Sandbox.new_ok.mp hsandbox
  constructor
  · apply hid
  · rfl
  · rfl
  · rfl

namespace Runtime

/-- Loading a tenant activates it and inserts it at its id. -/
theorem loadTenant_ok {rt rt' : Runtime κ} {env : LoadEnv} {cfg : TenantConfig}
    (h : rt.loadTenant C env cfg = (rt', .ok ())) :
  ∃ t : Tenant κ, t.Configured cfg ∧ rt'.tenants = rt.tenants.insert t.id t
  := by
  rw [loadTenant] at h
  split at h
  · cases h
  next t hactivate =>
    use t, Tenant.activate_configured C hactivate
    rw [← (Prod.mk.inj h).1]

/-- Loading the tenants of a list inserts a tenant made from each of them, in order. -/
theorem loadTenants_ok {rt rt' : Runtime κ} {load : ℕ → LoadEnv} {cfgs : List TenantConfig}
    (h : loadTenants C rt load cfgs = .ok rt') :
  ∃ ts : List (Tenant κ), List.Forall₂ Tenant.Configured cfgs ts
    ∧ rt'.tenants = AList.insertAll Tenant.id rt.tenants ts
  := by
  induction cfgs generalizing rt load with
  | nil =>
      obtain rfl := Except.ok.inj h
      use [], List.Forall₂.nil
      rfl
  | cons cfg cfgs ih =>
      rw [loadTenants] at h
      split at h
      · cases h
      next rt₁ hload =>
        obtain ⟨t, hcfg, hinsert⟩ := loadTenant_ok C hload
        obtain ⟨ts, hcfgs, htenants⟩ := ih h
        use t :: ts, List.Forall₂.cons hcfg hcfgs
        rw [htenants, hinsert]
        rfl

/-- A built runtime holds a tenant made from each entry of its configuration, inserted in the
order of the configuration. -/
theorem build_ok {config : Config} {env : BuildEnv} {rt : Runtime κ}
    (h : build C config env = .ok rt) :
  ∃ ts : List (Tenant κ), List.Forall₂ Tenant.Configured config.tenants ts
    ∧ rt.tenants = AList.insertAll Tenant.id ∅ ts
  := by
  rw [build] at h
  split at h
  · cases h
  split at h
  · cases h
  split at h
  · cases h
  split at h
  · cases h
  apply loadTenants_ok C h

end Runtime

/-! ### Tenants of one name -/

/-- Tenants have the names of the entries they are made from. -/
theorem Tenant.Configured.names {cfgs : List TenantConfig} {ts : List (Tenant κ)}
    (h : List.Forall₂ Tenant.Configured cfgs ts) :
  cfgs.map TenantConfig.name = (ts.map Tenant.id).map TenantId.name
  := by
  induction h with
  | nil => rfl
  | cons hcfg hcfgs ih =>
      rw [List.map_cons, List.map_cons, List.map_cons, ← ih, TenantId.new_ok.mp hcfg.id]

/-- Every entry has a tenant made from it. -/
theorem Tenant.Configured.exists_mem {cfgs : List TenantConfig} {ts : List (Tenant κ)}
    (h : List.Forall₂ Tenant.Configured cfgs ts) {cfg : TenantConfig} (hmem : cfg ∈ cfgs) :
  ∃ t ∈ ts, t.Configured cfg
  := by
  induction h with
  | nil => cases hmem
  | cons hcfg hcfgs ih =>
      obtain rfl | hmem := List.mem_cons.mp hmem
      · exact ⟨_, List.mem_cons_self, hcfg⟩
      · obtain ⟨t, ht, htc⟩ := ih hmem
        exact ⟨t, List.mem_cons_of_mem _ ht, htc⟩

/-- Validation keeps the names of the tenants. -/
theorem Config.validate_names {config config' : Config} (h : config.validate = .ok config') :
  config'.tenants.map TenantConfig.name = config.tenants.map TenantConfig.name
  := by
  rw [validate] at h
  split at h
  · cases h
  split at h
  · cases h
  split at h
  · cases h
  obtain rfl := Except.ok.inj h
  simp [EngineConfig.clampTenants]

/-- A validated configuration that builds keeps all its tenants exactly when no two of them have
one name. -/
theorem build_registers_iff {config config' : Config} {env : BuildEnv} {rt : Runtime κ}
    (hvalidate : config.validate = .ok config') (hbuild : Runtime.build C config' env = .ok rt) :
  (rt.tenantCount = config'.tenants.length ∧ ∀ cfg ∈ config'.tenants, rt.Registers cfg)
    ↔ (config.tenants.map TenantConfig.name).Nodup
  := by
  obtain ⟨ts, hts, htenants⟩ := Runtime.build_ok C hbuild
  have hcount : rt.tenantCount = (AList.insertAll Tenant.id ∅ ts).keys.length := by
    rw [Runtime.tenantCount, htenants, AList.keys, List.keys, List.length_map]
  have hnames : (config.tenants.map TenantConfig.name).Nodup ↔ (ts.map Tenant.id).Nodup := by
    rw [← Config.validate_names hvalidate, Tenant.Configured.names hts]
    apply List.nodup_map_iff
    apply TenantId.ext
  rw [hnames, hcount, hts.length_eq, AList.length_insertAll_iff]
  constructor
  · rintro ⟨hnodup, -⟩
    apply hnodup
  · intro hnodup
    use hnodup
    intro cfg hcfg
    obtain ⟨t, ht, htc⟩ := Tenant.Configured.exists_mem hts hcfg
    use t.id, t, htc.id
    constructor
    · rw [Runtime.tenant, htenants]
      apply AList.lookup_insertAll_of_nodup Tenant.id hnodup ht
    · exact ⟨htc.source, htc.limits, htc.config⟩

/-- Building on a host where every local file holds `handlerComponent`. -/
def fileBuildEnv : BuildEnv where
  engine := .ok ()
  linker := .ok ()
  client := .ok ()
  cache := .ok ()
  load _ := { sampleLoadEnv with read := fun _ => .ok handlerComponent }

/-- A configuration with one tenant for each name and path. -/
def filesConfig (files : List (String × String)) : Config where
  tenants := files.map fun (name, path) => { name, component := .file path }

/-- The configuration that validation leaves. -/
def clampedFiles (files : List (String × String)) : Config :=
  { filesConfig files with tenants := ({} : EngineConfig).clampTenants (filesConfig files).tenants }

/-- Two tenants of different names are both registered. -/
theorem build_registers_two :
  ∃ rt, (filesConfig [("echo", "echo.wasm"), ("other", "other.wasm")]).validate
      = .ok (clampedFiles [("echo", "echo.wasm"), ("other", "other.wasm")])
    ∧ Runtime.build sampleCrates
        (clampedFiles [("echo", "echo.wasm"), ("other", "other.wasm")]) fileBuildEnv = .ok rt
    ∧ rt.tenantCount = 2
  := by
  have hvalidate : (filesConfig [("echo", "echo.wasm"), ("other", "other.wasm")]).validate
      = .ok (clampedFiles [("echo", "echo.wasm"), ("other", "other.wasm")]) := by
    rfl
  have hbuild : (Runtime.build sampleCrates
      (clampedFiles [("echo", "echo.wasm"), ("other", "other.wasm")])
      fileBuildEnv).toOption.isSome = true := by
    decide +kernel
  obtain ⟨rt, hsome⟩ := Option.isSome_iff_exists.mp hbuild
  have hrt := Except.toOption_eq_some.mp hsome
  use rt, hvalidate, hrt
  apply ((build_registers_iff sampleCrates hvalidate hrt).mpr (by decide)).1

/-- Of two tenants named `echo` only the second is registered. -/
theorem build_registers_shared :
  ∃ rt, (filesConfig [("echo", "first.wasm"), ("echo", "second.wasm")]).validate
      = .ok (clampedFiles [("echo", "first.wasm"), ("echo", "second.wasm")])
    ∧ Runtime.build sampleCrates
        (clampedFiles [("echo", "first.wasm"), ("echo", "second.wasm")]) fileBuildEnv = .ok rt
    ∧ rt.tenantCount = 1
    ∧ (clampedFiles [("echo", "first.wasm"), ("echo", "second.wasm")]).tenants.length = 2
    ∧ (rt.tenant echoId).map (·.source) = some (.file "second.wasm")
  := by
  have hbuild : ((Runtime.build sampleCrates
      (clampedFiles [("echo", "first.wasm"), ("echo", "second.wasm")]) fileBuildEnv).toOption.map
        fun rt => (rt.tenantCount, (rt.tenant echoId).map (·.source)))
      = some (1, some (.file "second.wasm")) := by
    decide +kernel
  obtain ⟨rt, hrt, hview⟩ := Option.map_eq_some_iff.mp hbuild
  obtain ⟨hcount, hsource⟩ := Prod.mk.inj hview
  use rt, rfl
  constructor
  · apply Except.toOption_eq_some.mp hrt
  · exact ⟨hcount, rfl, hsource⟩

end Ember
