import Ember.Config.Load
import Ember.Runtime.Boundary
import Ember.Runtime.Build
import Ember.Runtime.Objects
import Ember.Runtime.Sequential

/-!
# From the configuration to the guests

A configuration is loaded and validated, a runtime is built from it, and the runtime serves
requests and reloads components.  Here we follow what the configuration says of a tenant all the
way: in every state of a server that was started so, every tenant is the one of an entry of the
configuration, and every context a guest is called with, or an idle instance is kept with, was
made for that entry (`started_outfitted`).
-/

namespace Ember

variable {κ : Type} (C : Crates κ)

/-- The bridge has the policy and the body limit of the limits, and the client of every bridge. -/
structure HttpBridge.Enforces (limits : SandboxLimits) (bridge : HttpBridge) : Prop where
  policy : bridge.policy = limits.egressPolicy
  body : bridge.maxBodyBytes = limits.maxBodyBytes
  client : bridge.client = {}

/-- The context was made for the entry `cfg`: what the guest can read and where it can send is
what the entry says, and no directory of the host is open to it. -/
structure HostCtx.MadeFor (cfg : TenantConfig) (ctx : HostCtx) : Prop where
  tenant : TenantId.new cfg.name = .ok ctx.tenant
  limits : ctx.sandbox.limits = cfg.limits
  config : ctx.config = cfg.config
  env : ctx.wasi.env
    = [("EMBER_TENANT", cfg.name), ("EMBER_SCRATCH_QUOTA", toString cfg.limits.memfsQuotaBytes)]
  preopens : ctx.wasi.preopens = []
  egress : ctx.egress.Enforces cfg.limits

/-- The tenant is the one of the entry `cfg`, its idle instances are within the limit, and all
its contexts and deadlines were made for the entry. -/
structure Invocations.Outfitted (cfg : TenantConfig) (s : Invocations κ) : Prop where
  tenant : s.tenant.Configured cfg
  owner : s.tenant.sandbox.tenant = s.tenant.id
  preopens : s.tenant.sandbox.readonlyPreopens = []
  bridge : s.tenant.bridge.Enforces cfg.limits
  cap : s.tenant.pool.cap = max cfg.limits.maxInstances 1
  lending : s.lending.Ok Prepared.id s.tenant.pool.cap
  waiting : ∀ i inv ctx, (s.calls i).ctx = some (inv, ctx) → ctx.MadeFor cfg
  stored : ∀ p, s.lending.Mem p → p.store.data.MadeFor cfg
    ∧ p.store.epochDeadline = p.store.armedAt + max cfg.limits.maxEpochDelta 1

/-- A bridge that is built for some limits enforces them. -/
theorem HttpBridge.new_enforces {client : Except String Unit} {limits : SandboxLimits}
    {bridge : HttpBridge}
    (h : HttpBridge.new client limits.egressPolicy limits.maxBodyBytes = .ok bridge) :
  bridge.Enforces limits
  := by
  cases client with
  | error e => cases h
  | ok _ =>
      obtain rfl := Except.ok.inj h
      exact ⟨rfl, rfl, rfl⟩

/-- No step of the invocations changes the id or the source of a tenant. -/
theorem Invocations.Stepped.identity_eq {s t : Invocations κ} {a : InvokeAction}
    (h : s.Stepped C a t) :
  t.tenant.id = s.tenant.id ∧ t.tenant.source = s.tenant.source
  := by
  cases h with
  | _ => exact ⟨rfl, rfl⟩

namespace Invocations.Outfitted

variable {cfg : TenantConfig} {s t : Invocations κ}

/-- A context that is built for the tenant is made for its entry. -/
theorem new (hs : s.Outfitted cfg) {host : HostDirs} {ctx : HostCtx}
    (h : HostCtx.new host s.tenant.sandbox s.tenant.bridge = .ok ctx) :
  ctx.MadeFor cfg
  := by
  have hname := TenantId.new_ok.mp hs.tenant.id
  rw [HostCtx.new, WasiCtx.new] at h
  split at h
  · cases h
  next wasi hwasi =>
    split at hwasi
    · cases hwasi
    · obtain rfl := Except.ok.inj hwasi
      obtain rfl := Except.ok.inj h
      constructor
      · rw [hs.owner]
        apply hs.tenant.id
      · apply hs.tenant.limits
      · apply hs.tenant.config
      · rw [hs.owner, hs.tenant.limits, hname]
      · apply hs.preopens
      · apply hs.bridge

/-- A tenant that was just activated has no contexts. -/
theorem init {registry : OciClientConfig} {env : LoadEnv} {tenant : Tenant κ}
    (h : Tenant.activate C registry env cfg = .ok tenant) :
  (Served.init tenant).calls.Outfitted cfg
  := by
  have hconfigured := Tenant.activate_configured C h
  obtain ⟨id, sandbox, bridge, loaded, compiled, hid, hsandbox, hbridge, -, -, -, rfl⟩ :=
    (Tenant.activate_ok C).mp h
  obtain ⟨-, rfl⟩ := Sandbox.new_ok.mp hsandbox
  constructor
  · apply hconfigured
  · rfl
  · rfl
  · apply HttpBridge.new_enforces hbridge
  · rfl
  · apply Lending.ok_empty rfl _ rfl
    intro i
    rfl
  · rintro i inv ctx ⟨⟩
  · rintro p (hp | ⟨i, hp⟩)
    · cases hp
    · cases hp

/-- Every step of the invocations keeps the tenant and its contexts: a context is built for the
tenant, and an instance keeps the context it was built with. -/
theorem step (hs : s.Outfitted cfg) {a : InvokeAction} (h : s.Stepped C a t) :
  t.Outfitted cfg
  := by
  obtain ⟨hid, hsource⟩ := h.identity_eq C
  have hbridge := h.bridge_eq C
  have hsandbox := (h.sandbox_eq C).1
  have hcap := h.cap_eq C
  have hwaiting : ∀ i inv ctx, (t.calls i).ctx = some (inv, ctx) → ctx.MadeFor cfg := by
    intro i inv ctx hctx
    obtain heq | hmoved := h.moved C i
    · rw [heq] at hctx
      apply hs.waiting i inv ctx hctx
    · have hold := hs.waiting i
      generalize s.calls i = old at hmoved hold
      generalize t.calls i = new at hmoved hctx
      cases hmoved with
      | entered hnew =>
          obtain ⟨-, rfl⟩ := Prod.mk.inj (Option.some.inj hctx)
          apply hs.new hnew
      | missed inv ctx => apply hold _ _ hctx
      | _ => cases hctx
  constructor
  · constructor
    · rw [hid]
      apply hs.tenant.id
    · rw [hsource]
      apply hs.tenant.source
    · rw [hsandbox]
      apply hs.tenant.limits
    · rw [hsandbox]
      apply hs.tenant.config
  · rw [hsandbox, hid]
    apply hs.owner
  · rw [hsandbox]
    apply hs.preopens
  · rw [hbridge]
    apply hs.bridge
  · rw [hcap]
    apply hs.cap
  · rw [hcap]
    apply (h.lending C).ok hs.lending
  · apply hwaiting
  · intro p hp
    obtain hp | ⟨i, inv, ctx, hcall, rfl⟩ := h.mem C hp
    · apply hs.stored p hp
    · have hctx : ctx.MadeFor cfg := by
        apply hs.waiting i inv ctx
        rw [hcall]
        rfl
      use hctx
      rw [← hctx.limits]
      rfl

/-- The active component, the counts of the reload loop and the scratch files do not matter. -/
theorem of_eq (hs : s.Outfitted cfg) {active : ActiveComponent κ} {lastSwap : Instant}
    {failures : ℕ} {scratch : MemFs}
    (htenant : t.tenant
      = { s.tenant with
          active, lastSwap, failures
          sandbox := { s.tenant.sandbox with scratch } })
    (hcalls : t.calls = s.calls) (hlending : t.lending = s.lending) :
  t.Outfitted cfg
  := by
  constructor
  · rw [htenant]
    exact ⟨hs.tenant.id, hs.tenant.source, hs.tenant.limits, hs.tenant.config⟩
  · rw [htenant]
    apply hs.owner
  · rw [htenant]
    apply hs.preopens
  · rw [htenant]
    apply hs.bridge
  · rw [htenant]
    apply hs.cap
  · rw [hlending, htenant]
    apply hs.lending
  · rw [hcalls]
    apply hs.waiting
  · rw [hlending]
    apply hs.stored

end Invocations.Outfitted

/-- Whatever a step of the server does to a tenant keeps it and its contexts. -/
theorem Served.Evolved.outfitted {s : Server κ} {a : ServerAction} {r : ℕ} {o o' : Served κ}
    (h : o.Evolved C s a r o') {cfg : TenantConfig} (ho : o.calls.Outfitted cfg) :
  o'.calls.Outfitted cfg
  := by
  cases h with
  | kept => apply ho
  | @polled env now rest ha hpass =>
      obtain ⟨_, _, _, heq⟩ := Tenant.poll_frame C s.registry s.policy now env o.calls.tenant
      have htenant : (o.poll C s.registry s.policy now env).1.calls.tenant
          = (o.calls.tenant.poll C s.registry s.policy now env).value := rfl
      rw [heq] at htenant
      apply ho.of_eq htenant
      · rfl
      · rw [Invocations.lending, htenant]
        rfl
  | invoked ha hb hstep => apply ho.step C (Invocations.stepped C hstep)
  | ticked ha =>
      apply ho.of_eq
      · rfl
      · rfl
      · rfl

namespace Server

/-- Every tenant is the one of an entry, and its contexts were made for it. -/
def Outfitted (cfgs : List TenantConfig) (s : Server κ) : Prop :=
  ∀ o ∈ s.objects, ∃ cfg ∈ cfgs, o.calls.Outfitted cfg

/-- When the action loads a tenant, it is one of the entries. -/
def LoadsFrom (cfgs : List TenantConfig) : ServerAction → Prop
  | .load _ cfg => cfg ∈ cfgs
  | _ => True

/-- A step that loads no other entry keeps every tenant and its contexts. -/
theorem Outfitted.step {cfgs : List TenantConfig} {s t : Server κ} {a : ServerAction}
    (hs : s.Outfitted cfgs) (ha : LoadsFrom cfgs a) (h : s.step C a = some t) :
  t.Outfitted cfgs
  := by
  intro o' ho'
  obtain ⟨r, hr⟩ := List.mem_iff_getElem?.mp ho'
  cases hold : s.objects[r]? with
  | none =>
      obtain ⟨-, env, cfg, tenant, rfl, hactivate, rfl⟩ := appears C h hr hold
      exact ⟨cfg, ha, Invocations.Outfitted.init C hactivate⟩
  | some o =>
      obtain ⟨o₁, ho₁, hevolved⟩ := evolves C h hold
      obtain rfl := Option.some.inj (hr.symm.trans ho₁)
      obtain ⟨cfg, hcfg, ho⟩ := hs o (List.mem_of_getElem? hold)
      exact ⟨cfg, hcfg, hevolved.outfitted C ho⟩

/-- A run that loads no other entry keeps every tenant and its contexts. -/
theorem Outfitted.run {cfgs : List TenantConfig} {s t : Server κ} (hs : s.Outfitted cfgs)
    {actions : List ServerAction} (hactions : ∀ a ∈ actions, LoadsFrom cfgs a)
    (hrun : (serverMachine C).run s actions = some t) :
  t.Outfitted cfgs
  := by
  apply (serverMachine C).run_induct _ hs _ hrun
  · exact fun _ a => LoadsFrom cfgs a
  · intro s a t hs ha h
    apply hs.step C ha h
  · apply (serverMachine C).meets_of_forall_mem hactions

end Server

/-! ### Starting -/

/-- The loads of `build`, as steps of the server. -/
def startActions (load : ℕ → LoadEnv) : List TenantConfig → List ServerAction
  | [] => []
  | cfg :: rest => .load (load 0) cfg :: startActions (fun i => load (i + 1)) rest

/-- The loads of `build` read the clock in order, from `start` on. -/
def LoadsClocked (start : Instant) (load : ℕ → LoadEnv) : List TenantConfig → Prop
  | [] => True
  | _ :: rest =>
      start ≤ (load 0).activatedAt ∧ (load 0).activatedAt ≤ (load 0).lastSwap
        ∧ LoadsClocked (load 0).lastSwap (fun i => load (i + 1)) rest

/-- The loads are those of the entries. -/
theorem mem_startActions {cfgs : List TenantConfig} {load : ℕ → LoadEnv} {a : ServerAction}
    (h : a ∈ startActions load cfgs) :
  Server.LoadsFrom cfgs a
  := by
  induction cfgs generalizing load with
  | nil => cases h
  | cons cfg cfgs ih =>
      obtain rfl | h := List.mem_cons.mp h
      · apply List.mem_cons_self
      · have hrest := ih h
        cases a with
        | load env cfg' => apply List.mem_cons_of_mem _ hrest
        | _ => trivial

/-- Loading the tenants of a list on both sides. -/
theorem loadTenants_simulated {cfgs : List TenantConfig} {load : ℕ → LoadEnv} {s : Server κ}
    {rt rt' : Runtime κ} (hs : s.Represents rt) (hidle : s.pass = .idle)
    (hclock : LoadsClocked s.clock load cfgs)
    (h : Runtime.loadTenants C rt load cfgs = .ok rt') :
  ∃ t, (serverMachine C).run s (startActions load cfgs) = some t ∧ t.pass = .idle
    ∧ t.Represents rt'
  := by
  induction cfgs generalizing s rt load with
  | nil =>
      obtain rfl := Except.ok.inj h
      exact ⟨s, rfl, hidle, hs⟩
  | cons cfg cfgs ih =>
      obtain ⟨hactivated, hswap, hrest⟩ := hclock
      rw [Runtime.loadTenants, Runtime.loadTenant] at h
      cases hactivate : Tenant.activate C rt.registry (load 0) cfg with
      | error e => simp [hactivate] at h
      | ok tenant =>
          simp only [hactivate] at h
          rw [← hs.registry] at hactivate
          have hstep : s.step C (.load (load 0) cfg) = some
              { s with
                tenants := s.tenants.insert tenant.id s.objects.length
                objects := s.objects ++ [Served.init tenant]
                clock := (load 0).lastSwap } := by
            simp [Server.step, hactivated, hswap, Server.loadTenant, hactivate]
          obtain ⟨t, hrun, ht⟩ := ih (hs.load tenant (load 0).lastSwap _) hidle hrest h
          use t
          constructor
          · rw [startActions, Machine.run_cons]
            exact ⟨_, hstep, hrun⟩
          · apply ht

/-- What `build` loads its tenants into is an empty runtime. -/
theorem Runtime.build_loads {config : Config} {env : BuildEnv} {rt : Runtime κ}
    (h : Runtime.build C config env = .ok rt) :
  ∃ registry policy,
    Runtime.loadTenants C (Runtime.new registry policy) env.load config.tenants = .ok rt
  := by
  rw [build] at h
  split at h
  · cases h
  split at h
  · cases h
  split at h
  · cases h
  split at h
  · cases h
  exact ⟨_, _, h⟩

/-- A server stands for the runtime that is built from a loaded configuration, and its tenants are
those of the entries, which are clamped from the entries of the file. -/
theorem started_of_load {host : LoadHost} {path : Option String} {config : Config}
    (hload : Config.load host path = .ok config) {env : BuildEnv}
    (hclock : LoadsClocked 0 env.load config.tenants) {rt : Runtime κ}
    (hbuild : Runtime.build C config env = .ok rt) :
  ∃ read s, Config.ReadFrom host path read
    ∧ (serverMachine C).run (Server.new rt.registry rt.policy)
        (startActions env.load config.tenants) = some s
    ∧ s.pass = .idle ∧ s.Represents rt ∧ s.Outfitted config.tenants
    ∧ ∀ cfg ∈ config.tenants, ∃ written ∈ read.tenants, written.ClampedTo config.engine cfg
  := by
  obtain ⟨read, hread, hvalidate⟩ := (Config.load_ok host).mp hload
  have hloaded := (Config.loadedFrom_iff host).mpr hvalidate
  obtain ⟨registry, policy, hloads⟩ := Runtime.build_loads C hbuild
  obtain ⟨s, hrun, hidle, hs⟩ :=
    loadTenants_simulated C (Server.Represents.new registry policy) rfl hclock hloads
  have hnew : (Server.new registry policy : Server κ).Outfitted config.tenants :=
    List.forall_mem_nil _
  have hstarted := hnew.run C (fun a => mem_startActions) hrun
  obtain ⟨hregistry, hpolicy⟩ := Server.run_config C hrun
  rw [← hs.registry, ← hs.policy, hregistry, hpolicy]
  refine ⟨read, s, hread, hrun, hidle, hs, hstarted, ?_⟩
  intro cfg hcfg
  rw [hloaded.engine]
  apply exists_related hloaded.tenants hcfg

/-- Load a configuration, build a runtime from it and serve.  A server stands for the runtime, and
in every state it gets to without further loads, every tenant is the one of an entry of the file,
with the limits of the file clamped into the budget of the engine: at most as many instances as
the engine allows are idle, and every context of a guest was made for the entry. -/
theorem started_outfitted {host : LoadHost} {path : Option String} {config : Config}
    (hload : Config.load host path = .ok config) {env : BuildEnv}
    (hclock : LoadsClocked 0 env.load config.tenants) {rt : Runtime κ}
    (hbuild : Runtime.build C config env = .ok rt) :
  ∃ read s, Config.ReadFrom host path read
    ∧ (serverMachine C).run (Server.new rt.registry rt.policy)
        (startActions env.load config.tenants) = some s
    ∧ s.pass = .idle ∧ s.Represents rt
    ∧ ∀ serving t, (∀ a ∈ serving, ∀ env cfg, a ≠ .load env cfg) →
        (serverMachine C).run s serving = some t →
        ∀ o ∈ t.objects, ∃ written ∈ read.tenants, ∃ cfg,
          written.ClampedTo config.engine cfg ∧ o.calls.Outfitted cfg
            ∧ o.calls.tenant.pool.queue.length ≤ config.engine.maxInstances
  := by
  obtain ⟨read, s, hread, hrun, hidle, hs, hstarted, hwritten⟩ :=
    started_of_load C hload hclock hbuild
  refine ⟨read, s, hread, hrun, hidle, hs, ?_⟩
  intro serving t hserving hrun' o ho
  have hloads : ∀ a ∈ serving, Server.LoadsFrom config.tenants a := by
    intro a ha
    cases a with
    | load env cfg => exact absurd rfl (hserving _ ha env cfg)
    | _ => trivial
  obtain ⟨cfg, hcfg, hoc⟩ := hstarted.run C hloads hrun' o ho
  obtain ⟨written, hmem, hclamped⟩ := hwritten cfg hcfg
  refine ⟨written, hmem, cfg, hclamped, hoc, ?_⟩
  have hcap := hoc.cap
  rw [max_eq_left hclamped.instances_pos, hclamped.instances] at hcap
  calc o.calls.tenant.pool.queue.length
      ≤ o.calls.tenant.pool.cap := hoc.lending.length_le
    _ ≤ config.engine.maxInstances := by
        rw [hcap]
        apply min_le_right

/-- A host with one configuration file, with a tenant that asks for 100 instances, and with an
interval in the environment. -/
def echoHost : LoadHost where
  read _ := .ok ""
  parse _ := .ok (.table
    [("tenants", .array [.table
      [("name", .string "echo"),
        ("component", .table [("kind", .string "file"), ("path", .string "echo.wasm")]),
        ("limits", .table [("max_instances", .integer 100)])]])])
  deError _ := ""
  isSocketAddr _ := true
  var key := if key = "EMBER_PULL_INTERVAL_SECS" then some "60" else none

/-- The loads from files read the clock at zero. -/
theorem loadsClocked_file (cfgs : List TenantConfig) :
  LoadsClocked 0 fileBuildEnv.load cfgs
  := by
  induction cfgs with
  | nil => trivial
  | cons cfg cfgs ih => exact ⟨le_rfl, le_rfl, ih⟩

/-- The tenant `echo` is served with at most as many idle instances as the engine allows. -/
theorem started_outfitted_echo :
  ∃ config rt, ∃ s : Server Bytes, Config.load echoHost (some "ember.toml") = .ok config
    ∧ config.registry.pullIntervalSecs = 60
    ∧ Runtime.build sampleCrates config fileBuildEnv = .ok rt ∧ rt.tenantCount = 1
    ∧ s.Represents rt ∧ ∀ o ∈ s.objects, o.calls.tenant.pool.queue.length ≤ 64
  := by
  have hview : ((Config.load echoHost (some "ember.toml")).toOption.bind fun config =>
      (Runtime.build sampleCrates config fileBuildEnv).toOption.map fun rt =>
        (config.registry.pullIntervalSecs, config.engine.maxInstances, rt.tenantCount))
      = some (60, 64, 1) := by
    decide +kernel
  obtain ⟨config, hconfig, hview⟩ := Option.bind_eq_some_iff.mp hview
  obtain ⟨rt, hrt, hview⟩ := Option.map_eq_some_iff.mp hview
  rw [Except.toOption_eq_some] at hconfig hrt
  obtain ⟨hinterval, hengine, hcount⟩ : config.registry.pullIntervalSecs = 60
      ∧ config.engine.maxInstances = 64 ∧ rt.tenantCount = 1 := by
    simpa using hview
  obtain ⟨read, s, -, -, -, hs, hserved⟩ :=
    started_outfitted sampleCrates hconfig (loadsClocked_file config.tenants) hrt
  refine ⟨config, rt, s, hconfig, hinterval, hrt, hcount, hs, ?_⟩
  intro o ho
  obtain ⟨-, -, -, -, -, hidle⟩ := hserved [] s (List.forall_mem_nil _) rfl o ho
  rw [← hengine]
  apply hidle

end Ember
