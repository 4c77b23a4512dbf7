import Ember.Registry.Cache
import Ember.Runtime.Passes

/-!
# A server and its cache

All pulls of a server go through one cache directory: those of `load_tenant` and those of the
reload loop.  So far a pull met whatever directory it was given; here every pull meets the cache
as the pull before left it.  Pulls do not overlap: a whole pull is one step on the cache.  So it is
in a process that loads all its tenants before the reload loop starts, as `build` does; a
`load_tenant` that runs beside the loop shares the temporary file of its `put` with it.  When the
cache of a server holds only blobs that are what their names say, every generation of every
tenant has the digest it is recorded under, and the cache goes on holding the bytes of all
generations that came from the registry, replaced tenants and replaced generations included
(`deployment_cached`).
-/

namespace Ember

variable {κ : Type} (C : Crates κ)

namespace Tenant

/-- The cache directory after `load_tenant`. -/
def activateDir (registry : OciClientConfig) (env : LoadEnv) (cfg : TenantConfig) :
    Directory UInt8 :=
  match TenantId.new cfg.name with
  | .error _ => env.upstream.dir
  | .ok id =>
      match Sandbox.new id cfg.limits cfg.config with
      | .error _ => env.upstream.dir
      | .ok sandbox =>
          match HttpBridge.new env.client sandbox.egressPolicy cfg.limits.maxBodyBytes with
          | .error _ => env.upstream.dir
          | .ok _ =>
              match cfg.component with
              | .oci reference pin => (Registry.pull C registry env.upstream reference pin).1
              | .file _ => env.upstream.dir

/-- The cache directory after the reload loop has visited the tenant. -/
def pollDir (registry : OciClientConfig) (policy : HotReloadPolicy) (now : Instant) (env : PollEnv)
    (tenant : Tenant κ) : Directory UInt8 :=
  match tenant.source with
  | .file _ => env.upstream.dir
  | .oci reference pin =>
      if now - tenant.lastSwap < policy.debounce then env.upstream.dir
      else (Registry.pull C registry env.upstream reference pin).1

end Tenant

/-- The step, with `dir` for the cache directory that its pull meets. -/
def ServerAction.withDir (dir : Directory UInt8) : ServerAction → ServerAction
  | .load env cfg => .load { env with upstream := { env.upstream with dir } } cfg
  | .poll env => .poll { env with upstream := { env.upstream with dir } }
  | a => a

/-- The cache directory after the step, which meets the cache as `dir`. -/
def Server.dirAfter (s : Server κ) (dir : Directory UInt8) : ServerAction → Directory UInt8
  | .load env cfg => Tenant.activateDir C s.registry env cfg
  | .poll env =>
      match s.pass with
      | .visiting now (r :: _) =>
          match s.objects[r]? with
          | some o => o.calls.tenant.pollDir C s.registry s.policy now env
          | none => dir
      | _ => dir
  | _ => dir

/-- A server, and the cache directory of its registry client. -/
structure Deployment (κ : Type) where
  server : Server κ
  dir : Directory UInt8

/-- The steps of a server, whose pulls all go through its cache and do not overlap: each is made in
one step. -/
def deploymentMachine : Machine (Deployment κ) ServerAction where
  step d a :=
    (d.server.step C (a.withDir d.dir)).map fun server =>
      { server, dir := d.server.dirAfter C d.dir (a.withDir d.dir) }

/-! ### What the steps do to the cache -/

/-- What a step that meets the cache `dir` can leave there: the cache as it was, or what a pull
through it leaves. -/
inductive PulledThrough (dir : Directory UInt8) : Directory UInt8 → Prop
  | same : PulledThrough dir dir
  | pulled (registry : OciClientConfig) (up : Upstream) (reference : String)
      (pin : Option String) (hup : up.dir = dir) :
      PulledThrough dir (Registry.pull C registry up reference pin).1

namespace PulledThrough

variable {dir dir' : Directory UInt8}

/-- The blobs stay what their names say. -/
theorem hashed (h : PulledThrough C dir dir') (hdir : Hashed C dir) :
  Hashed C dir'
  := by
  cases h with
  | same => apply hdir
  | pulled registry up reference pin hup =>
      apply Registry.pull_hashed C
      rw [hup]
      apply hdir

/-- What could be read can be read. -/
theorem get (h : PulledThrough C dir dir') {d : String} {bytes : Bytes}
    (hget : ContentStore.get none dir d = .ok bytes) :
  ContentStore.get none dir' d = .ok bytes
  := by
  cases h with
  | same => apply hget
  | pulled registry up reference pin hup =>
      apply Registry.pull_get C
      rw [hup]
      apply hget

end PulledThrough

namespace Tenant

/-- Loading a tenant pulls at most once. -/
theorem activateDir_through (registry : OciClientConfig) (env : LoadEnv) (cfg : TenantConfig) :
  PulledThrough C env.upstream.dir (activateDir C registry env cfg)
  := by
  rw [activateDir]
  split
  · exact .same
  split
  · exact .same
  split
  · exact .same
  split
  · exact .pulled registry env.upstream _ _ rfl
  · exact .same

/-- The cache after a tenant was loaded from a registry is what its pull left. -/
theorem activateDir_of_activate {registry : OciClientConfig} {env : LoadEnv} {cfg : TenantConfig}
    {tenant : Tenant κ} (h : activate C registry env cfg = .ok tenant) {reference : String}
    {pin : Option String} (hsource : tenant.source = .oci reference pin) :
  (Registry.pull C registry env.upstream reference pin).2 = .ok tenant.active.loaded
    ∧ activateDir C registry env cfg = (Registry.pull C registry env.upstream reference pin).1
  := by
  obtain ⟨id, sandbox, bridge, loaded, compiled, hid, hsandbox, hbridge, hload, -, -, rfl⟩ :=
    (activate_ok C).mp h
  replace hsource : cfg.component = .oci reference pin := hsource
  rw [hsource] at hload
  use hload
  simp only [activateDir, hid, hsandbox, hbridge, hsource]

/-- Visiting a tenant pulls at most once. -/
theorem pollDir_through (registry : OciClientConfig) (policy : HotReloadPolicy) (now : Instant)
    (env : PollEnv) (tenant : Tenant κ) :
  PulledThrough C env.upstream.dir (tenant.pollDir C registry policy now env)
  := by
  rw [pollDir]
  split
  · exact .same
  · split
    · exact .same
    · exact .pulled registry env.upstream _ _ rfl

end Tenant

/-! ### The generations of a tenant are in the cache -/

/-- The generations of the tenant have the digests they are recorded under, and when they came from
the registry, the cache holds them. -/
structure Served.Cached (dir : Directory UInt8) (o : Served κ) : Prop where
  digest : ∀ g ∈ o.calls.generations,
    g.loaded.digest = g.digest ∧ digestOf C g.loaded.bytes = g.digest
  stored : ∀ reference pin, o.calls.tenant.source = .oci reference pin →
    ∀ g ∈ o.calls.generations,
      ContentStore.get none dir g.digest = .ok g.loaded.bytes ∧ ∀ p, pin = some p → g.digest = p

namespace Served.Cached

variable {dir dir' : Directory UInt8} {o o' : Served κ}

/-- A pull leaves the generations in the cache. -/
theorem mono (ho : o.Cached C dir) (h : PulledThrough C dir dir') :
  o.Cached C dir'
  := by
  use ho.digest
  intro reference pin hsource g hg
  obtain ⟨hget, hpin⟩ := ho.stored reference pin hsource g hg
  use h.get C hget

/-- What leaves the generations and the source alone leaves the generations in the cache. -/
theorem of_eq (ho : o.Cached C dir) (hsource : o'.calls.tenant.source = o.calls.tenant.source)
    (hgenerations : o'.calls.generations = o.calls.generations) :
  o'.Cached C dir
  := by
  constructor
  · rw [hgenerations]
    apply ho.digest
  · rw [hsource, hgenerations]
    apply ho.stored

/-- The artifact of a tenant that was just loaded is in the cache. -/
theorem init {registry : OciClientConfig} {env : LoadEnv} {cfg : TenantConfig} {tenant : Tenant κ}
    (hdir : Hashed C env.upstream.dir) (h : Tenant.activate C registry env cfg = .ok tenant) :
  (Served.init tenant).Cached C (Tenant.activateDir C registry env cfg)
  := by
  have hcoherent := Tenant.activate_coherent C h
  constructor
  · intro g hg
    obtain rfl := List.mem_singleton.mp hg
    use hcoherent.digest.symm
    cases hsource : tenant.source with
    | oci reference pin =>
        obtain ⟨hpull, -⟩ := Tenant.activateDir_of_activate C h hsource
        rw [hcoherent.digest]
        apply (Registry.pull_stored C hdir hpull).1
    | file path =>
        obtain ⟨id, sandbox, bridge, loaded, compiled, -, -, -, hload, -, -, rfl⟩ :=
          (Tenant.activate_ok C).mp h
        replace hsource : cfg.component = .file path := hsource
        rw [hsource] at hload
        rw [ComponentSource.load, Loaded.fromPath] at hload
        split at hload
        · cases hload
        · obtain ⟨-, -, hbytes, hdigest, -⟩ := Loaded.fromBytes_ok C hload
          dsimp only
          rw [hbytes, hdigest]
  · intro reference pin hsource g hg
    obtain rfl := List.mem_singleton.mp hg
    obtain ⟨hpull, hdir'⟩ := Tenant.activateDir_of_activate C h hsource
    obtain ⟨-, hpin, hget⟩ := Registry.pull_stored C hdir hpull
    rw [hdir', hcoherent.digest]
    exact ⟨hget, hpin⟩

/-- A visit of the reload loop leaves the generations in the cache, the new one included. -/
theorem poll {registry : OciClientConfig} {policy : HotReloadPolicy} {now : Instant}
    {env : PollEnv} (hdir : Hashed C env.upstream.dir) (ho : o.Cached C env.upstream.dir) :
  (o.poll C registry policy now env).1.Cached C
    (o.calls.tenant.pollDir C registry policy now env)
  := by
  have hkept := ho.mono C (o.calls.tenant.pollDir_through C registry policy now env)
  have h := o.visited C registry policy now env
  generalize o.poll C registry policy now env = visited at h
  cases h with
  | @swapped loaded compiled events hpull _ _ _ =>
      obtain ⟨reference, pin, hsource, hdebounce, hloaded⟩ := hpull
      obtain ⟨hdigest, hpin, hget⟩ := Registry.pull_stored C hdir hloaded
      have hpolled : o.calls.tenant.pollDir C registry policy now env
          = (Registry.pull C registry env.upstream reference pin).1 := by
        simp only [Tenant.pollDir, hsource, if_neg (not_lt.mpr hdebounce)]
      constructor
      · intro g hg
        obtain rfl | hg := List.mem_cons.mp hg
        · exact ⟨rfl, hdigest⟩
        · apply hkept.digest g hg
      · intro reference' pin' hsource' g hg
        obtain ⟨rfl, rfl⟩ := ComponentSource.oci.inj (hsource.symm.trans hsource')
        obtain rfl | hg := List.mem_cons.mp hg
        · rw [hpolled]
          exact ⟨hget, hpin⟩
        · apply hkept.stored reference pin hsource g hg
  | _ =>
      apply hkept.of_eq C
      · rfl
      · rfl

end Served.Cached

/-- No step of an invocation changes where the component comes from. -/
theorem Invocations.step_source {s t : Invocations κ} {a : InvokeAction}
    (h : s.step C a = some t) :
  t.tenant.source = s.tenant.source
  := by
  cases Invocations.stepped C h
  all_goals rfl

/-- The invariant of a deployment: the blobs in the cache are what their names say, and the cache
holds the generations of all tenants. -/
structure Deployment.Sound (d : Deployment κ) : Prop where
  hashed : Hashed C d.dir
  objects : ∀ o ∈ d.server.objects, o.Cached C d.dir

/-- A step that meets the cache pulls through it at most once. -/
theorem Server.dirAfter_through (s : Server κ) (dir : Directory UInt8) (a : ServerAction) :
  PulledThrough C dir (s.dirAfter C dir (a.withDir dir))
  := by
  cases a with
  | load env cfg =>
      exact Tenant.activateDir_through C s.registry
        { env with upstream := { env.upstream with dir } } cfg
  | poll env =>
      rw [ServerAction.withDir, dirAfter]
      split
      · split
        next now r rest _ _ o _ =>
          exact o.calls.tenant.pollDir_through C s.registry s.policy now
            { env with upstream := { env.upstream with dir } }
        · exact .same
      · exact .same
  | _ => exact .same

/-- Every step keeps the invariant. -/
theorem Deployment.Sound.step {d d' : Deployment κ} {a : ServerAction} (hd : d.Sound C)
    (h : (deploymentMachine C).step d a = some d') :
  d'.Sound C
  := by
  obtain ⟨server, hstep, rfl⟩ := Option.map_eq_some_iff.mp h
  have hthrough := d.server.dirAfter_through C d.dir a
  constructor
  · apply hthrough.hashed C hd.hashed
  · apply (Server.stepped C hstep).forall_objects C
      (Q := Served.Cached C (d.server.dirAfter C d.dir (a.withDir d.dir))) hd.objects
    · intro o ho
      apply ho.mono C hthrough
    · intro env cfg tenant ha _ _ _ hactivate
      have hdir : env.upstream.dir = d.dir := by
        cases a with
        | load env' cfg' =>
            obtain ⟨rfl, -⟩ := ServerAction.load.inj ha
            rfl
        | _ => cases ha
      rw [ha, Server.dirAfter]
      apply Served.Cached.init C _ hactivate
      rw [hdir]
      apply hd.hashed
    · intro env now r rest o ha hpass ho _ _ _ hcached
      have hdir : env.upstream.dir = d.dir := by
        cases a with
        | poll env' =>
            obtain rfl := ServerAction.poll.inj ha
            rfl
        | _ => cases ha
      rw [ha, Server.dirAfter]
      simp only [hpass, ho]
      rw [← hdir] at hcached
      apply hcached.poll C
      rw [hdir]
      apply hd.hashed
    · intro o b calls ho hb hcalls
      apply (ho.mono C hthrough).of_eq C
      · apply Invocations.step_source C hcalls
      · apply (Invocations.step_reload_eq C hcalls hb).2.2.2

/-- Take any run of a server whose pulls all go through its cache and do not overlap, from a
cache whose blobs are what their names say, with any answers of the registry and any failing
calls on the file system, other than the look-up whether a layer is present.  The blobs stay what
their names say.  Every generation of every tenant, replaced or not, has the digest it is recorded
under.  And when it came from the registry, it has the digest of the pin, if there is one, and the
cache still holds its bytes. -/
theorem deployment_cached {registry : OciClientConfig} {policy : HotReloadPolicy}
    {dir : Directory UInt8} (hdir : Hashed C dir) {actions : List ServerAction} {d : Deployment κ}
    (hrun : (deploymentMachine C).run { server := Server.new registry policy, dir } actions
      = some d) :
  Hashed C d.dir
    ∧ ∀ o ∈ d.server.objects, ∀ g ∈ o.calls.generations,
        digestOf C g.loaded.bytes = g.digest ∧ g.loaded.digest = g.digest
          ∧ ∀ reference pin, o.calls.tenant.source = .oci reference pin →
              ContentStore.get none d.dir g.digest = .ok g.loaded.bytes
                ∧ ∀ p, pin = some p → g.digest = p
  := by
  have hd : d.Sound C := by
    apply (deploymentMachine C).run_invariant _ _ hrun
    · intro d a d' hd h
      apply hd.step C h
    · constructor
      · apply hdir
      · apply List.forall_mem_nil
  use hd.hashed
  intro o ho g hg
  obtain ⟨hrecorded, hdigest⟩ := (hd.objects o ho).digest g hg
  refine ⟨hdigest, hrecorded, ?_⟩
  intro reference pin hsource
  apply (hd.objects o ho).stored reference pin hsource g hg

/-- The cache starts empty, and `echo` is loaded and then replaced: both artifacts are there. -/
theorem deployment_cached_moved :
  ∃ d o g g', (deploymentMachine movedCrates).run
      { server := Server.new {} {}, dir := Directory.empty } movedRun = some d
    ∧ o ∈ d.server.objects ∧ o.calls.generations = [g, g']
    ∧ ContentStore.get none d.dir g.digest = .ok g.loaded.bytes
    ∧ ContentStore.get none d.dir g'.digest = .ok g'.loaded.bytes
  := by
  have hrun : ((deploymentMachine movedCrates).run
      { server := Server.new {} {}, dir := Directory.empty } movedRun).map (fun d =>
        d.server.objects.map fun o => (o.calls.generations.length, o.calls.tenant.source))
      = some [(2, .oci "ghcr.io/acme/echo:latest" none)] := by
    decide +kernel
  obtain ⟨d, hd, hrun⟩ := Option.map_eq_some_iff.mp hrun
  obtain ⟨o, hobjects, hrun⟩ := List.map_eq_singleton_iff.mp hrun
  obtain ⟨hlength, hsource⟩ := Prod.mk.inj hrun
  obtain ⟨g, g', hgenerations⟩ := List.length_eq_two.mp hlength
  have ho : o ∈ d.server.objects := by
    rw [hobjects]
    apply List.mem_singleton_self
  have hempty : Hashed movedCrates Directory.empty := by
    rintro name content - ⟨⟩
  have hcached : ∀ g ∈ o.calls.generations,
      ContentStore.get none d.dir g.digest = .ok g.loaded.bytes := by
    intro g hg
    obtain ⟨-, -, hstored⟩ := (deployment_cached movedCrates hempty hd).2 o ho g hg
    apply (hstored _ _ hsource).1
  rw [hgenerations] at hcached
  exact ⟨d, o, g, g', hd, ho, hgenerations, hcached g (by simp), hcached g' (by simp)⟩

end Ember
