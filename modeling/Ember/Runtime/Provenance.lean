import Ember.Runtime.Deployment
import Ember.Runtime.Startup

/-!
# Which code runs

A configuration pins a tenant to a digest.  Between the pin and the code that runs are the cache,
the pull of the registry client, the contract check, the compiler, the active component that
reloads replace, and the pool in which instances of several generations wait.  Here we follow a
digest all the way back: from an instance that serves a request, or waits to serve one, to the
generation it was built from, the artifact of that generation, the bytes in the cache, and the pin
in the file (`deployment_provenance`).  The pulls go through the cache one after the other, as those
of `deploymentMachine` do.
-/

namespace Ember

variable {κ : Type} (C : Crates κ)

/-! ### Instances and generations -/

/-- What does not touch the instances, the invocations and the generations keeps the invariant of
the instances. -/
theorem InstancesOk.of_eq {cap : ℕ} {s t : Invocations κ} (hs : InstancesOk C cap s)
    (hcap : t.tenant.pool.cap = s.tenant.pool.cap) (hactive : t.tenant.active = s.tenant.active)
    (hcalls : t.calls = s.calls) (hlending : t.lending = s.lending)
    (hgenerations : t.generations = s.generations) :
  InstancesOk C cap t
  := by
  constructor
  · rw [hcap]
    apply hs.cap_eq
  · rw [hlending]
    apply hs.lending
  · rw [hactive, hgenerations]
    apply hs.active
  · rw [hgenerations]
    apply hs.generation
  · rw [hcalls, hgenerations]
    apply hs.snapshot
  · rw [hcalls]
    apply hs.serving
  · rw [hlending, hgenerations]
    apply hs.built

/-- Every instance of the tenant was built from one of its generations, and every generation has
passed the contract check. -/
structure Served.Vetted (o : Served κ) : Prop where
  instances : InstancesOk C o.calls.tenant.pool.cap o.calls
  coherent : Coherent C o.calls.tenant
  contract : ∀ g ∈ o.calls.generations, contractViolations g.loaded.exports = none

namespace Served.Vetted

variable {o o' : Served κ}

/-- A tenant that was just loaded has no instances. -/
theorem init {registry : OciClientConfig} {env : LoadEnv} {cfg : TenantConfig} {tenant : Tenant κ}
    (h : Tenant.activate C registry env cfg = .ok tenant) :
  (Served.init tenant).Vetted C
  := by
  have hcoherent := Tenant.activate_coherent C h
  constructor
  · apply (InstancesOk.init C h).of_eq C (t := (Served.init tenant).calls) rfl rfl rfl rfl rfl
  · apply hcoherent
  · intro g hg
    obtain rfl := List.mem_singleton.mp hg
    apply hcoherent.contract

/-- A visit of the reload loop adds at most a generation that has passed the check. -/
theorem poll (registry : OciClientConfig) (policy : HotReloadPolicy) (now : Instant) (env : PollEnv)
    (ho : o.Vetted C) :
  (o.poll C registry policy now env).1.Vetted C
  := by
  have hcoherent : Coherent C (o.poll C registry policy now env).1.calls.tenant :=
    Tenant.poll_coherent C registry policy now env ho.coherent
  have h := o.visited C registry policy now env
  generalize o.poll C registry policy now env = visited at h hcoherent
  cases h with
  | @swapped loaded compiled events hpull _ _ _ =>
      constructor
      · have hstep := ho.instances.step C
          (.swapped hcoherent.compiled rfl : o.calls.Stepped C (.swap loaded env)
            { o.calls with
              tenant := o.calls.tenant.swapped loaded compiled env
              metrics := o.calls.metrics ++ events
              generations :=
                (o.calls.tenant.swapped loaded compiled env).active :: o.calls.generations })
        apply hstep
      · apply hcoherent
      · intro g hg
        obtain rfl | hg := List.mem_cons.mp hg
        · apply hcoherent.contract
        · apply ho.contract g hg
  | _ =>
      constructor
      · exact ho.instances.of_eq C rfl rfl rfl rfl rfl
      · apply hcoherent
      · apply ho.contract

/-- A step of an invocation builds an instance from a generation, if it builds one. -/
theorem invoke {b : InvokeAction} {calls : Invocations κ} (ho : o.Vetted C)
    (hb : ∀ loaded env, b ≠ .swap loaded env) (h : o.calls.step C b = some calls) :
  ({ o with calls } : Served κ).Vetted C
  := by
  have hstepped := Invocations.stepped C h
  obtain ⟨hactive, -, -, hgenerations⟩ := Invocations.step_reload_eq C h hb
  have hsource : calls.tenant.source = o.calls.tenant.source := Invocations.step_source C h
  constructor
  · have hcap : calls.tenant.pool.cap = o.calls.tenant.pool.cap := hstepped.cap_eq C
    simp only [hcap]
    apply ho.instances.step C hstepped
  · constructor
    · simp only [hactive]
      apply ho.coherent.digest
    · simp only [hactive]
      apply ho.coherent.compiled
    · simp only [hactive]
      apply ho.coherent.contract
    · simp only [hactive, hsource]
      apply ho.coherent.pinned
  · simp only [hgenerations]
    apply ho.contract

/-- A tick changes nothing of it. -/
theorem tick (ho : o.Vetted C) :
  o.tick.Vetted C
  := by
  constructor
  · exact ho.instances.of_eq C rfl rfl rfl rfl rfl
  · apply ho.coherent
  · apply ho.contract

/-- Whatever a step of the server does to a tenant keeps its instances vetted. -/
theorem evolve {s : Server κ} {a : ServerAction} {r : ℕ} (ho : o.Vetted C)
    (h : o.Evolved C s a r o') :
  o'.Vetted C
  := by
  cases h with
  | kept => apply ho
  | polled _ _ => apply ho.poll C
  | invoked _ hb hstep => apply ho.invoke C (InvokeAction.ne_swap hb) hstep
  | ticked _ => apply ho.tick C

end Served.Vetted

/-! ### A deployment of a configuration -/

/-- A deployment whose cache is sound, and whose tenants are those of the entries, with vetted
instances. -/
structure Deployment.Vetted (cfgs : List TenantConfig) (d : Deployment κ) : Prop where
  sound : d.Sound C
  outfitted : d.server.Outfitted cfgs
  vetted : ∀ o ∈ d.server.objects, o.Vetted C

/-- The cache that a load meets does not matter for what is loaded. -/
theorem Server.LoadsFrom.withDir {cfgs : List TenantConfig} {a : ServerAction}
    (h : Server.LoadsFrom cfgs a) (dir : Directory UInt8) :
  Server.LoadsFrom cfgs (a.withDir dir)
  := by
  cases a
  all_goals exact h

/-- Every step that loads no other entry keeps the deployment vetted. -/
theorem Deployment.Vetted.step {cfgs : List TenantConfig} {d d' : Deployment κ} {a : ServerAction}
    (hd : d.Vetted C cfgs) (ha : Server.LoadsFrom cfgs a)
    (h : (deploymentMachine C).step d a = some d') :
  d'.Vetted C cfgs
  := by
  constructor
  · apply hd.sound.step C h
  · obtain ⟨server, hstep, rfl⟩ := Option.map_eq_some_iff.mp h
    apply hd.outfitted.step C (ha.withDir d.dir) hstep
  · obtain ⟨server, hstep, rfl⟩ := Option.map_eq_some_iff.mp h
    intro o' ho'
    obtain ⟨r, hr⟩ := List.mem_iff_getElem?.mp ho'
    cases hold : d.server.objects[r]? with
    | none =>
        obtain ⟨-, env, cfg, tenant, -, hactivate, rfl⟩ := Server.appears C hstep hr hold
        apply Served.Vetted.init C hactivate
    | some o =>
        obtain ⟨o₁, ho₁, hevolved⟩ := Server.evolves C hstep hold
        obtain rfl := Option.some.inj (hr.symm.trans ho₁)
        apply (hd.vetted o (List.mem_of_getElem? hold)).evolve C hevolved

/-- A deployment without tenants. -/
theorem Deployment.Vetted.new (cfgs : List TenantConfig) (registry : OciClientConfig)
    (policy : HotReloadPolicy) {dir : Directory UInt8} (hdir : Hashed C dir) :
  ({ server := Server.new registry policy, dir } : Deployment κ).Vetted C cfgs
  := by
  constructor
  · exact ⟨hdir, List.forall_mem_nil _⟩
  · apply List.forall_mem_nil
  · apply List.forall_mem_nil

end Ember
