import Ember.Runtime.Instances

/-!
# A running server

Loads, one reload loop, invocations and the epoch ticker, interleaved.

The tenant map holds references to shared tenants: `load_tenant` registers a new tenant,
possibly in the place of an old one of the same name, while a reload pass and the invocations
go on with the tenants they hold.  So tenants live in a list, and a reference is an index.

A reload pass reads the clock, takes a snapshot of the tenants, and visits them one by one;
between two visits anything may happen elsewhere.  Nothing but the reload loop reads or writes
the failures and the last swap of a tenant, and nothing else writes its active component, so a
visit is one step.  The clock of the server is the last reading of the clock, and no reading is
earlier than the one before.
-/

namespace Ember

variable {κ : Type} (C : Crates κ)

/-- A pull of a tenant by the reload loop: what it came to, and the metric updates of the
visit. -/
structure PullRecord where
  outcome : Except Error Loaded
  events : List MetricUpdate

/-- A tenant with its invocations.  The pulls of the reload loop, the latest first, are kept for
the statements about the runs. -/
structure Served (κ : Type) where
  calls : Invocations κ
  pulls : List PullRecord

/-- Where the reload loop is. -/
inductive ReloadPass where
  | idle
  /-- The pass has read the clock. -/
  | started (now : Instant)
  /-- The pass has yet to visit the tenants `rest`. -/
  | visiting (now : Instant) (rest : List ℕ)
  deriving DecidableEq

/-- The clock as the pass has read it. -/
def ReloadPass.now? : ReloadPass → Option Instant
  | .idle => none
  | .started now | .visiting now _ => some now

/-- The pass after a visit: an error leaves `poll_once`. -/
def ReloadPass.after (now : Instant) (rest : List ℕ) : Except Error Unit → ReloadPass
  | .ok () => .visiting now rest
  | .error _ => .idle

/-- The state of the server. -/
structure Server (κ : Type) where
  registry : OciClientConfig
  policy : HotReloadPolicy
  tenants : AList fun _ : TenantId => ℕ
  objects : List (Served κ)
  pass : ReloadPass
  clock : Instant

/-- The steps of the server. -/
inductive ServerAction where
  /-- A call of `load_tenant` returns. -/
  | load (env : LoadEnv) (cfg : TenantConfig)
  /-- A reload pass reads the clock. -/
  | begin (now : Instant)
  /-- The pass takes its snapshot of the tenants, in some order. -/
  | snapshot (order : List ℕ)
  /-- The pass visits the next tenant. -/
  | poll (env : PollEnv)
  /-- The pass is over. -/
  | finish
  /-- An invocation of the tenant `r` takes a step. -/
  | invoke (r : ℕ) (a : InvokeAction)
  /-- The engine increments its epoch. -/
  | tick

/-- The action is one of an invocation. -/
def InvokeAction.isInvocation : InvokeAction → Bool
  | .tick | .swap _ _ => false
  | _ => true

/-- What the reload loop pulls for the tenant, if it pulls at all. -/
def Tenant.pulled (registry : OciClientConfig) (policy : HotReloadPolicy) (now : Instant)
    (env : PollEnv) (tenant : Tenant κ) : Option (Except Error Loaded) :=
  match tenant.source with
  | .file _ => none
  | .oci reference pin =>
      if now - tenant.lastSwap < policy.debounce then none
      else some (Registry.pull C registry env.upstream reference pin).2

/-- The name of the metric that is updated. -/
def MetricUpdate.name : MetricUpdate → String
  | .histogram name _ _ | .counter name _ _ | .gauge name _ _ => name

/-- The updates record that a tenant switched to a component digest. -/
def reloads (events : List MetricUpdate) : Bool := events.any (·.name = "ember.reload.total")

/-- How often the updates record that a tenant was parked. -/
def parkings (events : List MetricUpdate) : ℕ := events.countP (·.name = "ember.reload.parked")

namespace Served

/-- A tenant that was just loaded. -/
def init (tenant : Tenant κ) : Served κ where
  calls :=
    { Invocations.init tenant with
      metrics := Telemetry.recordReload tenant.id.name none tenant.active.digest }
  pulls := []

/-- The reload loop visits the tenant. -/
def poll (registry : OciClientConfig) (policy : HotReloadPolicy) (now : Instant) (env : PollEnv)
    (o : Served κ) : Served κ × Except Error Unit :=
  let tenant := o.calls.tenant
  let visit := tenant.poll C registry policy now env
  let generations :=
    if reloads visit.events then visit.value.active :: o.calls.generations
    else o.calls.generations
  let pulls :=
    match tenant.pulled C registry policy now env with
    | none => o.pulls
    | some outcome => { outcome, events := visit.events } :: o.pulls
  ({ calls :=
      { o.calls with
        tenant := visit.value
        metrics := o.calls.metrics ++ visit.events
        generations }
     pulls }, visit.outcome)

/-- The engine increments its epoch. -/
def tick (o : Served κ) : Served κ :=
  { o with calls := { o.calls with epoch := o.calls.epoch + 1 } }

end Served

namespace Server

/-- A server without tenants. -/
def new (registry : OciClientConfig) (policy : HotReloadPolicy) : Server κ where
  registry := registry
  policy := policy
  tenants := ∅
  objects := []
  pass := .idle
  clock := 0

/-- Register one tenant and load its initial component. -/
def loadTenant (s : Server κ) (env : LoadEnv) (cfg : TenantConfig) :
    Server κ × Except Error Unit :=
  match Tenant.activate C s.registry env cfg with
  | .error e => (s, .error e)
  | .ok tenant =>
      ({ s with
          tenants := s.tenants.insert tenant.id s.objects.length
          objects := s.objects ++ [Served.init tenant]
          clock := env.lastSwap }, .ok ())

/-- The tenants of the map, without their ids. -/
def snapshotTenants (s : Server κ) : List ℕ := s.tenants.entries.map Sigma.snd

/-- One step. -/
def step (s : Server κ) : ServerAction → Option (Server κ)
  | .load env cfg =>
      if s.clock ≤ env.activatedAt ∧ env.activatedAt ≤ env.lastSwap then
        some (s.loadTenant C env cfg).1
      else none
  | .begin now =>
      match s.pass with
      | .idle => if s.clock ≤ now then some { s with pass := .started now, clock := now } else none
      | _ => none
  | .snapshot order =>
      match s.pass with
      | .started now =>
          if order.Perm s.snapshotTenants then some { s with pass := .visiting now order }
          else none
      | _ => none
  | .poll env =>
      match s.pass with
      | .visiting now (r :: rest) =>
          match s.objects[r]? with
          | none => none
          | some o =>
              if s.clock ≤ env.activatedAt ∧ env.activatedAt ≤ env.lastSwap then
                let visited := o.poll C s.registry s.policy now env
                some
                  { s with
                    objects := s.objects.set r visited.1
                    pass := .after now rest visited.2
                    clock := env.lastSwap }
              else none
      | _ => none
  | .finish =>
      match s.pass with
      | .visiting _ [] => some { s with pass := .idle }
      | _ => none
  | .invoke r a =>
      if a.isInvocation then
        match s.objects[r]? with
        | none => none
        | some o =>
            (o.calls.step C a).map fun calls =>
              { s with objects := s.objects.set r { o with calls } }
      else none
  | .tick => some { s with objects := s.objects.map Served.tick }

end Server

/-- The server as a machine. -/
def serverMachine : Machine (Server κ) ServerAction where
  step := Server.step C

namespace Server

/-! ### What a step can do -/

/-- What the step `a` can do. -/
inductive Stepped (s : Server κ) (a : ServerAction) : Server κ → Prop
  | unloaded {env : LoadEnv} {cfg : TenantConfig} {e : Error} (ha : a = .load env cfg)
      (hactivate : Tenant.activate C s.registry env cfg = .error e) : Stepped s a s
  | loaded {env : LoadEnv} {cfg : TenantConfig} {tenant : Tenant κ} (ha : a = .load env cfg)
      (hclock : s.clock ≤ env.activatedAt) (hswap : env.activatedAt ≤ env.lastSwap)
      (hactivate : Tenant.activate C s.registry env cfg = .ok tenant) :
      Stepped s a
        { s with
          tenants := s.tenants.insert tenant.id s.objects.length
          objects := s.objects ++ [Served.init tenant]
          clock := env.lastSwap }
  | begun {now : Instant} (hpass : s.pass = .idle) (hnow : s.clock ≤ now) :
      Stepped s a { s with pass := .started now, clock := now }
  | snapshotted {now : Instant} {order : List ℕ} (hpass : s.pass = .started now)
      (horder : order.Perm s.snapshotTenants) :
      Stepped s a { s with pass := .visiting now order }
  | polled {env : PollEnv} {now : Instant} {r : ℕ} {rest : List ℕ} {o : Served κ}
      (ha : a = .poll env) (hpass : s.pass = .visiting now (r :: rest))
      (ho : s.objects[r]? = some o) (hclock : s.clock ≤ env.activatedAt)
      (hswap : env.activatedAt ≤ env.lastSwap) :
      Stepped s a
        { s with
          objects := s.objects.set r (o.poll C s.registry s.policy now env).1
          pass := .after now rest (o.poll C s.registry s.policy now env).2
          clock := env.lastSwap }
  | finished {now : Instant} (hpass : s.pass = .visiting now []) :
      Stepped s a { s with pass := .idle }
  | invoked {r : ℕ} {b : InvokeAction} {o : Served κ} {calls : Invocations κ}
      (hb : b.isInvocation = true) (ho : s.objects[r]? = some o)
      (hstep : o.calls.step C b = some calls) :
      Stepped s a { s with objects := s.objects.set r { o with calls } }
  | ticked : Stepped s a { s with objects := s.objects.map Served.tick }

/-- Every step does one of these. -/
theorem stepped {s t : Server κ} {a : ServerAction} (h : s.step C a = some t) :
  s.Stepped C a t
  := by
  cases a with
  | load env cfg =>
      rw [step] at h
      split at h
      next hclock =>
        obtain rfl := Option.some.inj h
        rw [loadTenant]
        split
        next e hactivate => exact .unloaded rfl hactivate
        next tenant hactivate => exact .loaded rfl hclock.1 hclock.2 hactivate
      · cases h
  | begin now =>
      rw [step] at h
      split at h
      next hpass =>
        split at h
        next hnow =>
          obtain rfl := Option.some.inj h
          exact .begun hpass hnow
        · cases h
      · cases h
  | snapshot order =>
      rw [step] at h
      split at h
      next now hpass =>
        split at h
        next horder =>
          obtain rfl := Option.some.inj h
          exact .snapshotted hpass horder
        · cases h
      · cases h
  | poll env =>
      rw [step] at h
      split at h
      next now r rest hpass =>
        split at h
        · cases h
        next o ho =>
          split at h
          next hclock =>
            obtain rfl := Option.some.inj h
            exact .polled rfl hpass ho hclock.1 hclock.2
          · cases h
      · cases h
  | finish =>
      rw [step] at h
      split at h
      next now hpass =>
        obtain rfl := Option.some.inj h
        exact .finished hpass
      · cases h
  | invoke r b =>
      rw [step] at h
      split at h
      next hb =>
        split at h
        · cases h
        next o ho =>
          obtain ⟨calls, hstep, rfl⟩ := Option.map_eq_some_iff.mp h
          exact .invoked hb ho hstep
      · cases h
  | tick =>
      obtain rfl := Option.some.inj h
      exact .ticked

/-- No step changes the configuration of the registry and the policy. -/
theorem Stepped.config_eq {s t : Server κ} {a : ServerAction} (h : s.Stepped C a t) :
  t.registry = s.registry ∧ t.policy = s.policy
  := by
  cases h
  all_goals exact ⟨rfl, rfl⟩

/-- A run does not change the configuration of the registry and the policy. -/
theorem run_config {s t : Server κ} {actions : List ServerAction}
    (hrun : (serverMachine C).run s actions = some t) :
  t.registry = s.registry ∧ t.policy = s.policy
  := by
  apply (serverMachine C).run_invariant
    (I := fun t => t.registry = s.registry ∧ t.policy = s.policy) _ ⟨rfl, rfl⟩ hrun
  rintro r a t ⟨hregistry, hpolicy⟩ h
  obtain ⟨hregistry', hpolicy'⟩ := (stepped C h).config_eq C
  exact ⟨hregistry'.trans hregistry, hpolicy'.trans hpolicy⟩

/-- A visit changes the tenant it is about and the pass, and nothing else. -/
theorem step_poll {s t : Server κ} {env : PollEnv} {now : Instant} {r : ℕ} {rest : List ℕ}
    {o : Served κ} (hpass : s.pass = .visiting now (r :: rest)) (ho : s.objects[r]? = some o)
    (h : s.step C (.poll env) = some t) :
  t.objects[r]? = some (o.poll C s.registry s.policy now env).1
    ∧ (∀ r', r' ≠ r → t.objects[r']? = s.objects[r']?) ∧ t.tenants = s.tenants
    ∧ t.pass = .after now rest (o.poll C s.registry s.policy now env).2
  := by
  simp only [step, hpass, ho] at h
  split at h
  · obtain rfl := Option.some.inj h
    have hr : r < s.objects.length := (List.getElem?_eq_some_iff.mp ho).1
    refine ⟨?_, ?_, rfl, rfl⟩
    · apply List.getElem?_set_self hr
    · intro r' hne
      apply List.getElem?_set_ne hne.symm
  · cases h

/-- The clock never goes back, and a pass in progress has read it before. -/
theorem Stepped.clock {s t : Server κ} {a : ServerAction} (h : s.Stepped C a t)
    (hs : ∀ now ∈ s.pass.now?, now ≤ s.clock) :
  s.clock ≤ t.clock ∧ ∀ now ∈ t.pass.now?, now ≤ t.clock
  := by
  cases h with
  | unloaded _ _ => exact ⟨le_rfl, hs⟩
  | loaded _ hclock hswap _ =>
      have hle := hclock.trans hswap
      exact ⟨hle, fun now hnow => (hs now hnow).trans hle⟩
  | begun _ hnow =>
      use hnow
      rintro now' ⟨⟩
      apply le_rfl
  | snapshotted hpass _ =>
      rw [hpass] at hs
      exact ⟨le_rfl, hs⟩
  | @polled env now r rest o _ hpass _ hclock hswap =>
      have hle := hclock.trans hswap
      use hle
      rw [hpass] at hs
      cases (o.poll C s.registry s.policy now env).2 with
      | ok _ =>
          intro now' hnow'
          apply (hs now' hnow').trans hle
      | error e => rintro now' ⟨⟩
  | finished _ =>
      use le_rfl
      rintro now' ⟨⟩
  | invoked _ _ _ => exact ⟨le_rfl, hs⟩
  | ticked => exact ⟨le_rfl, hs⟩

/-- To show something of all tenants after a step, show it of a tenant that was just loaded, and
that it is kept by a visit of the reload loop, by the steps of the invocations and by waiting. -/
theorem Stepped.forall_objects {s t : Server κ} {a : ServerAction} (h : s.Stepped C a t)
    {P Q : Served κ → Prop} (hs : ∀ o ∈ s.objects, P o) (hkeep : ∀ o, P o → Q o)
    (hload : ∀ env cfg tenant, a = .load env cfg → s.clock ≤ env.activatedAt →
      env.activatedAt ≤ env.lastSwap → t.clock = env.lastSwap →
      Tenant.activate C s.registry env cfg = .ok tenant → Q (Served.init tenant))
    (hpoll : ∀ env now r rest o, a = .poll env → s.pass = .visiting now (r :: rest) →
      s.objects[r]? = some o → s.clock ≤ env.activatedAt → env.activatedAt ≤ env.lastSwap →
      t.clock = env.lastSwap → P o → Q (o.poll C s.registry s.policy now env).1)
    (hinvoke : ∀ o b calls, P o → (∀ loaded env, b ≠ .swap loaded env) →
      o.calls.step C b = some calls → Q { o with calls }) :
  ∀ o ∈ t.objects, Q o
  := by
  have hset : ∀ {r : ℕ} {new : Served κ}, Q new → ∀ o ∈ s.objects.set r new, Q o := by
    intro r new hnew o ho
    obtain hmem | rfl := List.mem_or_eq_of_mem_set ho
    · apply hkeep o (hs o hmem)
    · apply hnew
  have hold : ∀ o ∈ s.objects, Q o := by
    intro o ho
    apply hkeep o (hs o ho)
  cases h with
  | unloaded _ _ => apply hold
  | begun _ _ => apply hold
  | snapshotted _ _ => apply hold
  | finished _ => apply hold
  | loaded ha hclock hswap hactivate =>
      intro o ho
      obtain ho | ho := List.mem_append.mp ho
      · apply hold o ho
      · obtain rfl := List.mem_singleton.mp ho
        apply hload _ _ _ ha hclock hswap rfl hactivate
  | polled ha hpass ho hclock hswap =>
      apply hset
      apply hpoll _ _ _ _ _ ha hpass ho hclock hswap rfl (hs _ (List.mem_of_getElem? ho))
  | invoked hb ho hstep =>
      apply hset
      apply hinvoke _ _ _ (hs _ (List.mem_of_getElem? ho)) _ hstep
      rintro loaded env rfl
      cases hb
  | ticked =>
      intro o' ho'
      obtain ⟨o, ho, rfl⟩ := List.mem_map.mp ho'
      apply hinvoke o .tick _ (hs o ho) _ rfl
      rintro loaded env ⟨⟩

end Server

/-! ### What a visit can do -/

/-- What the reload loop pulls, if it does. -/
theorem Tenant.pulled_eq_some {registry : OciClientConfig} {policy : HotReloadPolicy}
    {now : Instant} {env : PollEnv} {t : Tenant κ} {outcome : Except Error Loaded} :
  t.pulled C registry policy now env = some outcome ↔ t.Pulls C registry policy now env outcome
  := by
  rw [pulled, Pulls]
  cases t.source with
  | file path => simp
  | oci reference pin => simp

namespace Served

/-- What a visit of the reload loop can come to. -/
inductive Visited (registry : OciClientConfig) (policy : HotReloadPolicy) (now : Instant)
    (env : PollEnv) (o : Served κ) : Served κ × Except Error Unit → Prop
  /-- The tenant is not pulled. -/
  | skipped (h : ∀ outcome, ¬o.calls.tenant.Pulls C registry policy now env outcome) :
      Visited registry policy now env o (o, .ok ())
  /-- What was pulled ends the pass. -/
  | ended {loaded : Loaded} {e : Error}
      (hpull : o.calls.tenant.Pulls C registry policy now env (.ok loaded))
      (hends : o.calls.tenant.EndsPass C registry policy now env) :
      Visited registry policy now env o
        ({ o with pulls := { outcome := .ok loaded, events := [] } :: o.pulls }, .error e)
  /-- What was pulled replaces the active component. -/
  | swapped {loaded : Loaded} {compiled : κ} {events : List MetricUpdate}
      (hpull : o.calls.tenant.Pulls C registry policy now env (.ok loaded))
      (hends : ¬o.calls.tenant.EndsPass C registry policy now env)
      (hdigest : o.calls.tenant.active.digest ≠ loaded.digest)
      (hevents : parkings events = 0) :
      Visited registry policy now env o
        ({ calls :=
            { o.calls with
              tenant := o.calls.tenant.swapped loaded compiled env
              metrics := o.calls.metrics ++ events
              generations :=
                (o.calls.tenant.swapped loaded compiled env).active :: o.calls.generations }
           pulls := { outcome := .ok loaded, events } :: o.pulls }, .ok ())
  /-- The digest has not moved. -/
  | same {loaded : Loaded} (hpull : o.calls.tenant.Pulls C registry policy now env (.ok loaded))
      (hends : ¬o.calls.tenant.EndsPass C registry policy now env)
      (hdigest : o.calls.tenant.active.digest = loaded.digest) :
      Visited registry policy now env o
        ({ calls := { o.calls with tenant := { o.calls.tenant with failures := 0 } }
           pulls := { outcome := .ok loaded, events := [] } :: o.pulls }, .ok ())
  /-- The pull fails. -/
  | failed {e : Error} {events : List MetricUpdate}
      (hpull : o.calls.tenant.Pulls C registry policy now env (.error e))
      (hevents : parkings events
        = if policy.exhausted (o.calls.tenant.failures + 1) then 1 else 0) :
      Visited registry policy now env o
        ({ calls :=
            { o.calls with
              tenant := { o.calls.tenant with failures := o.calls.tenant.failures + 1 }
              metrics := o.calls.metrics ++ events }
           pulls := { outcome := .error e, events } :: o.pulls }, .ok ())

/-- Every visit comes to one of these. -/
theorem visited (registry : OciClientConfig) (policy : HotReloadPolicy) (now : Instant)
    (env : PollEnv) (o : Served κ) :
  Visited C registry policy now env o (o.poll C registry policy now env)
  := by
  have hends : (o.calls.tenant.poll C registry policy now env).outcome = .ok ()
      ↔ ¬o.calls.tenant.EndsPass C registry policy now env := Tenant.poll_ok_iff C
  have h := Tenant.polled C registry policy now env o.calls.tenant
  rw [poll]
  generalize o.calls.tenant.poll C registry policy now env = r at h hends
  cases h with
  | skipped hskip =>
      have hnone : o.calls.tenant.pulled C registry policy now env = none := by
        apply Option.eq_none_iff_forall_ne_some.mpr
        intro outcome houtcome
        apply hskip outcome ((Tenant.pulled_eq_some C).mp houtcome)
      simp only [hnone, reloads, List.any_nil, List.append_nil]
      exact .skipped hskip
  | refused hpull _ =>
      simp only [(Tenant.pulled_eq_some C).mpr hpull, reloads, List.any_nil, List.append_nil]
      apply Visited.ended hpull
      simpa using hends
  | uncompiled hpull _ _ _ =>
      simp only [(Tenant.pulled_eq_some C).mpr hpull, reloads, List.any_nil, List.append_nil]
      apply Visited.ended hpull
      simpa using hends
  | same hpull _ hdigest =>
      simp only [(Tenant.pulled_eq_some C).mpr hpull, reloads, List.any_nil, List.append_nil]
      exact .same hpull (hends.mp rfl) hdigest
  | swapped hpull _ hdigest _ =>
      simp only [(Tenant.pulled_eq_some C).mpr hpull]
      exact .swapped hpull (hends.mp rfl) hdigest rfl
  | failed hpull =>
      simp only [(Tenant.pulled_eq_some C).mpr hpull]
      by_cases hexhausted : policy.exhausted (o.calls.tenant.failures + 1) = true
      · rw [if_pos hexhausted]
        apply Visited.failed hpull
        rw [if_pos hexhausted]
        rfl
      · rw [if_neg hexhausted]
        apply Visited.failed hpull
        rw [if_neg hexhausted]
        rfl

end Served

end Ember
