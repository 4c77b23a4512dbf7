import Ember.Runtime.Invoke

/-!
# Which instance serves which invocation

The pool of a tenant and the instances its invocations hold form a lending pool: every step
of the invocations is a step of it, or nothing happens to it (`Stepped.lending`).  So no
instance serves two invocations at once, and none comes back after it was dropped.  Together
with what the steps do to digests and generations this gives `invoke_instances`.
-/

namespace Ember

variable {κ : Type} (C : Crates κ)

/-- An error is no response. -/
theorem InvokeOutcome.failed_ne (e : Error) (r : HttpResponse) :
  InvokeOutcome.failed e ≠ .response r
  := by
  rintro ⟨⟩

/-- A cancellation is no response. -/
theorem InvokeOutcome.cancelled_ne (r : HttpResponse) :
  InvokeOutcome.cancelled ≠ .response r
  := by
  rintro ⟨⟩

namespace Invocations

/-! ### What a step can do -/

/-- What the step `a` can do. -/
inductive Stepped (s : Invocations κ) (a : InvokeAction) : Invocations κ → Prop
  | ticked (ha : a = .tick) : Stepped s a { s with epoch := s.epoch + 1 }
  | unswapped {loaded : Loaded} {env : PollEnv} (ha : a = .swap loaded env) : Stepped s a s
  | swapped {loaded : Loaded} {compiled : κ} {env : PollEnv} {events : List MetricUpdate}
      (hcompile : C.fromBinary loaded.bytes = .ok compiled) (ha : a = .swap loaded env) :
      Stepped s a
        { s with
          tenant := s.tenant.swapped loaded compiled env
          metrics := s.metrics ++ events
          generations := (s.tenant.swapped loaded compiled env).active :: s.generations }
  | loaded {i : ℕ} {request : HttpRequest} (hcall : s.calls i = .idle)
      (ha : a = .load i request) :
      Stepped s a (s.set i (.loaded s.tenant.active request))
  | entered {i : ℕ} {active : ActiveComponent κ} {raw : HttpRequest} {request : Request}
      {host : HostDirs} {ctx : HostCtx} (hcall : s.calls i = .loaded active raw)
      (hctx : HostCtx.new host s.tenant.sandbox s.tenant.bridge = .ok ctx)
      (hrequest : Request.tryFrom raw = .ok request) (ha : a = .enter i host) :
      Stepped s a (s.set i (.waiting { active, request, entered := s.epoch } ctx))
  /-- The invocation ends before it holds an instance or the mutex. -/
  | ended {i : ℕ} {outcome : InvokeOutcome} (hcall : (s.calls i).held = none)
      (hlocks : (s.calls i).locks = false) (houtcome : ∀ r, outcome ≠ .response r) :
      Stepped s a (s.set i (.finished outcome))
  | took {i : ℕ} {inv : Invocation κ} {ctx : HostCtx} {p : Prepared κ}
      {queue : List (Prepared κ)} (ha : a = .lock i) (hcall : s.calls i = .waiting inv ctx)
      (hscan : InstancePool.scan inv.active.loaded.digest s.tenant.pool.queue = (some p, queue))
      (hmutex : s.mutex = none) :
      Stepped s a ((s.setQueue queue).set i (.calling inv p))
  | missed {i : ℕ} {inv : Invocation κ} {ctx : HostCtx} {queue : List (Prepared κ)}
      (hcall : s.calls i = .waiting inv ctx)
      (hscan : InstancePool.scan inv.active.loaded.digest s.tenant.pool.queue = (none, queue))
      (ha : a = .lock i) (hmutex : s.mutex = none) :
      Stepped s a (((s.setQueue queue).setMutex (some i)).set i (.building inv ctx))
  | armed {i : ℕ} {inv : Invocation κ} {ctx : HostCtx} (hcall : s.calls i = .building inv ctx)
      (ha : a = .arm i) :
      Stepped s a
        ({ s with nextInstance := s.nextInstance + 1 }.set i
          (.instantiating inv (s.fresh inv ctx)))
  | started {i : ℕ} {inv : Invocation κ} {p : Prepared κ}
      (hcall : s.calls i = .instantiating inv p) (ha : a = .instantiated i (.ok ())) :
      Stepped s a ((s.setMutex none).set i (.calling inv p))
  | answered {i : ℕ} {inv : Invocation κ} {p : Prepared κ} {resp : Response}
      (hcall : s.calls i = .calling inv p) (ha : a = .answered i (.response resp)) :
      Stepped s a (s.set i (.releasing inv p resp))
  /-- The invocation ends and drops the instance it holds, and the mutex if it holds it. -/
  | dropped {i : ℕ} {inv : Invocation κ} {p : Prepared κ} (mutex : Option ℕ)
      {outcome : InvokeOutcome} (hcall : (s.calls i).serving = some (inv, p))
      (hmutex : mutex = if (s.calls i).locks then none else s.mutex)
      (houtcome : ∀ r, outcome ≠ .response r) :
      Stepped s a (((s.setMutex mutex).retire p).set i (.finished outcome))
  | panicked {i : ℕ} {inv : Invocation κ} {p : Prepared κ} {resp : Response} {panic : Panic}
      (hcall : s.calls i = .releasing inv p resp) (hmutex : s.mutex = none) :
      Stepped s a ((s.release p).set i (.finished (.panicked panic)))
  | returned {i : ℕ} {inv : Invocation κ} {p : Prepared κ} {resp : Response}
      {elapsed : Duration} {r : HttpResponse} (hcall : s.calls i = .releasing inv p resp)
      (hmutex : s.mutex = none) (hresp : resp.toHttp = .ok r) (ha : a = .release i elapsed) :
      Stepped s a (((s.release p).record inv elapsed r.status).set i (.finished (.response r)))

/-- Every step does one of these. -/
theorem stepped {s t : Invocations κ} {a : InvokeAction} (h : s.step C a = some t) :
  s.Stepped C a t
  := by
  cases a with
  | tick =>
      obtain rfl := Option.some.inj h
      exact .ticked rfl
  | swap loaded env =>
      rw [step, Tenant.swap] at h
      cases hcompile : C.fromBinary loaded.bytes with
      | error e =>
          simp only [compile, hcompile] at h
          obtain rfl := Option.some.inj h
          exact .unswapped rfl
      | ok compiled =>
          simp only [compile, hcompile] at h
          obtain rfl := Option.some.inj h
          exact .swapped hcompile rfl
  | load i request =>
      rw [step] at h
      split at h
      next hcall =>
        obtain rfl := Option.some.inj h
        exact .loaded hcall rfl
      · cases h
  | enter i host =>
      rw [step] at h
      split at h
      next active raw hcall =>
        have hheld : (s.calls i).held = none := congrArg Phase.held hcall
        have hlocks : (s.calls i).locks = false := congrArg Phase.locks hcall
        split at h
        · obtain rfl := Option.some.inj h
          exact .ended hheld hlocks (InvokeOutcome.failed_ne _)
        next request hrequest =>
          split at h
          · obtain rfl := Option.some.inj h
            exact .ended hheld hlocks (InvokeOutcome.failed_ne _)
          next ctx hctx =>
            obtain rfl := Option.some.inj h
            exact .entered hcall hctx hrequest rfl
      · cases h
  | lock i =>
      rw [step] at h
      split at h
      next inv ctx hcall hmutex =>
        split at h
        next p queue hscan =>
          obtain rfl := Option.some.inj h
          exact .took rfl hcall hscan hmutex
        next queue hscan =>
          obtain rfl := Option.some.inj h
          exact .missed hcall hscan rfl hmutex
      · cases h
  | arm i =>
      rw [step] at h
      split at h
      next inv ctx hcall =>
        obtain rfl := Option.some.inj h
        exact .armed hcall rfl
      · cases h
  | instantiated i outcome =>
      rw [step] at h
      split at h
      next inv p hcall =>
        split at h
        · obtain rfl := Option.some.inj h
          exact .started hcall rfl
        · obtain rfl := Option.some.inj h
          exact .dropped none (congrArg Phase.serving hcall) (by simp [hcall, Phase.locks])
            (InvokeOutcome.failed_ne _)
      · cases h
  | answered i result =>
      rw [step] at h
      split at h
      next inv p hcall =>
        have hmutex : s.mutex = if (s.calls i).locks then none else s.mutex := by
          simp [hcall, Phase.locks]
        split at h
        · obtain rfl := Option.some.inj h
          exact .answered hcall rfl
        · obtain rfl := Option.some.inj h
          exact .dropped s.mutex (congrArg Phase.serving hcall) hmutex
            (InvokeOutcome.failed_ne _)
        · obtain rfl := Option.some.inj h
          exact .dropped s.mutex (congrArg Phase.serving hcall) hmutex
            (InvokeOutcome.failed_ne _)
      · cases h
  | release i elapsed =>
      rw [step] at h
      split at h
      next inv p resp hcall hmutex =>
        split at h
        · obtain rfl := Option.some.inj h
          exact .panicked hcall hmutex
        next r hresp =>
          obtain rfl := Option.some.inj h
          exact .returned hcall hmutex hresp rfl
      · cases h
  | cancel i =>
      rw [step] at h
      split at h
      next inv ctx hcall =>
        obtain rfl := Option.some.inj h
        exact .ended (congrArg Phase.held hcall) (congrArg Phase.locks hcall)
          InvokeOutcome.cancelled_ne
      next inv p hcall =>
        obtain rfl := Option.some.inj h
        exact .dropped none (congrArg Phase.serving hcall) (by simp [hcall, Phase.locks])
          InvokeOutcome.cancelled_ne
      next inv p hcall =>
        obtain rfl := Option.some.inj h
        exact .dropped s.mutex (congrArg Phase.serving hcall) (by simp [hcall, Phase.locks])
          InvokeOutcome.cancelled_ne
      next inv p resp hcall =>
        obtain rfl := Option.some.inj h
        exact .dropped s.mutex (congrArg Phase.serving hcall) (by simp [hcall, Phase.locks])
          InvokeOutcome.cancelled_ne
      · cases h

/-! ### Instances as lent resources -/

/-- The pool of the tenant with the instances its invocations hold. -/
def lending (s : Invocations κ) : Lending ℕ (Prepared κ) where
  queue := s.tenant.pool.queue
  held i := (s.calls i).held
  next := s.nextInstance
  retired := s.retired

/-- The phases after invocation `i` moved to the phase `phase`. -/
theorem calls_set (s : Invocations κ) (i j : ℕ) (phase : Phase κ) :
  (j = i ∧ (s.set i phase).calls j = phase)
    ∨ (j ≠ i ∧ (s.set i phase).calls j = s.calls j)
  := by
  obtain rfl | hne := eq_or_ne j i
  · left
    use rfl
    apply Function.update_self
  · right
    use hne
    apply Function.update_of_ne hne

/-- How the step `a` can move invocation `j` from one phase to another. -/
inductive Moved (s : Invocations κ) (a : InvokeAction) (j : ℕ) : Phase κ → Phase κ → Prop
  | loaded (request : HttpRequest) : Moved s a j .idle (.loaded s.tenant.active request)
  | entered {active : ActiveComponent κ} {raw : HttpRequest} {request : Request} {host : HostDirs}
      {ctx : HostCtx} (hctx : HostCtx.new host s.tenant.sandbox s.tenant.bridge = .ok ctx) :
      Moved s a j (.loaded active raw) (.waiting { active, request, entered := s.epoch } ctx)
  | took {inv : Invocation κ} {ctx : HostCtx} {p : Prepared κ} {queue : List (Prepared κ)}
      (ha : a = .lock j)
      (hscan : InstancePool.scan inv.active.loaded.digest s.tenant.pool.queue = (some p, queue)) :
      Moved s a j (.waiting inv ctx) (.calling inv p)
  | missed (inv : Invocation κ) (ctx : HostCtx) :
      Moved s a j (.waiting inv ctx) (.building inv ctx)
  | armed (inv : Invocation κ) (ctx : HostCtx) :
      Moved s a j (.building inv ctx) (.instantiating inv (s.fresh inv ctx))
  | started (inv : Invocation κ) (p : Prepared κ) :
      Moved s a j (.instantiating inv p) (.calling inv p)
  | answered (inv : Invocation κ) (p : Prepared κ) (resp : Response) :
      Moved s a j (.calling inv p) (.releasing inv p resp)
  | finished (phase : Phase κ) (outcome : InvokeOutcome) :
      Moved s a j phase (.finished outcome)

/-- A step leaves an invocation in its phase, or moves it on. -/
theorem Stepped.moved {s t : Invocations κ} {a : InvokeAction} (h : s.Stepped C a t) (j : ℕ) :
  t.calls j = s.calls j ∨ s.Moved a j (s.calls j) (t.calls j)
  := by
  have hset : ∀ {r : Invocations κ} {i : ℕ} {phase : Phase κ}, r.calls = s.calls →
      s.Moved a i (s.calls i) phase →
      (r.set i phase).calls j = s.calls j
        ∨ s.Moved a j (s.calls j) ((r.set i phase).calls j) := by
    intro r i phase hr hphase
    obtain ⟨rfl, heq⟩ | ⟨-, heq⟩ := r.calls_set i j phase
    · right
      rw [heq]
      apply hphase
    · left
      rw [heq, hr]
  cases h with
  | ticked ha =>
      left
      rfl
  | unswapped ha =>
      left
      rfl
  | swapped hcompile ha =>
      left
      rfl
  | loaded hcall ha =>
      apply hset rfl
      rw [hcall]
      apply Moved.loaded
  | entered hcall hctx hrequest ha =>
      apply hset rfl
      rw [hcall]
      apply Moved.entered hctx
  | ended hcall hlocks houtcome =>
      apply hset rfl
      apply Moved.finished
  | took ha hcall hscan hmutex =>
      apply hset rfl
      rw [hcall]
      apply Moved.took ha hscan
  | missed hcall hscan ha hmutex =>
      apply hset rfl
      rw [hcall]
      apply Moved.missed
  | armed hcall ha =>
      apply hset rfl
      rw [hcall]
      apply Moved.armed
  | started hcall ha =>
      apply hset rfl
      rw [hcall]
      apply Moved.started
  | answered hcall ha =>
      apply hset rfl
      rw [hcall]
      apply Moved.answered
  | dropped mutex hcall hmutex houtcome =>
      apply hset rfl
      apply Moved.finished
  | panicked hcall hmutex =>
      apply hset rfl
      apply Moved.finished
  | returned hcall hmutex hresp ha =>
      apply hset rfl
      apply Moved.finished

/-- Moving an invocation changes what it holds, and nothing else. -/
theorem lending_set (s : Invocations κ) (i : ℕ) (phase : Phase κ) :
  (s.set i phase).lending
    = { s.lending with held := Function.update s.lending.held i phase.held }
  := by
  have hheld : (fun j => ((s.set i phase).calls j).held)
      = Function.update (fun j => (s.calls j).held) i phase.held := by
    funext j
    apply Function.apply_update (fun _ => Phase.held)
  rw [lending, hheld]
  rfl

/-- Moving an invocation that keeps its instance changes nothing. -/
theorem lending_set_same {s : Invocations κ} {i : ℕ} {old new : Phase κ} (hcall : s.calls i = old)
    (h : old.held = new.held) :
  (s.set i new).lending = s.lending
  := by
  have hheld : Function.update s.lending.held i new.held = s.lending.held := by
    rw [← h, ← hcall]
    apply Function.update_eq_self
  rw [lending_set, hheld]

/-- Moving an invocation that keeps its instance is no step of the lending pool. -/
theorem keep_set {s : Invocations κ} {cap i : ℕ} {old new : Phase κ} (hcall : s.calls i = old)
    (h : old.held = new.held) :
  Lending.Step Prepared.id cap s.lending (s.set i new).lending
  := by
  rw [lending_set_same hcall h]
  exact .keep _

/-- Releasing an instance gives it back when there is room, and drops it otherwise. -/
theorem lending_release (s : Invocations κ) (p : Prepared κ) (i : ℕ) (phase : Phase κ)
    (hphase : phase.held = none) (hheld : (s.calls i).held = some p) :
  Lending.Step Prepared.id s.tenant.pool.cap s.lending ((s.release p).set i phase).lending
  := by
  rw [lending_set, hphase, release, InstancePool.release]
  split
  next hroom => exact .giveBack s.lending i p hheld hroom
  next hfull => exact .drop s.lending i p hheld

/-- No step changes the capacity of the pool. -/
theorem Stepped.cap_eq {s t : Invocations κ} {a : InvokeAction} (h : s.Stepped C a t) :
  t.tenant.pool.cap = s.tenant.pool.cap
  := by
  have hrelease : ∀ p, (s.release p).tenant.pool.cap = s.tenant.pool.cap := by
    intro p
    apply (InstancePool.release_queue s.tenant.pool p).1
  cases h with
  | panicked hcall => apply hrelease
  | returned hcall => apply hrelease
  | _ => rfl

/-- Every step of the invocations is a step of the lending pool. -/
theorem Stepped.lending {s t : Invocations κ} {a : InvokeAction} (h : s.Stepped C a t) :
  Lending.Step Prepared.id s.tenant.pool.cap s.lending t.lending
  := by
  cases h with
  | ticked ha => exact .keep _
  | unswapped => exact .keep _
  | swapped hcompile => exact .keep _
  | loaded hcall =>
      apply keep_set hcall
      rfl
  | entered hcall hctx =>
      apply keep_set hcall
      rfl
  | ended hcall =>
      apply keep_set rfl
      apply hcall
  | @took i inv ctx p queue ha hcall hscan =>
      obtain ⟨-, hsuffix⟩ := InstancePool.scan_some hscan
      rw [lending_set]
      apply Lending.Step.take s.lending i p queue hsuffix
      apply congrArg Phase.held hcall
  | @missed i inv ctx queue hcall hscan =>
      obtain rfl := InstancePool.scan_none hscan
      rw [lending_set_same (s := (s.setQueue []).setMutex (some i)) hcall]
      · exact .drain s.lending
      · rfl
  | @armed i inv ctx hcall =>
      rw [lending_set]
      apply Lending.Step.make s.lending i (s.fresh inv ctx) rfl
      apply congrArg Phase.held hcall
  | started hcall =>
      apply keep_set (s := s.setMutex none) hcall
      rfl
  | answered hcall =>
      apply keep_set hcall
      rfl
  | @dropped i inv p mutex outcome hcall =>
      rw [lending_set]
      apply Lending.Step.drop s.lending i p
      apply congrArg (Option.map Prod.snd) hcall
  | @panicked i inv p resp panic hcall =>
      apply lending_release s p i _ rfl
      apply congrArg Phase.held hcall
  | @returned i inv p resp elapsed r hcall =>
      -- recording the invocation touches neither the pool nor the phases
      apply lending_release s p i (.finished (.response r)) rfl
      apply congrArg Phase.held hcall

/-- No step forgets an instance that was dropped. -/
theorem Stepped.retired_subset {s t : Invocations κ} {a : InvokeAction} (h : s.Stepped C a t) :
  s.retired ⊆ t.retired
  := by
  have hrelease : ∀ p, s.retired ⊆ (s.release p).retired := by
    intro p
    rw [release]
    split
    · apply List.Subset.refl
    · apply List.subset_cons_self
  cases h with
  | panicked hcall => apply hrelease
  | returned hcall => apply hrelease
  | dropped mutex hcall => apply List.subset_cons_self
  | _ => apply List.Subset.refl

/-! ### Snapshots and digests -/

/-- An invocation that works with a snapshot after a step did so before, or has just loaded
the active one. -/
theorem Stepped.snapshot {s t : Invocations κ} {a : InvokeAction} (h : s.Stepped C a t) {j : ℕ}
    {g : ActiveComponent κ} (hg : (t.calls j).snapshot = some g) :
  (s.calls j).snapshot = some g ∨ g = s.tenant.active
  := by
  obtain heq | hmoved := h.moved C j
  · rw [heq] at hg
    left
    apply hg
  · generalize s.calls j = old at hmoved ⊢
    generalize t.calls j = new at hmoved hg
    -- wherever an invocation moves on, it keeps its snapshot
    cases hmoved with
    | loaded request =>
        right
        apply (Option.some.inj hg).symm
    | finished phase outcome => cases hg
    | _ =>
        left
        apply hg

/-- An invocation that holds an instance after a step held it before, or has just taken it
from the queue, or has just built it. -/
theorem Stepped.serving {s t : Invocations κ} {a : InvokeAction} (h : s.Stepped C a t) {j : ℕ}
    {inv : Invocation κ} {p : Prepared κ} (hp : (t.calls j).serving = some (inv, p)) :
  (s.calls j).serving = some (inv, p)
    ∨ (∃ ctx queue, a = .lock j ∧ s.calls j = .waiting inv ctx
        ∧ InstancePool.scan inv.active.loaded.digest s.tenant.pool.queue = (some p, queue))
    ∨ (∃ ctx, s.calls j = .building inv ctx ∧ p = s.fresh inv ctx)
  := by
  obtain heq | hmoved := h.moved C j
  · rw [heq] at hp
    left
    apply hp
  · generalize s.calls j = old at hmoved ⊢
    generalize t.calls j = new at hmoved hp
    cases hmoved with
    | @took inv ctx p queue ha hscan =>
        right; left
        obtain ⟨rfl, rfl⟩ := Prod.mk.inj (Option.some.inj hp)
        use ctx, queue, ha
    | armed inv ctx =>
        right; right
        obtain ⟨rfl, rfl⟩ := Prod.mk.inj (Option.some.inj hp)
        use ctx
    | started inv p =>
        left
        apply hp
    | answered inv p resp =>
        left
        apply hp
    | _ => cases hp

/-- An instance that is queued or held after a step was so before, or has just been built. -/
theorem Stepped.mem {s t : Invocations κ} {a : InvokeAction} (h : s.Stepped C a t)
    {p : Prepared κ} (hp : t.lending.Mem p) :
  s.lending.Mem p ∨ ∃ i inv ctx, s.calls i = .building inv ctx ∧ p = s.fresh inv ctx
  := by
  rcases hp with hp | ⟨i, hp⟩
  · left
    apply (h.lending C).mem_of_mem_queue hp
  · obtain ⟨⟨inv, q⟩, hserving, rfl⟩ := Option.map_eq_some_iff.mp hp
    obtain hsame | ⟨ctx, queue, -, hcall, hscan⟩ | ⟨ctx, hcall, rfl⟩ := h.serving C hserving
    · left; right
      use i
      apply congrArg (Option.map Prod.snd) hsame
    · left; left
      apply (InstancePool.scan_some hscan).2.subset List.mem_cons_self
    · right
      use i, inv, ctx

end Invocations

/-! ### The invariant -/

/-- The invariant of the invocations: the instances are lent properly, every snapshot is a
generation of the tenant, and every instance was built from a generation of its digest. -/
structure InstancesOk (cap : ℕ) (s : Invocations κ) : Prop where
  cap_eq : s.tenant.pool.cap = cap
  lending : s.lending.Ok Prepared.id cap
  active : s.tenant.active ∈ s.generations
  generation : ∀ g ∈ s.generations,
    g.digest = g.loaded.digest ∧ C.fromBinary g.loaded.bytes = .ok g.compiled
  snapshot : ∀ i g, (s.calls i).snapshot = some g → g ∈ s.generations
  serving : ∀ i inv p, (s.calls i).serving = some (inv, p) → p.digest = inv.active.loaded.digest
  built : ∀ p, s.lending.Mem p → ∃ g ∈ s.generations, g.digest = p.digest ∧ g.compiled = p.guest

namespace InstancesOk

/-- A tenant that was just activated satisfies the invariant. -/
theorem init {registry : OciClientConfig} {env : LoadEnv} {cfg : TenantConfig} {tenant : Tenant κ}
    (h : Tenant.activate C registry env cfg = .ok tenant) :
  InstancesOk C tenant.pool.cap (Invocations.init tenant)
  := by
  have hcoherent := Tenant.activate_coherent C h
  obtain ⟨id, sandbox, bridge, loaded, compiled, -, -, -, -, -, -, rfl⟩ :=
    (Tenant.activate_ok C).mp h
  constructor
  · rfl
  · apply Lending.ok_empty rfl _ rfl
    intro i
    rfl
  · apply List.mem_singleton_self
  · intro g hg
    obtain rfl := List.mem_singleton.mp hg
    exact ⟨hcoherent.digest, hcoherent.compiled⟩
  · intro i g hg
    cases hg
  · intro i inv p hp
    cases hp
  · rintro p (hp | ⟨i, hp⟩)
    · cases hp
    · cases hp

variable {cap : ℕ} {s t : Invocations κ} {a : InvokeAction}

/-- What a step does to the generations: nothing, or a swap adds the one it activates. -/
theorem generations_step (h : s.Stepped C a t) :
  (t.generations = s.generations ∧ t.tenant.active = s.tenant.active)
    ∨ ∃ g, t.generations = g :: s.generations ∧ t.tenant.active = g
        ∧ g.digest = g.loaded.digest ∧ C.fromBinary g.loaded.bytes = .ok g.compiled
  := by
  cases h with
  | swapped hcompile => exact .inr ⟨_, rfl, rfl, rfl, hcompile⟩
  | _ => exact .inl ⟨rfl, rfl⟩

/-- No step forgets a generation. -/
theorem generations_subset (h : s.Stepped C a t) :
  s.generations ⊆ t.generations
  := by
  obtain ⟨heq, -⟩ | ⟨g, heq, -⟩ := generations_step C h
  · rw [heq]
    apply List.Subset.refl
  · rw [heq]
    apply List.subset_cons_self

/-- A step keeps what is known of the generations. -/
theorem generation_step (hs : InstancesOk C cap s) (h : s.Stepped C a t) :
  t.tenant.active ∈ t.generations
    ∧ ∀ g ∈ t.generations,
        g.digest = g.loaded.digest ∧ C.fromBinary g.loaded.bytes = .ok g.compiled
  := by
  obtain ⟨heq, hactive⟩ | ⟨new, heq, hactive, hnew⟩ := generations_step C h
  · rw [heq, hactive]
    exact ⟨hs.active, hs.generation⟩
  · rw [heq, hactive]
    constructor
    · apply List.mem_cons_self
    · intro g hg
      rcases List.mem_cons.mp hg with rfl | hg
      · apply hnew
      · apply hs.generation g hg

/-- An instance built for an invocation belongs to the snapshot of the invocation. -/
theorem built_fresh (hs : InstancesOk C cap s) {i : ℕ} {inv : Invocation κ} {ctx : HostCtx}
    (hcall : s.calls i = .building inv ctx) :
  ∃ g ∈ s.generations, g.digest = (s.fresh inv ctx).digest ∧ g.compiled = (s.fresh inv ctx).guest
  := by
  have hmem : inv.active ∈ s.generations := by
    apply hs.snapshot i
    rw [hcall]
    rfl
  exact ⟨inv.active, hmem, (hs.generation _ hmem).1, rfl⟩

/-- A step keeps what is known of the instances. -/
theorem built_step (hs : InstancesOk C cap s) (h : s.Stepped C a t) {p : Prepared κ}
    (hp : t.lending.Mem p) :
  ∃ g ∈ s.generations, g.digest = p.digest ∧ g.compiled = p.guest
  := by
  obtain hp | ⟨i, inv, ctx, hcall, rfl⟩ := h.mem C hp
  · apply hs.built p hp
  · apply hs.built_fresh C hcall

/-- Every step keeps the invariant. -/
theorem step (hs : InstancesOk C cap s) (h : s.Stepped C a t) :
  InstancesOk C cap t
  := by
  have hcap : t.tenant.pool.cap = cap := (h.cap_eq C).trans hs.cap_eq
  obtain ⟨hactive, hgeneration⟩ := hs.generation_step C h
  constructor
  · apply hcap
  · have hlending := h.lending C
    rw [hs.cap_eq] at hlending
    apply hlending.ok hs.lending
  · apply hactive
  · apply hgeneration
  · intro i g hg
    apply generations_subset C h
    obtain hsame | rfl := h.snapshot C hg
    · apply hs.snapshot i g hsame
    · apply hs.active
  · intro i inv p hp
    obtain hsame | ⟨ctx, queue, -, -, hscan⟩ | ⟨ctx, -, rfl⟩ := h.serving C hp
    · apply hs.serving i inv p hsame
    · apply (InstancePool.scan_some hscan).1
    · rfl
  · intro p hp
    obtain ⟨g, hg, hdigest⟩ := hs.built_step C h hp
    exact ⟨g, generations_subset C h hg, hdigest⟩

end InstancesOk

/-- The step ends the guest call of invocation `i` by a trap, by its timeout, or by
cancelling the invocation. -/
def InvokeAction.Fails (i : ℕ) : InvokeAction → Prop
  | .answered j (.trapped _) => j = i
  | .answered j .elapsed => j = i
  | .cancel j => j = i
  | _ => False

/-- An instance whose call fails is retired. -/
theorem Invocations.retired_of_fails {s t : Invocations κ} {a : InvokeAction} {i : ℕ}
    {inv : Invocation κ} {p : Prepared κ} (hcall : s.calls i = .calling inv p) (ha : a.Fails i)
    (h : s.step C a = some t) :
  p.id ∈ t.retired
  := by
  cases a with
  | answered j result =>
      cases result with
      | response resp => cases ha
      | trapped e =>
          obtain rfl : j = i := ha
          rw [step, hcall] at h
          rw [← Option.some.inj h]
          apply List.mem_cons_self
      | elapsed =>
          obtain rfl : j = i := ha
          rw [step, hcall] at h
          rw [← Option.some.inj h]
          apply List.mem_cons_self
  | cancel j =>
      obtain rfl : j = i := ha
      rw [step, hcall] at h
      rw [← Option.some.inj h]
      apply List.mem_cons_self
  | _ => cases ha

/-- For any interleaving of invocations of an activated tenant with swaps and ticks:
the queue of the pool stays within its capacity;
no instance is held by two invocations, nor held and queued;
the instance an invocation calls has the digest of the snapshot that the invocation loaded,
and was instantiated from a component of that digest;
an instance whose call trapped, timed out or was cancelled is never held or queued again. -/
theorem invoke_instances {registry : OciClientConfig} {env : LoadEnv} {cfg : TenantConfig}
    {tenant : Tenant κ} (hactivate : Tenant.activate C registry env cfg = .ok tenant)
    {actions : List InvokeAction} {s : Invocations κ}
    (hrun : (invokeMachine C).run (Invocations.init tenant) actions = some s) :
  s.tenant.pool.queue.length ≤ tenant.pool.cap
    ∧ ((∀ i j p q, (s.calls i).held = some p → (s.calls j).held = some q → p.id = q.id → i = j)
      ∧ ∀ i p q, (s.calls i).held = some p → q ∈ s.tenant.pool.queue → p.id ≠ q.id)
    ∧ (∀ i inv p, s.calls i = .calling inv p →
        p.digest = inv.active.digest
          ∧ ∃ g ∈ s.generations, g.digest = p.digest
              ∧ C.fromBinary g.loaded.bytes = .ok p.guest)
    ∧ ∀ i inv p a more s', s.calls i = .calling inv p → a.Fails i →
        (invokeMachine C).run s (a :: more) = some s' →
        (∀ j q, (s'.calls j).held = some q → q.id ≠ p.id)
          ∧ ∀ q ∈ s'.tenant.pool.queue, q.id ≠ p.id
  := by
  have hok : ∀ {r r' : Invocations κ} {as : List InvokeAction}, InstancesOk C tenant.pool.cap r →
      (invokeMachine C).run r as = some r' → InstancesOk C tenant.pool.cap r' := by
    intro r r' as hr
    apply (invokeMachine C).run_invariant _ hr
    intro r a r' hr h
    apply hr.step C (Invocations.stepped C h)
  have hs := hok (InstancesOk.init C hactivate) hrun
  refine ⟨hs.lending.length_le, ⟨?_, ?_⟩, ?_, ?_⟩
  · intro i j p q hp hq
    apply hs.lending.held_unique hp hq
  · intro i p q hp hq
    apply hs.lending.held_ne_queued hp hq
  · intro i inv p hcall
    have hserving : (s.calls i).serving = some (inv, p) := by
      rw [hcall]
      rfl
    have hsnapshot : inv.active ∈ s.generations := by
      apply hs.snapshot i
      rw [hcall]
      rfl
    constructor
    · rw [hs.serving i inv p hserving, (hs.generation _ hsnapshot).1]
    · obtain ⟨g, hg, hdigest, hguest⟩ :=
        hs.built p (.inr ⟨i, congrArg (Option.map Prod.snd) hserving⟩)
      use g, hg, hdigest
      rw [← hguest]
      apply (hs.generation g hg).2
  · intro i inv p a more s' hcall ha hmore
    have hs' := hok hs hmore
    -- the instance is retired by the failing step, and stays so
    have hretired : p.id ∈ s'.retired := by
      obtain ⟨r, hr, hmore⟩ := (invokeMachine C).run_cons.mp hmore
      apply (invokeMachine C).run_invariant (I := fun r => p.id ∈ r.retired) _ _ hmore
      · intro r a r' hr h
        apply (Invocations.stepped C h).retired_subset C hr
      · apply Invocations.retired_of_fails C hcall ha hr
    constructor
    · intro j q hq
      apply hs'.lending.mem_ne_retired (.inr ⟨j, hq⟩) hretired
    · intro q hq
      apply hs'.lending.mem_ne_retired (.inl hq) hretired

/-! ### A sample tenant -/

/-- The tenant `echo`, from a local file. -/
def fileConfig : TenantConfig where
  name := "echo"
  component := .file "echo.wasm"

/-- Loading `handlerComponent` from a local file. -/
def fileLoadEnv : LoadEnv := { sampleLoadEnv with read := fun _ => .ok handlerComponent }

/-- The artifact in the file. -/
def sampleLoaded : Loaded where
  source := "echo.wasm"
  bytes := handlerComponent
  digest := digestOf sampleCrates handlerComponent
  size := handlerComponent.length
  worldId := none
  exports := ["handler"]

/-- The tenant after activation. -/
def sampleTenant : Tenant Bytes where
  id := echoId
  sandbox :=
    { tenant := echoId, limits := {}, config := ∅, scratch := MemFs.new (4 * 1024 * 1024) }
  bridge :=
    { client := {}, policy := {}, connectTimeout := .ofSecs 3, maxBodyBytes := 8 * 1024 * 1024 }
  source := .file "echo.wasm"
  active :=
    { loaded := sampleLoaded, compiled := handlerComponent, digest := sampleLoaded.digest,
      activatedAt := 0 }
  pool := InstancePool.new 8
  failures := 0
  invocations := 0
  lastSwap := 0

/-- The tenant `echo` with the given limits is activated from the file. -/
theorem activate_file (limits : SandboxLimits) (hlimits : limits.validate = .ok ()) :
  Tenant.activate sampleCrates {} fileLoadEnv { fileConfig with limits }
    = .ok
      { sampleTenant with
        sandbox :=
          { sampleTenant.sandbox with limits, scratch := MemFs.new limits.memfsQuotaBytes }
        bridge :=
          { sampleTenant.bridge with
            policy := limits.egressPolicy, maxBodyBytes := limits.maxBodyBytes }
        pool := InstancePool.new limits.maxInstances }
  := by
  have hload : fileConfig.component.load sampleCrates {} fileLoadEnv = .ok sampleLoaded := by
    decide +kernel
  have hcontract : contractViolations sampleLoaded.exports = none := by
    decide +kernel
  apply (Tenant.activate_ok sampleCrates).mpr
  exact ⟨echoId, _, _, sampleLoaded, handlerComponent, TenantId.new_ok.mpr rfl,
    Sandbox.new_ok.mpr ⟨hlimits, rfl⟩, rfl, hload, hcontract, rfl, rfl⟩

theorem activate_sampleTenant :
  Tenant.activate sampleCrates {} fileLoadEnv fileConfig = .ok sampleTenant
  := activate_file {} rfl

/-- A host without directories. -/
def sampleHost : HostDirs where
  metadata _ := .error "No such file or directory"
  «open» _ := .error "No such file or directory"
  preopenedDir _ := .ok ()

/-- A request for `/echo/`. -/
def sampleInbound : HttpRequest where
  method := .get
  uri := { scheme := none, authority := none, path := "/echo/", query := none }
  headers := ⟨[]⟩
  body := []

/-- Invocation 0 builds an instance, is answered and releases the instance, and after `ticks`
ticks invocation 1 takes the instance from the pool. -/
def warmRun (ticks : ℕ) : List InvokeAction :=
  [.load 0 sampleInbound, .enter 0 sampleHost, .lock 0, .arm 0, .instantiated 0 (.ok ()),
    .answered 0 (.response { status := 200, headers := [], body := [] }), .release 0 0]
    ++ List.replicate ticks .tick
    ++ [.load 1 sampleInbound, .enter 1 sampleHost, .lock 1]

/-- Invocation 1 calls an instance of the digest it loaded. -/
theorem invoke_instances_warm :
  ∃ s inv p, (invokeMachine sampleCrates).run (Invocations.init sampleTenant) (warmRun 0) = some s
    ∧ s.calls 1 = .calling inv p
    ∧ p.id = 0
    ∧ p.digest = inv.active.digest
  := by
  obtain ⟨-, -, hdigest, -⟩ :=
    invoke_instances sampleCrates activate_sampleTenant
      (rfl : (invokeMachine sampleCrates).run (Invocations.init sampleTenant) (warmRun 0) = _)
  exact ⟨_, _, _, rfl, rfl, rfl, (hdigest 1 _ _ rfl).1⟩

end Ember
