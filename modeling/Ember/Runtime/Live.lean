import Ember.Runtime.Budget

/-!
# How many instances are alive

The capacity of a pool bounds its queue.  Nothing bounds the instances that invocations hold:
an invocation that finds no instance of its digest builds one.

An invocation builds while it holds the mutex of the pool, with the queue empty
(`Invocations.Locked`).  So the instances alive right after a build are the ones held, and no
other step adds an instance.  Hence the live instances of a tenant stay within its limit
exactly in the runs that build an instance only while fewer invocations than the limit hold
one (`invoke_live_iff`).
-/

namespace Ember

variable {κ : Type} (C : Crates κ)

namespace Invocations

/-- The live instances of the tenant, held and queued, are within its limit. -/
def WithinLimit (s : Invocations κ) : Prop :=
  s.lending.live ≤ s.tenant.sandbox.limits.maxInstances

/-- If the step builds an instance, then fewer invocations than the limit hold one. -/
def BuildsBelow (s : Invocations κ) (a : InvokeAction) : Prop :=
  ∀ i, a = .arm i → s.lending.lent < s.tenant.sandbox.limits.maxInstances

/-! ### The mutex -/

/-- An invocation in the part of `acquire` that holds the mutex does hold it, and the queue is
empty. -/
def Locked (s : Invocations κ) : Prop :=
  ∀ i, (s.calls i).locks = true → s.mutex = some i ∧ s.tenant.pool.queue = []

/-- No two invocations hold the mutex. -/
theorem Locked.unique {s : Invocations κ} (hs : s.Locked) {i j : ℕ}
    (hi : (s.calls i).locks = true) (hj : (s.calls j).locks = true) :
  i = j
  := by
  obtain ⟨hmutex, -⟩ := hs i hi
  obtain ⟨hmutex', -⟩ := hs j hj
  apply Option.some.inj (hmutex.symm.trans hmutex')

/-- While the mutex is free, no invocation holds it. -/
theorem Locked.free {s : Invocations κ} (hs : s.Locked) (hmutex : s.mutex = none) (i : ℕ) :
  ¬(s.calls i).locks = true
  := by
  intro hi
  obtain ⟨hmutex', -⟩ := hs i hi
  rw [hmutex] at hmutex'
  cases hmutex'

/-- Moving one invocation keeps the mutex in order when it is so for this invocation and for
the others. -/
theorem locked_set {s r : Invocations κ} {i : ℕ} {phase : Phase κ} (hr : r.calls = s.calls)
    (hi : phase.locks = true → r.mutex = some i ∧ r.tenant.pool.queue = [])
    (hothers : ∀ j, j ≠ i → (s.calls j).locks = true →
      r.mutex = some j ∧ r.tenant.pool.queue = []) :
  (r.set i phase).Locked
  := by
  intro j hj
  obtain ⟨rfl, heq⟩ | ⟨hne, heq⟩ := r.calls_set i j phase
  · rw [heq] at hj
    apply hi hj
  · rw [heq, hr] at hj
    apply hothers j hne hj

/-- Moving an invocation to a part without the mutex leaves the mutex to the others. -/
theorem Locked.set_unlocked {s : Invocations κ} (hs : s.Locked) (i : ℕ) {phase : Phase κ}
    (hphase : phase.locks = false) :
  (s.set i phase).Locked
  := by
  apply locked_set rfl
  · rw [hphase]
    rintro ⟨⟩
  · intro j _
    apply hs j

/-- While the mutex is free, moving an invocation to a part without the mutex keeps it free,
whatever happens to the queue. -/
theorem Locked.set_free {s r : Invocations κ} (hs : s.Locked) (hmutex : s.mutex = none)
    (hr : r.calls = s.calls) (i : ℕ) {phase : Phase κ} (hphase : phase.locks = false) :
  (r.set i phase).Locked
  := by
  apply locked_set hr
  · rw [hphase]
    rintro ⟨⟩
  · intro j _ hj
    exact absurd hj (hs.free hmutex j)

/-- Every step keeps the mutex in order. -/
theorem Stepped.locked {s t : Invocations κ} {a : InvokeAction} (h : s.Stepped C a t)
    (hs : s.Locked) :
  t.Locked
  := by
  cases h with
  | ticked ha => apply hs
  | unswapped ha => apply hs
  | swapped hcompile ha => apply hs
  | loaded hcall ha => apply hs.set_unlocked _ rfl
  | entered hcall hctx hrequest ha => apply hs.set_unlocked _ rfl
  | ended hcall hlocks houtcome => apply hs.set_unlocked _ rfl
  | answered hcall ha => apply hs.set_unlocked _ rfl
  | took ha hcall hscan hmutex =>
      apply hs.set_free hmutex
      · rfl
      · rfl
  | panicked hcall hmutex =>
      apply hs.set_free hmutex
      · rfl
      · rfl
  | returned hcall hmutex hresp ha =>
      apply hs.set_free hmutex
      · rfl
      · rfl
  | missed hcall hscan ha hmutex =>
      apply locked_set rfl
      · intro _
        exact ⟨rfl, InstancePool.scan_none hscan⟩
      · intro j _ hj
        exact absurd hj (hs.free hmutex j)
  | @armed i inv ctx hcall ha =>
      apply locked_set rfl
      · intro _
        apply hs i
        rw [hcall]
        rfl
      · intro j _
        apply hs j
  | @started i inv p hcall ha =>
      have hlocks : (s.calls i).locks = true := by
        rw [hcall]
        rfl
      apply locked_set rfl
      · rintro ⟨⟩
      · intro j hne hj
        exact absurd (hs.unique hj hlocks) hne
  | @dropped i inv p mutex outcome hcall hmutex houtcome =>
      apply locked_set rfl
      · rintro ⟨⟩
      · intro j hne hj
        cases hlocks : (s.calls i).locks with
        | true => exact absurd (hs.unique hj hlocks) hne
        | false =>
            rw [hlocks] at hmutex
            obtain rfl : mutex = s.mutex := hmutex
            apply hs j hj

/-! ### Live instances -/

/-- No step adds an instance but the one that builds it. -/
theorem Stepped.live {s t : Invocations κ} {a : InvokeAction} (h : s.Stepped C a t) :
  t.lending.live ≤ s.lending.live
    ∨ ∃ i inv ctx, a = .arm i ∧ s.calls i = .building inv ctx
        ∧ t.lending.live = s.lending.live + 1
  := by
  obtain hle | ⟨hlive, hnext⟩ := (h.lending C).live_le
  · left
    apply hle
  · right
    cases h with
    | armed hcall ha => exact ⟨_, _, _, ha, hcall, hlive⟩
    | _ => exact absurd hnext (Nat.ne_of_lt (Nat.lt_succ_self _))

/-- An instance built while fewer invocations than the limit hold one keeps the live instances
within the limit. -/
theorem Stepped.withinLimit {s t : Invocations κ} {a : InvokeAction} (h : s.Stepped C a t)
    (hlocked : s.Locked) (hs : s.WithinLimit) (hbuilds : s.BuildsBelow a) :
  t.WithinLimit
  := by
  rw [WithinLimit, (h.sandbox_eq C).1]
  obtain hle | ⟨i, inv, ctx, ha, hcall, hlive⟩ := h.live C
  · apply hle.trans hs
  · -- the queue is empty, so the holders are all that is alive
    have hqueue : s.lending.queue = [] := by
      apply (hlocked i _).2
      rw [hcall]
      rfl
    rw [hlive, Lending.live, hqueue, List.length_nil, Nat.cast_zero, add_zero]
    apply Order.add_one_le_of_lt (hbuilds i ha)

/-- A step after which the live instances are within the limit builds while fewer invocations
than the limit hold one, or builds nothing. -/
theorem buildsBelow {s t : Invocations κ} {a : InvokeAction} (h : s.step C a = some t)
    (ht : t.WithinLimit) :
  s.BuildsBelow a
  := by
  rintro i rfl
  rw [step] at h
  split at h
  next inv ctx hcall =>
    obtain rfl := Option.some.inj h
    rw [WithinLimit, lending_set] at ht
    have hlive := Lending.live_make (s := s.lending) (s.fresh inv ctx)
      (show s.lending.held i = none from congrArg Phase.held hcall)
    have hle : s.lending.live + 1 ≤ s.tenant.sandbox.limits.maxInstances := hlive.symm.trans_le ht
    have hfinite : s.lending.live ≠ ⊤ := by
      intro htop
      rw [htop, top_add] at hle
      exact absurd hle (by simp)
    calc s.lending.lent
        ≤ s.lending.live := le_self_add
      _ < s.tenant.sandbox.limits.maxInstances := (ENat.add_one_le_iff hfinite).mp hle
  · cases h

end Invocations

/-- Take any run of invocations of an activated tenant with swaps and ticks.  The instances
that are held by invocations or queued in the pool are at most `max_instances` in all states
of the run, exactly when every step that builds an instance is taken while fewer than
`max_instances` invocations hold one. -/
theorem invoke_live_iff {registry : OciClientConfig} {env : LoadEnv} {cfg : TenantConfig}
    {tenant : Tenant κ} (hactivate : Tenant.activate C registry env cfg = .ok tenant)
    {actions : List InvokeAction} {s : Invocations κ}
    (hrun : (invokeMachine C).run (Invocations.init tenant) actions = some s) :
  (invokeMachine C).Always Invocations.WithinLimit (Invocations.init tenant) actions
    ↔ (invokeMachine C).Meets Invocations.BuildsBelow (Invocations.init tenant) actions
  := by
  apply (invokeMachine C).always_iff_meets (I := Invocations.Locked)
    (J := Invocations.WithinLimit) _ _ _ _ _ _ hrun
  · intro s a t hlocked h
    apply (Invocations.stepped C h).locked C hlocked
  · intro s a t _ h
    apply Invocations.buildsBelow C h
  · intro s a t hlocked hs hbuilds h
    apply (Invocations.stepped C h).withinLimit C hlocked hs hbuilds
  · intro s _ hs
    apply hs
  · intro i hi
    cases hi
  · obtain ⟨_, _, _, _, _, -, -, -, -, -, -, rfl⟩ := (Tenant.activate_ok C).mp hactivate
    simp [Invocations.WithinLimit, Lending.live, Lending.lent, census_eq_zero,
      Invocations.lending, Invocations.init, Phase.held, Phase.serving, InstancePool.new]

/-! ### A tenant for one instance -/

/-- The tenant `echo`, for one instance. -/
def singleConfig : TenantConfig := { fileConfig with limits := { maxInstances := 1 } }

/-- The tenant after activation. -/
def singleTenant : Tenant Bytes :=
  { sampleTenant with
    sandbox := { sampleTenant.sandbox with limits := { maxInstances := 1 } }
    pool := InstancePool.new 1 }

theorem activate_singleTenant :
  Tenant.activate sampleCrates {} fileLoadEnv singleConfig = .ok singleTenant
  := activate_file { maxInstances := 1 } rfl

/-- Invocation `i` builds an instance and calls it. -/
def coldStart (i : ℕ) : List InvokeAction :=
  [.load i sampleInbound, .enter i sampleHost, .lock i, .arm i, .instantiated i (.ok ())]

/-- A second invocation comes while the first one holds the instance, waits for it, and then takes
the instance out of the pool. -/
def turnsCalls : List InvokeAction :=
  coldStart 0 ++ [.load 1 sampleInbound, .enter 1 sampleHost,
    .answered 0 (.response { status := 200, headers := [], body := [] }), .release 0 0, .lock 1]

/-- Two invocations that take turns keep to the limit of one instance. -/
theorem invoke_live_turns :
  ∃ s, (invokeMachine sampleCrates).run (Invocations.init singleTenant) turnsCalls = some s
    ∧ (s.calls 1).held ≠ none
    ∧ (invokeMachine sampleCrates).Always Invocations.WithinLimit (Invocations.init singleTenant)
      turnsCalls
  := by
  refine ⟨_, rfl, by rintro ⟨⟩, ?_⟩
  apply (invoke_live_iff sampleCrates activate_singleTenant rfl).mpr
  -- the one build comes while no invocation holds an instance
  iterate 3
    constructor
    · rintro i ⟨⟩
    rintro s ⟨⟩
  constructor
  · rintro i ⟨⟩
    rw [Lending.lent, census_eq_zero]
    · simp [singleTenant, Invocations.set, Invocations.setMutex, Invocations.setQueue,
        Invocations.init]
    · rintro (_ | j) h
      · exact h rfl
      · exact h rfl
  rintro s ⟨⟩
  iterate 6
    constructor
    · rintro i ⟨⟩
    rintro s ⟨⟩
  trivial

/-- Two invocations at the same time have two instances alive under a limit of one. -/
theorem invoke_live_exceeded :
  Tenant.activate sampleCrates {} fileLoadEnv singleConfig = .ok singleTenant
    ∧ ∃ s, (invokeMachine sampleCrates).run (Invocations.init singleTenant)
          (coldStart 0 ++ coldStart 1) = some s
        ∧ s.tenant.sandbox.limits.maxInstances = 1
        ∧ ¬s.WithinLimit
  := by
  have htwo : ∀ s : Invocations Bytes, s.tenant.sandbox.limits.maxInstances = 1 →
      (s.calls 0).held ≠ none → (s.calls 1).held ≠ none → ¬s.WithinLimit := by
    intro s hlimit h0 h1 hs
    rw [Invocations.WithinLimit, hlimit] at hs
    have hle : (2 : ℕ∞) ≤ (1 : ℕ) := by
      calc (2 : ℕ∞)
          ≤ s.lending.lent := two_le_census (by decide : (0 : ℕ) ≠ 1) h0 h1
        _ ≤ s.lending.live := le_self_add
        _ ≤ (1 : ℕ) := hs
    exact absurd hle (by decide)
  refine ⟨activate_singleTenant, _, rfl, rfl, ?_⟩
  apply htwo
  · rfl
  · rintro ⟨⟩
  · rintro ⟨⟩

end Ember
