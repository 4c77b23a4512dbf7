import Ember.Runtime.Live

/-!
# The old generation drains

After a swap, requests that loaded an older snapshot may still build instances of its digest
and release them into the pool.  Each such request accounts for one unit of the old
generation until it has an instance, and each stale instance accounts for one, wherever it
is.  A request that builds or takes a stale instance passes its unit on to the instance, and
a release moves the unit to the queue, so the total (`Invocations.oldGeneration`) never
increases (`invoke_drains`).
-/

namespace Ember

variable {κ : Type} (C : Crates κ)

/-- The action swaps the component: a swap to an artifact that does not compile has no effect. -/
def InvokeAction.Swaps : InvokeAction → Prop
  | .swap loaded _ => ∃ compiled, C.fromBinary loaded.bytes = .ok compiled
  | _ => False

namespace Phase

/-- The request has loaded another snapshot than `active` and has no instance yet. -/
def AwaitsOld (active : ActiveComponent κ) (phase : Phase κ) : Prop :=
  phase.held = none ∧ ∃ g, phase.snapshot = some g ∧ g ≠ active

/-- The invocation holds an instance of another digest than `active`. -/
def HoldsStale (active : ActiveComponent κ) (phase : Phase κ) : Prop :=
  ∃ p, phase.held = some p ∧ p.digest ≠ active.digest

/-- The invocation accounts for one unit of the old generation. -/
def Old (active : ActiveComponent κ) (phase : Phase κ) : Prop :=
  phase.AwaitsOld active ∨ phase.HoldsStale active

variable {active : ActiveComponent κ} {phase : Phase κ}

/-- An invocation that holds an instance is old exactly when the instance is stale. -/
theorem old_of_held {p : Prepared κ} (h : phase.held = some p) :
  phase.Old active ↔ p.digest ≠ active.digest
  := by
  simp [Old, AwaitsOld, HoldsStale, h]

/-- An invocation that holds no instance is old exactly when its snapshot is. -/
theorem old_of_not_held (h : phase.held = none) :
  phase.Old active ↔ ∃ g, phase.snapshot = some g ∧ g ≠ active
  := by
  simp [Old, AwaitsOld, HoldsStale, h]

/-- An invocation without a snapshot and an instance is not old. -/
theorem not_old (h : phase.held = none) (hsnapshot : phase.snapshot = none) :
  ¬phase.Old active
  := by
  rw [old_of_not_held h, hsnapshot]
  simp

end Phase

namespace Invocations

/-- The number of stale instances in the queue of the pool. -/
def staleQueued (s : Invocations κ) : ℕ :=
  s.tenant.pool.queue.countP fun p => p.digest ≠ s.tenant.active.digest

/-- The requests that loaded an older snapshot than the active one and have not acquired an
instance, and the stale instances held and queued. -/
noncomputable def oldGeneration (s : Invocations κ) : ℕ∞ :=
  census (Phase.AwaitsOld s.tenant.active) s.calls
    + census (Phase.HoldsStale s.tenant.active) s.calls
    + s.staleQueued

/-- Requests and held instances can be counted in one go. -/
theorem oldGeneration_eq (s : Invocations κ) :
  s.oldGeneration = census (Phase.Old s.tenant.active) s.calls + s.staleQueued
  := by
  rw [oldGeneration, ← census_or]
  · rfl
  · rintro phase ⟨hnone, -⟩ ⟨p, hp, -⟩
    rw [hnone] at hp
    cases hp

/-- Moving an invocation that is old afterwards only if it was before adds nothing to the old
generation. -/
theorem oldGeneration_set_le {s r : Invocations κ} {i : ℕ} {phase : Phase κ}
    (hcalls : r.calls = s.calls) (hactive : r.tenant.active = s.tenant.active)
    (hqueue : r.staleQueued ≤ s.staleQueued)
    (hold : phase.Old s.tenant.active → (s.calls i).Old s.tenant.active) :
  (r.set i phase).oldGeneration ≤ s.oldGeneration
  := by
  have hcensus : census (Phase.Old s.tenant.active) (Function.update s.calls i phase)
      ≤ census (Phase.Old s.tenant.active) s.calls := census_update_le hold
  rw [oldGeneration_eq, oldGeneration_eq, set, hactive, hcalls]
  apply add_le_add hcensus
  apply Nat.cast_le.mpr hqueue

/-- Releasing an instance moves its unit to the queue, or drops it. -/
theorem oldGeneration_release_le {s r : Invocations κ} {i : ℕ} {p : Prepared κ}
    {phase : Phase κ} (hcalls : r.calls = s.calls) (hactive : r.tenant.active = s.tenant.active)
    (hpool : r.tenant.pool = s.tenant.pool.release p) (hheld : (s.calls i).held = some p)
    (hphase : ∀ active, ¬phase.Old active) :
  (r.set i phase).oldGeneration ≤ s.oldGeneration
  := by
  by_cases hstale : p.digest ≠ s.tenant.active.digest
  · have hcensus : census (Phase.Old s.tenant.active) (Function.update s.calls i phase) + 1
        = census (Phase.Old s.tenant.active) s.calls :=
      census_update_sub ((Phase.old_of_held hheld).mpr hstale) (hphase _)
    have hqueue : r.staleQueued ≤ s.staleQueued + 1 := by
      rw [staleQueued, staleQueued, hactive, hpool]
      obtain ⟨-, ⟨-, heq⟩ | heq⟩ := InstancePool.release_queue s.tenant.pool p
      · simp [heq, List.countP_append, hstale]
      · simp [heq]
    rw [oldGeneration_eq, oldGeneration_eq, set, hactive, hcalls, ← hcensus, add_assoc]
    apply add_le_add_right
    rw [add_comm]
    exact_mod_cast hqueue
  · apply oldGeneration_set_le hcalls hactive
    · rw [staleQueued, staleQueued, hactive, hpool]
      obtain ⟨-, ⟨-, heq⟩ | heq⟩ := InstancePool.release_queue s.tenant.pool p
      · simp [heq, List.countP_append, hstale]
      · rw [heq]
    · intro hold
      exact absurd hold (hphase _)

/-- No step but a swap adds to the old generation. -/
theorem Stepped.oldGeneration_le {s t : Invocations κ} {a : InvokeAction} (h : s.Stepped C a t)
    (ha : ¬a.Swaps C) (hdigest : s.tenant.active.digest = s.tenant.active.loaded.digest) :
  t.oldGeneration ≤ s.oldGeneration
  := by
  -- an instance of another digest belongs to another snapshot
  have hne : ∀ {g : ActiveComponent κ}, g.loaded.digest ≠ s.tenant.active.digest →
      g ≠ s.tenant.active := by
    rintro g hg rfl
    apply hg hdigest.symm
  cases h with
  | ticked _ => apply le_refl
  | unswapped _ => apply le_refl
  | swapped hcompile ha' =>
      rw [ha'] at ha
      exact absurd ⟨_, hcompile⟩ ha
  | loaded hcall _ =>
      apply oldGeneration_set_le rfl rfl le_rfl
      rw [Phase.old_of_not_held rfl]
      rintro ⟨g, hg, hold⟩
      exact absurd (Option.some.inj hg).symm hold
  | entered hcall hctx hrequest _ =>
      apply oldGeneration_set_le rfl rfl le_rfl
      rw [hcall]
      apply id
  | ended hcall hlocks houtcome =>
      apply oldGeneration_set_le rfl rfl le_rfl
      intro hold
      exact absurd hold (Phase.not_old rfl rfl)
  | dropped mutex hcall hmutex houtcome =>
      apply oldGeneration_set_le (s := s) rfl rfl le_rfl
      intro hold
      exact absurd hold (Phase.not_old rfl rfl)
  | took _ hcall hscan hmutex =>
      obtain ⟨hp, hsuffix⟩ := InstancePool.scan_some hscan
      apply oldGeneration_set_le
      · rfl
      · rfl
      · apply List.Sublist.countP_le
        apply (List.sublist_cons_self _ _).trans hsuffix.sublist
      · rw [Phase.old_of_held rfl, hp, hcall, Phase.old_of_not_held rfl]
        intro hstale
        exact ⟨_, rfl, hne hstale⟩
  | missed hcall hscan _ hmutex =>
      obtain rfl := InstancePool.scan_none hscan
      apply oldGeneration_set_le
      · rfl
      · rfl
      · apply Nat.zero_le
      · rw [hcall]
        apply id
  | armed hcall _ =>
      apply oldGeneration_set_le (s := s) rfl rfl le_rfl
      rw [Phase.old_of_held rfl, hcall, Phase.old_of_not_held rfl]
      intro hstale
      exact ⟨_, rfl, hne hstale⟩
  | started hcall _ =>
      apply oldGeneration_set_le (s := s) rfl rfl le_rfl
      rw [hcall]
      apply id
  | answered hcall _ =>
      apply oldGeneration_set_le rfl rfl le_rfl
      rw [hcall]
      apply id
  | panicked hcall hmutex =>
      apply oldGeneration_release_le
      · rfl
      · rfl
      · rfl
      · rw [hcall]
        rfl
      · intro active
        apply Phase.not_old rfl rfl
  | returned hcall hmutex hresp _ =>
      apply oldGeneration_release_le
      · rfl
      · rfl
      · rfl
      · rw [hcall]
        rfl
      · intro active
        apply Phase.not_old rfl rfl

/-- While an invocation builds an instance, no step puts anything into the queue. -/
theorem Stepped.queue_eq_nil {s t : Invocations κ} {a : InvokeAction} (h : s.Stepped C a t)
    (hs : s.Locked) {i : ℕ} (hi : (s.calls i).locks = true) :
  t.tenant.pool.queue = []
  := by
  obtain ⟨-, hqueue⟩ := hs i hi
  cases h with
  | took _ hcall hscan hmutex => exact absurd hi (hs.free hmutex i)
  | missed hcall hscan _ hmutex => exact absurd hi (hs.free hmutex i)
  | panicked hcall hmutex => exact absurd hi (hs.free hmutex i)
  | returned hcall hmutex hresp _ => exact absurd hi (hs.free hmutex i)
  | _ => apply hqueue

/-- A step moves at most one invocation. -/
theorem Stepped.calls {s t : Invocations κ} {a : InvokeAction} (h : s.Stepped C a t) :
  t.calls = s.calls ∨ ∃ i phase, t.calls = Function.update s.calls i phase
  := by
  cases h with
  | ticked _ => exact .inl rfl
  | unswapped _ => exact .inl rfl
  | swapped _ _ => exact .inl rfl
  | _ => exact .inr ⟨_, _, rfl⟩

/-- The step `a` leaves only finitely many invocations that have been started. -/
theorem Stepped.finite {s t : Invocations κ} {a : InvokeAction} (h : s.Stepped C a t)
    (hs : { i | s.calls i ≠ .idle }.Finite) :
  { i | t.calls i ≠ .idle }.Finite
  := by
  obtain heq | ⟨i, phase, heq⟩ := h.calls C
  · rw [heq]
    apply hs
  · apply (hs.insert i).subset
    intro j hj
    obtain rfl | hne := eq_or_ne j i
    · apply Set.mem_insert
    · right
      simpa [heq, Function.update_of_ne hne] using hj

/-- While only finitely many invocations have been started, the old generation is finite. -/
theorem oldGeneration_ne_top {s : Invocations κ} (hs : { i | s.calls i ≠ .idle }.Finite) :
  s.oldGeneration ≠ ⊤
  := by
  have hold : { i | (s.calls i).Old s.tenant.active }.Finite := by
    apply hs.subset
    intro i hi hidle
    have hi' : (s.calls i).Old s.tenant.active := hi
    rw [hidle] at hi'
    apply Phase.not_old rfl rfl hi'
  rw [oldGeneration_eq, Ne, ENat.add_eq_top, not_or]
  exact ⟨Set.encard_ne_top_iff.mpr hold, ENat.natCast_ne_top _⟩

/-- No step but a swap changes the active component. -/
theorem Stepped.active_eq {s t : Invocations κ} {a : InvokeAction} (h : s.Stepped C a t)
    (ha : ¬a.Swaps C) :
  t.tenant.active = s.tenant.active
  := by
  cases h with
  | swapped hcompile ha' =>
      rw [ha'] at ha
      exact absurd ⟨_, hcompile⟩ ha
  | panicked hcall hmutex => rfl
  | _ => rfl

end Invocations

/-- The invariant behind the drain: the instances are in order, the mutex is, and finitely many
invocations have been started. -/
structure DrainOk (cap : ℕ) (s : Invocations κ) : Prop where
  instances : InstancesOk C cap s
  locked : s.Locked
  finite : { i | s.calls i ≠ .idle }.Finite

namespace DrainOk

variable {cap : ℕ} {s t : Invocations κ} {actions : List InvokeAction}

/-- A tenant that was just activated satisfies the invariant. -/
theorem init {registry : OciClientConfig} {env : LoadEnv} {cfg : TenantConfig} {tenant : Tenant κ}
    (h : Tenant.activate C registry env cfg = .ok tenant) :
  DrainOk C tenant.pool.cap (Invocations.init tenant)
  := by
  constructor
  · apply InstancesOk.init C h
  · rintro i ⟨⟩
  · simp [Invocations.init]

/-- Every step keeps the invariant. -/
theorem step {a : InvokeAction} (hs : DrainOk C cap s) (h : s.step C a = some t) :
  DrainOk C cap t
  := by
  have hstepped := Invocations.stepped C h
  constructor
  · apply hs.instances.step C hstepped
  · apply hstepped.locked C hs.locked
  · apply hstepped.finite C hs.finite

/-- Every run keeps the invariant. -/
theorem run (hs : DrainOk C cap s) (hrun : (invokeMachine C).run s actions = some t) :
  DrainOk C cap t
  := by
  apply (invokeMachine C).run_invariant _ hs hrun
  intro s a t hs h
  apply hs.step C h

/-- A run without swaps keeps the active component, and adds nothing to the old generation. -/
theorem run_drains (hs : DrainOk C cap s) (hswaps : ∀ a ∈ actions, ¬a.Swaps C)
    (hrun : (invokeMachine C).run s actions = some t) :
  t.tenant.active = s.tenant.active ∧ t.oldGeneration ≤ s.oldGeneration
  := by
  let I : Invocations κ → Prop := fun t =>
    DrainOk C cap t ∧ t.tenant.active = s.tenant.active ∧ t.oldGeneration ≤ s.oldGeneration
  have hstep : ∀ r a t, I r → ¬a.Swaps C → (invokeMachine C).step r a = some t → I t := by
    rintro r a t ⟨hr, hactive, hle⟩ ha h
    have hstepped := Invocations.stepped C h
    have hdigest := (hr.instances.generation _ hr.instances.active).1
    use hr.step C h, (hstepped.active_eq C ha).trans hactive
    apply (hstepped.oldGeneration_le C ha hdigest).trans hle
  have hmeets := (invokeMachine C).meets_of_forall_mem hswaps s
  apply ((invokeMachine C).run_induct hstep ⟨hs, rfl, le_rfl⟩ hmeets hrun).2

end DrainOk

/-- Take any run of invocations of an activated tenant with swaps and ticks, which ends with a
swap, and continue it without further swaps.  The active component stays the one swapped in;
the requests that loaded an older snapshot and have not acquired an instance, together with
the stale instances held by invocations and queued in the pool, are finitely many and never
become more; and while an `acquire` builds an instance, and right after the step that ends it,
the queue holds no stale instance. -/
theorem invoke_drains {registry : OciClientConfig} {env : LoadEnv} {cfg : TenantConfig}
    {tenant : Tenant κ} (hactivate : Tenant.activate C registry env cfg = .ok tenant)
    {before : List InvokeAction} {loaded : Loaded} {compiled : κ} {at' : PollEnv}
    (hcompile : C.fromBinary loaded.bytes = .ok compiled) {r s : Invocations κ}
    (hbefore : (invokeMachine C).run (Invocations.init tenant) before = some r)
    (hswap : r.step C (.swap loaded at') = some s)
    {during more : List InvokeAction} {t u : Invocations κ}
    (hduring : (invokeMachine C).run s during = some t)
    (hmore : (invokeMachine C).run t more = some u)
    (hswaps : ∀ a ∈ during ++ more, ¬a.Swaps C) :
  u.tenant.active.digest = loaded.digest
    ∧ u.oldGeneration ≤ t.oldGeneration ∧ t.oldGeneration ≠ ⊤
    ∧ ∀ i, (u.calls i).locks = true →
        (∀ p ∈ u.tenant.pool.queue, p.digest = loaded.digest)
          ∧ ∀ a v, u.step C a = some v → ∀ p ∈ v.tenant.pool.queue, p.digest = loaded.digest
  := by
  obtain ⟨hduring', hmore'⟩ := List.forall_mem_append.mp hswaps
  have hs := ((DrainOk.init C hactivate).run C hbefore).step C hswap
  have ht := hs.run C hduring
  have hu := ht.run C hmore
  have hactive : s.tenant.active.digest = loaded.digest := by
    have hstep : r.step C (.swap loaded at') = some s := hswap
    rw [Invocations.step, Tenant.swap, compile, hcompile] at hstep
    obtain rfl := Option.some.inj hstep
    rfl
  obtain ⟨hactiveT, -⟩ := hs.run_drains C hduring' hduring
  obtain ⟨hactiveU, hle⟩ := ht.run_drains C hmore' hmore
  refine ⟨?_, hle, Invocations.oldGeneration_ne_top ht.finite, ?_⟩
  · rw [hactiveU, hactiveT, hactive]
  · intro i hi
    constructor
    · rw [(hu.locked i hi).2]
      apply List.forall_mem_nil
    · intro a v h
      rw [(Invocations.stepped C h).queue_eq_nil C hu.locked hi]
      apply List.forall_mem_nil

/-! ### A late release -/

/-- The artifact `sampleTenant` is swapped to. -/
def movedLoaded : Loaded :=
  { sampleLoaded with
    bytes := movedComponent
    digest := digestOf movedCrates movedComponent
    size := movedComponent.length }

/-- Invocation 0 is answered and releases its instance. -/
def lateRelease : List InvokeAction :=
  [.answered 0 (.response { status := 200, headers := [], body := [] }), .release 0 0]

/-- An invocation that was running during the swap releases its instance into the queue: the old
generation has moved, and has not grown. -/
theorem invoke_drains_release :
  ∃ r s u, (invokeMachine movedCrates).run (Invocations.init sampleTenant) (coldStart 0) = some r
    ∧ r.step movedCrates (.swap movedLoaded ⟨unreachableUpstream, 5, 5⟩) = some s
    ∧ (invokeMachine movedCrates).run s lateRelease = some u
    ∧ u.tenant.pool.queue.length = 1
    ∧ u.oldGeneration ≤ s.oldGeneration
  := by
  refine ⟨_, _, _, rfl, rfl, rfl, rfl, ?_⟩
  have hswaps : ∀ a ∈ [] ++ lateRelease, ¬a.Swaps movedCrates := by
    intro a ha
    fin_cases ha
    · rintro ⟨⟩
    · rintro ⟨⟩
  have hactivate : Tenant.activate movedCrates {} fileLoadEnv fileConfig = .ok sampleTenant := by
    apply (Tenant.activate_ok movedCrates).mpr
    use echoId, sampleTenant.sandbox, sampleTenant.bridge, sampleLoaded, handlerComponent
    refine ⟨TenantId.new_ok.mpr rfl, rfl, rfl, ?_, ?_, rfl, rfl⟩
    · decide +kernel
    · decide +kernel
  have hcompile : movedCrates.fromBinary movedLoaded.bytes = .ok movedComponent := rfl
  have hbefore : (invokeMachine movedCrates).run (Invocations.init sampleTenant) (coldStart 0)
      = some _ := rfl
  obtain ⟨-, hle, -⟩ :=
    invoke_drains movedCrates hactivate hcompile hbefore rfl rfl rfl hswaps
  apply hle

end Ember
