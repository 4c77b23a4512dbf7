import Ember.Library.Rank
import Ember.Runtime.Counters
import Ember.Runtime.Live
import Ember.Runtime.Objects

/-!
# Every invocation can be completed

An invocation waits for nothing but the mutex of its pool and, while it holds the mutex or calls
the guest, for the world outside.  We show that no invocation is ever stuck: it can take its next
step, or else the mutex is held by an invocation that can take its own (`invoke_unstuck`).  As
every step of an invocation lowers its rank, it can be completed, whatever the instantiations and
the guests come to, without cancelling anything and without a step of another tenant or of the
reload loop; and so can a reload pass (`server_completes`).
-/

namespace Ember

variable {κ : Type} (C : Crates κ)

/-- What the steps of an invocation meet outside the process. -/
structure Answers where
  host : HostDirs
  instantiated : Except String Unit
  result : CallResult
  elapsed : Duration

namespace Phase

/-- How many steps an invocation can still take. -/
def rank : Phase κ → ℕ
  | .idle => 7
  | .loaded _ _ => 6
  | .waiting _ _ => 5
  | .building _ _ => 4
  | .instantiating _ _ => 3
  | .calling _ _ => 2
  | .releasing _ _ _ => 1
  | .finished _ => 0

/-- The next step of invocation `i`, unless it has not been started or is finished. -/
def next (i : ℕ) (answers : Answers) : Phase κ → Option InvokeAction
  | .idle | .finished _ => none
  | .loaded _ _ => some (.enter i answers.host)
  | .waiting _ _ => some (.lock i)
  | .building _ _ => some (.arm i)
  | .instantiating _ _ => some (.instantiated i answers.instantiated)
  | .calling _ _ => some (.answered i answers.result)
  | .releasing _ _ _ => some (.release i answers.elapsed)

/-- The invocation has been started and is not finished. -/
def Underway : Phase κ → Prop
  | .idle | .finished _ => False
  | _ => True

/-- The invocation waits for the mutex of the pool. -/
def Awaits : Phase κ → Prop
  | .waiting _ _ | .releasing _ _ _ => True
  | _ => False

/-- An invocation that holds the mutex is underway and does not wait for it. -/
theorem underway_of_locks {phase : Phase κ} (h : phase.locks = true) :
  phase.Underway ∧ ¬phase.Awaits
  := by
  cases phase with
  | building inv ctx => exact ⟨trivial, not_false⟩
  | instantiating inv p => exact ⟨trivial, not_false⟩
  | _ => cases h

end Phase

/-- The invocation that takes the step. -/
def InvokeAction.subject : InvokeAction → Option ℕ
  | .tick | .swap _ _ => none
  | .load i _ | .enter i _ | .lock i | .arm i | .instantiated i _ | .answered i _ | .release i _
  | .cancel i => some i

namespace Invocations

/-- The step is the next one of an invocation that is underway. -/
def IsNext (answers : ℕ → Answers) (s : Invocations κ) (a : InvokeAction) : Prop :=
  ∃ i, (s.calls i).next i (answers i) = some a

/-- The invocation is underway, and the mutex is free if it waits for it. -/
def Ready (s : Invocations κ) (i : ℕ) : Prop :=
  (s.calls i).Underway ∧ ((s.calls i).Awaits → s.mutex = none)

/-! ### Steps and ranks -/

/-- A step lowers the rank of the invocation that takes it, and moves no other. -/
theorem step_rank {s t : Invocations κ} {a : InvokeAction} {i : ℕ} (h : s.step C a = some t)
    (ha : a.subject = some i) :
  (t.calls i).rank < (s.calls i).rank ∧ ∀ j, j ≠ i → t.calls j = s.calls j
  := by
  have hset : ∀ {r : Invocations κ} {old phase : Phase κ}, some (r.set i phase) = some t →
      s.calls i = old → r.calls = s.calls → phase.rank < old.rank →
      (t.calls i).rank < (s.calls i).rank ∧ ∀ j, j ≠ i → t.calls j = s.calls j := by
    intro r old phase ht hold hr hrank
    obtain rfl := Option.some.inj ht
    constructor
    · rw [hold, set]
      simp only [Function.update_self]
      apply hrank
    · intro j hne
      rw [set, ← hr]
      apply Function.update_of_ne hne
  cases a with
  | tick => cases ha
  | swap loaded env => cases ha
  | load j request =>
      obtain rfl := Option.some.inj ha
      rw [step] at h
      split at h
      next hcall => exact hset h hcall rfl (by simp [Phase.rank])
      · cases h
  | enter j host =>
      obtain rfl := Option.some.inj ha
      rw [step] at h
      split at h
      next active raw hcall =>
        split at h
        · exact hset h hcall rfl (by simp [Phase.rank])
        · split at h
          · exact hset h hcall rfl (by simp [Phase.rank])
          · exact hset h hcall rfl (by simp [Phase.rank])
      · cases h
  | lock j =>
      obtain rfl := Option.some.inj ha
      rw [step] at h
      split at h
      next inv ctx hcall hmutex =>
        split at h
        · exact hset h hcall rfl (by simp [Phase.rank])
        · exact hset h hcall rfl (by simp [Phase.rank])
      · cases h
  | arm j =>
      obtain rfl := Option.some.inj ha
      rw [step] at h
      split at h
      next inv ctx hcall => exact hset h hcall rfl (by simp [Phase.rank])
      · cases h
  | instantiated j outcome =>
      obtain rfl := Option.some.inj ha
      rw [step] at h
      split at h
      next inv p hcall =>
        split at h
        · exact hset h hcall rfl (by simp [Phase.rank])
        · exact hset h hcall rfl (by simp [Phase.rank])
      · cases h
  | answered j result =>
      obtain rfl := Option.some.inj ha
      rw [step] at h
      split at h
      next inv p hcall =>
        split at h
        · exact hset h hcall rfl (by simp [Phase.rank])
        · exact hset h hcall rfl (by simp [Phase.rank])
        · exact hset h hcall rfl (by simp [Phase.rank])
      · cases h
  | release j elapsed =>
      obtain rfl := Option.some.inj ha
      rw [step] at h
      split at h
      next inv p resp hcall hmutex =>
        split at h
        · exact hset h hcall rfl (by simp [Phase.rank])
        · exact hset h hcall rfl (by simp [Phase.rank])
      · cases h
  | cancel j =>
      obtain rfl := Option.some.inj ha
      rw [step] at h
      split at h
      next inv ctx hcall => exact hset h hcall rfl (by simp [Phase.rank])
      next inv p hcall => exact hset h hcall rfl (by simp [Phase.rank])
      next inv p hcall => exact hset h hcall rfl (by simp [Phase.rank])
      next inv p resp hcall => exact hset h hcall rfl (by simp [Phase.rank])
      · cases h

/-- A step that no invocation takes moves none. -/
theorem step_calls {s t : Invocations κ} {a : InvokeAction} (h : s.step C a = some t)
    (ha : a.subject = none) :
  t.calls = s.calls
  := by
  cases a with
  | tick =>
      obtain rfl := Option.some.inj h
      rfl
  | swap loaded env =>
      rw [step] at h
      split at h
      · obtain rfl := Option.some.inj h
        rfl
      · obtain rfl := Option.some.inj h
        rfl
  | _ => cases ha

/-- No step raises the rank of an invocation. -/
theorem step_rank_le {s t : Invocations κ} {a : InvokeAction} (h : s.step C a = some t) (i : ℕ) :
  (t.calls i).rank ≤ (s.calls i).rank
  := by
  cases ha : a.subject with
  | none => rw [step_calls C h ha]
  | some j =>
      obtain ⟨hlt, hothers⟩ := step_rank C h ha
      obtain rfl | hne := eq_or_ne i j
      · apply hlt.le
      · rw [hothers i hne]

/-! ### The mutex -/

/-- The mutex is held by an invocation in the part of `acquire` that holds it, and while there is
one, it is held. -/
structure MutexOk (s : Invocations κ) : Prop where
  locked : s.Locked
  held : ∀ i, s.mutex = some i → (s.calls i).locks = true

/-- A tenant without invocations has its mutex free. -/
theorem MutexOk.init (tenant : Tenant κ) :
  (Invocations.init tenant).MutexOk
  := by
  constructor
  · rintro i ⟨⟩
  · rintro i ⟨⟩

/-- Every step keeps the mutex in order. -/
theorem MutexOk.step {s t : Invocations κ} {a : InvokeAction} (hs : s.MutexOk)
    (h : s.Stepped C a t) :
  t.MutexOk
  := by
  use h.locked C hs.locked
  -- moving an invocation that does not hold the mutex
  have hmove : ∀ {r : Invocations κ} {i : ℕ} {phase : Phase κ}, r.calls = s.calls →
      (s.calls i).locks = false → (∀ j, r.mutex = some j → s.mutex = some j) →
      ∀ j, (r.set i phase).mutex = some j → ((r.set i phase).calls j).locks = true := by
    intro r i phase hr hi hmutex j hj
    have hj' := hs.held j (hmutex j hj)
    obtain ⟨rfl, -⟩ | ⟨-, heq⟩ := r.calls_set i j phase
    · rw [hi] at hj'
      cases hj'
    · rw [heq, hr]
      apply hj'
  have hid : ∀ j, s.mutex = some j → s.mutex = some j := by
    intro j hj
    apply hj
  cases h with
  | ticked ha => apply hs.held
  | unswapped ha => apply hs.held
  | swapped hcompile ha => apply hs.held
  | loaded hcall ha => apply hmove rfl (congrArg Phase.locks hcall) hid
  | entered hcall hctx hrequest ha => apply hmove rfl (congrArg Phase.locks hcall) hid
  | ended hcall hlocks houtcome => apply hmove rfl hlocks hid
  | answered hcall ha => apply hmove rfl (congrArg Phase.locks hcall) hid
  | took ha hcall hscan hmutex => apply hmove rfl (congrArg Phase.locks hcall) hid
  | panicked hcall hmutex => apply hmove rfl (congrArg Phase.locks hcall) hid
  | returned hcall hmutex hresp ha => apply hmove rfl (congrArg Phase.locks hcall) hid
  | @missed i inv ctx queue hcall hscan ha hmutex =>
      intro j hj
      obtain rfl := Option.some.inj hj
      simp [set, Phase.locks]
  | @armed i inv ctx hcall ha =>
      intro j hj
      obtain ⟨rfl, heq⟩ | ⟨-, heq⟩ := calls_set { s with nextInstance := s.nextInstance + 1 } i j
        (.instantiating inv (s.fresh inv ctx))
      · rw [heq]
        rfl
      · rw [heq]
        apply hs.held j hj
  | started hcall ha =>
      rintro j ⟨⟩
  | @dropped i inv p mutex outcome hcall hmutex houtcome =>
      cases hlocks : (s.calls i).locks with
      | true =>
          rw [hlocks] at hmutex
          obtain rfl : mutex = none := hmutex
          rintro j ⟨⟩
      | false =>
          rw [hlocks] at hmutex
          obtain rfl : mutex = s.mutex := hmutex
          apply hmove rfl hlocks hid

/-! ### No invocation is stuck -/

/-- An invocation that is ready can take its next step, whatever it meets outside the process. -/
theorem Ready.step {s : Invocations κ} {i : ℕ} (h : s.Ready i) (answers : Answers) :
  ∃ a, (s.calls i).next i answers = some a ∧ a.subject = some i ∧ a.isInvocation = true
    ∧ ∃ t, s.step C a = some t
  := by
  obtain ⟨hunderway, hmutex⟩ := h
  cases hcall : s.calls i with
  | idle =>
      rw [hcall] at hunderway
      cases hunderway
  | finished outcome =>
      rw [hcall] at hunderway
      cases hunderway
  | loaded active raw =>
      refine ⟨_, rfl, rfl, rfl, Option.isSome_iff_exists.mp ?_⟩
      simp only [Invocations.step, hcall]
      split
      · rfl
      · split
        · rfl
        · rfl
  | waiting inv ctx =>
      have hfree : s.mutex = none := by
        apply hmutex
        rw [hcall]
        trivial
      refine ⟨_, rfl, rfl, rfl, Option.isSome_iff_exists.mp ?_⟩
      simp only [Invocations.step, hcall, hfree]
      split
      · rfl
      · rfl
  | building inv ctx =>
      refine ⟨_, rfl, rfl, rfl, Option.isSome_iff_exists.mp ?_⟩
      simp only [Invocations.step, hcall]
      rfl
  | instantiating inv p =>
      refine ⟨_, rfl, rfl, rfl, Option.isSome_iff_exists.mp ?_⟩
      simp only [Invocations.step, hcall]
      split
      · rfl
      · rfl
  | calling inv p =>
      refine ⟨_, rfl, rfl, rfl, Option.isSome_iff_exists.mp ?_⟩
      simp only [Invocations.step, hcall]
      split
      · rfl
      · rfl
      · rfl
  | releasing inv p resp =>
      have hfree : s.mutex = none := by
        apply hmutex
        rw [hcall]
        trivial
      refine ⟨_, rfl, rfl, rfl, Option.isSome_iff_exists.mp ?_⟩
      simp only [Invocations.step, hcall, hfree]
      split
      · rfl
      · rfl

/-- An invocation that holds the mutex is ready. -/
theorem MutexOk.ready {s : Invocations κ} (hs : s.MutexOk) {j : ℕ} (hj : s.mutex = some j) :
  s.Ready j
  := by
  obtain ⟨hunderway, hawaits⟩ := Phase.underway_of_locks (hs.held j hj)
  exact ⟨hunderway, fun h => absurd h hawaits⟩

/-- An invocation that is underway is ready, or else the one that holds the mutex is. -/
theorem MutexOk.ready_or {s : Invocations κ} (hs : s.MutexOk) {i : ℕ}
    (hi : (s.calls i).Underway) :
  s.Ready i ∨ ∃ j, s.mutex = some j ∧ s.Ready j
  := by
  cases hmutex : s.mutex with
  | none =>
      left
      exact ⟨hi, fun _ => hmutex⟩
  | some j =>
      right
      exact ⟨j, rfl, hs.ready hmutex⟩

/-! ### Completing an invocation -/

/-- How many steps until the mutex is free. -/
def debt (s : Invocations κ) : ℕ :=
  match s.mutex with
  | none => 0
  | some j => (s.calls j).rank - 2

/-- How far invocation `i` is from its end, with the invocation that holds the mutex in front. -/
def distance (i : ℕ) (s : Invocations κ) : ℕ := 3 * (s.calls i).rank + s.debt

/-- The debt is at most two, and zero when the mutex is free. -/
theorem MutexOk.debt_le {s : Invocations κ} (hs : s.MutexOk) :
  s.debt ≤ 2
  := by
  rw [debt]
  cases hmutex : s.mutex with
  | none => exact Nat.zero_le 2
  | some j =>
      have hj := hs.held j hmutex
      dsimp only
      generalize s.calls j = phase at hj
      cases phase with
      | building inv ctx => exact le_rfl
      | instantiating inv p => exact Nat.le_succ 1
      | _ => cases hj

/-- A step of the invocation that holds the mutex brings closer the state in which it is free. -/
theorem MutexOk.debt_lt {s t : Invocations κ} {a : InvokeAction} {j : ℕ} (hs : s.MutexOk)
    (ht : t.MutexOk) (hj : s.mutex = some j) (ha : a.subject = some j)
    (h : s.step C a = some t) :
  t.debt < s.debt
  := by
  obtain ⟨hlt, hothers⟩ := step_rank C h ha
  have hlocks := hs.held j hj
  have hpos : 2 < (s.calls j).rank := by
    generalize s.calls j = phase at hlocks
    cases phase with
    | building inv ctx => simp [Phase.rank]
    | instantiating inv p => simp [Phase.rank]
    | _ => cases hlocks
  rw [debt, debt, hj]
  cases hmutex : t.mutex with
  | none =>
      dsimp only
      omega
  | some k =>
      obtain rfl : k = j := by
        by_contra hne
        have hk := ht.held k hmutex
        rw [hothers k hne] at hk
        apply hne (hs.locked.unique hk hlocks)
      dsimp only
      omega

/-- While invocation `i` is underway, some invocation can take its next step, and that brings
invocation `i` closer to its end. -/
theorem MutexOk.approach {s : Invocations κ} (hs : s.MutexOk) {i : ℕ}
    (hi : (s.calls i).Underway) (answers : ℕ → Answers) :
  ∃ a t, s.IsNext answers a ∧ s.step C a = some t ∧ t.MutexOk ∧ t.distance i < s.distance i
  := by
  have hstep : ∀ {j}, s.Ready j → ∃ a t, s.IsNext answers a ∧ a.subject = some j
      ∧ s.step C a = some t ∧ t.MutexOk := by
    intro j hj
    obtain ⟨a, hnext, hsubject, -, t, h⟩ := hj.step C (answers j)
    exact ⟨a, t, ⟨j, hnext⟩, hsubject, h, hs.step C (stepped C h)⟩
  rw [distance]
  obtain hready | ⟨j, hj, hready⟩ := hs.ready_or hi
  · obtain ⟨a, t, hnext, hsubject, h, ht⟩ := hstep hready
    obtain ⟨hlt, -⟩ := step_rank C h hsubject
    have hdebt := ht.debt_le
    refine ⟨a, t, hnext, h, ht, ?_⟩
    rw [distance]
    omega
  · obtain ⟨a, t, hnext, hsubject, h, ht⟩ := hstep hready
    have hle := step_rank_le C h i
    have hdebt := hs.debt_lt C ht hj hsubject h
    refine ⟨a, t, hnext, h, ht, ?_⟩
    rw [distance]
    omega

/-- The invocation has been started. -/
def Started (i : ℕ) (s : Invocations κ) : Prop := (s.calls i).rank < 7

/-- An invocation that has been started is underway or finished. -/
theorem Started.cases {i : ℕ} {s : Invocations κ} (h : s.Started i) :
  (s.calls i).Underway ∨ ∃ outcome, s.calls i = .finished outcome
  := by
  rw [Started] at h
  cases hcall : s.calls i with
  | idle =>
      rw [hcall] at h
      exact absurd h (lt_irrefl 7)
  | finished outcome => exact .inr ⟨outcome, rfl⟩
  | _ => exact .inl trivial

/-- An invocation that is underway has been started. -/
theorem started_of_underway {i : ℕ} {s : Invocations κ} (h : (s.calls i).Underway) :
  s.Started i
  := by
  rw [Started]
  generalize s.calls i = phase at h
  cases phase with
  | idle => cases h
  | _ => simp [Phase.rank]

/-- Every invocation that has been started can be completed by next steps. -/
theorem MutexOk.completes {s : Invocations κ} (hs : s.MutexOk) {i : ℕ} (hi : s.Started i)
    (answers : ℕ → Answers) :
  ∃ as t, (invokeMachine C).Meets (IsNext answers) s as ∧ (invokeMachine C).run s as = some t
    ∧ ∃ outcome, t.calls i = .finished outcome
  := by
  have hstep : ∀ s : Invocations κ, s.MutexOk ∧ s.Started i →
      (¬∃ outcome, s.calls i = .finished outcome) →
      ∃ a t, s.IsNext answers a ∧ (invokeMachine C).step s a = some t ∧ (t.MutexOk ∧ t.Started i)
        ∧ t.distance i < s.distance i := by
    rintro s ⟨hs, hi⟩ hdone
    obtain ⟨a, t, hnext, h, ht, hlt⟩ := hs.approach C (hi.cases.resolve_right hdone) answers
    refine ⟨a, t, hnext, h, ⟨ht, ?_⟩, hlt⟩
    apply (step_rank_le C h i).trans_lt hi
  obtain ⟨as, t, hmeets, hrun, -, hdone⟩ := (invokeMachine C).exists_run hstep ⟨hs, hi⟩
  exact ⟨as, t, hmeets, hrun, hdone⟩

end Invocations

/-- Take any run of invocations of a tenant with swaps and ticks.  No invocation takes more than
seven steps in it.  And an invocation that is underway is never stuck: it can take its next step,
whatever it meets outside the process, or the mutex of the pool is held by an invocation that
can. -/
theorem invoke_unstuck {tenant : Tenant κ} {actions : List InvokeAction} {s : Invocations κ}
    (hrun : (invokeMachine C).run (Invocations.init tenant) actions = some s) :
  (∀ i, actions.countP (fun a => a.subject = some i) + (s.calls i).rank ≤ 7)
    ∧ ∀ i, (s.calls i).Underway →
        ∃ j, (j = i ∨ s.mutex = some j)
          ∧ ∀ answers, ∃ a t, (s.calls j).next j answers = some a ∧ s.step C a = some t
  := by
  have hs : s.MutexOk := by
    apply (invokeMachine C).run_invariant _ (Invocations.MutexOk.init tenant) hrun
    intro s a t hs h
    apply hs.step C (Invocations.stepped C h)
  have hnext : ∀ j, s.Ready j → ∀ answers,
      ∃ a t, (s.calls j).next j answers = some a ∧ s.step C a = some t := by
    intro j hj answers
    obtain ⟨a, hnext, -, -, t, h⟩ := hj.step C answers
    exact ⟨a, t, hnext, h⟩
  constructor
  · intro i
    apply (invokeMachine C).countP_le (f := fun s => (s.calls i).rank) _ _ hrun
    · intro s a t h
      apply Invocations.step_rank_le C h
    · intro s a t h ha
      apply (Invocations.step_rank C h (of_decide_eq_true ha)).1
  · intro i hi
    obtain hready | ⟨j, hj, hready⟩ := hs.ready_or hi
    · exact ⟨i, .inl rfl, hnext i hready⟩
    · exact ⟨j, .inr hj, hnext j hready⟩

/-- Invocation 0 instantiates the guest and holds the mutex, invocation 1 waits for it, and one of
the two can go on. -/
theorem invoke_unstuck_waiting :
  ∃ s, (invokeMachine sampleCrates).run (Invocations.init sampleTenant)
      [.load 0 sampleInbound, .enter 0 sampleHost, .lock 0, .arm 0, .load 1 sampleInbound,
        .enter 1 sampleHost] = some s
    ∧ s.mutex = some 0
    ∧ ∃ j, (j = 1 ∨ s.mutex = some j)
        ∧ ∀ answers, ∃ a t, (s.calls j).next j answers = some a
            ∧ s.step sampleCrates a = some t
  := by
  obtain ⟨-, hunstuck⟩ := invoke_unstuck sampleCrates
    (rfl : (invokeMachine sampleCrates).run (Invocations.init sampleTenant)
      [.load 0 sampleInbound, .enter 0 sampleHost, .lock 0, .arm 0, .load 1 sampleInbound,
        .enter 1 sampleHost] = some _)
  exact ⟨_, rfl, rfl, hunstuck 1 trivial⟩

/-! ### The whole server -/

namespace Served

/-- The mutex of the pool stays in order, whatever the server does. -/
theorem mutexOk_evolve {s : Server κ} {a : ServerAction} {r : ℕ} {o o' : Served κ}
    (h : o.calls.MutexOk) (hevolved : o.Evolved C s a r o') :
  o'.calls.MutexOk
  := by
  cases hevolved with
  | kept => apply h
  | @polled env now rest ha hpass =>
      obtain ⟨_, _, _, heq⟩ := Tenant.poll_frame C s.registry s.policy now env o.calls.tenant
      have htenant : (o.poll C s.registry s.policy now env).1.calls.tenant
          = (o.calls.tenant.poll C s.registry s.policy now env).value := rfl
      constructor
      · intro i hi
        rw [htenant, heq]
        apply h.locked i hi
      · apply h.held
  | invoked ha hb hstep => apply h.step C (Invocations.stepped C hstep)
  | ticked ha => exact ⟨h.locked, h.held⟩

end Served

namespace Server

/-- What every run of the server keeps: the mutexes are in order, and the tenants that the map and
the reload pass refer to are there. -/
structure Ongoing (s : Server κ) : Prop where
  mutex : ∀ (r : ℕ) (o : Served κ), s.objects[r]? = some o → o.calls.MutexOk
  mapped : ∀ r ∈ s.snapshotTenants, r < s.objects.length
  visiting : ∀ now rest, s.pass = .visiting now rest → ∀ r ∈ rest, r < s.objects.length

/-- A server without tenants has nothing going on. -/
theorem Ongoing.new (registry : OciClientConfig) (policy : HotReloadPolicy) :
  (Server.new registry policy : Server κ).Ongoing
  := by
  constructor
  · rintro r o ⟨⟩
  · rintro r ⟨⟩
  · rintro now rest ⟨⟩

/-- A tenant that is registered is there. -/
theorem mem_snapshot_insert {s : Server κ} {id : TenantId} {r r' : ℕ}
    (h : r' ∈ (s.tenants.insert id r).entries.map Sigma.snd) :
  r' = r ∨ r' ∈ s.snapshotTenants
  := by
  rw [AList.entries_insert, List.map_cons, List.mem_cons] at h
  apply h.imp_right
  intro h
  apply (List.Sublist.map Sigma.snd (List.kerase_sublist id s.tenants.entries)).subset h

/-- Every step keeps what is going on in order. -/
theorem Ongoing.step {s t : Server κ} {a : ServerAction} (hs : s.Ongoing)
    (h : s.step C a = some t) :
  t.Ongoing
  := by
  have hmutex : ∀ (r : ℕ) (o : Served κ), t.objects[r]? = some o → o.calls.MutexOk := by
    intro r o ho
    cases hold : s.objects[r]? with
    | none =>
        obtain ⟨-, env, cfg, tenant, -, -, rfl⟩ := appears C h ho hold
        have hinit := Invocations.MutexOk.init tenant
        exact ⟨hinit.locked, hinit.held⟩
    | some old =>
        obtain ⟨o', ho', hevolved⟩ := evolves C h hold
        obtain rfl := Option.some.inj (ho.symm.trans ho')
        apply Served.mutexOk_evolve C (hs.mutex r old hold) hevolved
  cases stepped C h with
  | unloaded _ _ => exact ⟨hmutex, hs.mapped, hs.visiting⟩
  | loaded _ _ _ _ =>
      have hlt : ∀ r, r < s.objects.length → ∀ o, r < (s.objects ++ [o]).length := by
        intro r hr o
        rw [List.length_append, List.length_singleton]
        omega
      use hmutex
      · intro r hr
        obtain rfl | hr := mem_snapshot_insert hr
        · rw [List.length_append, List.length_singleton]
          omega
        · apply hlt r (hs.mapped r hr)
      · intro now rest hpass r hr
        apply hlt r (hs.visiting now rest hpass r hr)
  | begun _ _ =>
      use hmutex, hs.mapped
      rintro now rest ⟨⟩
  | snapshotted _ horder =>
      use hmutex, hs.mapped
      rintro now rest ⟨⟩ r hr
      apply hs.mapped r (horder.subset hr)
  | @polled env now r rest o _ hpass _ _ _ =>
      use hmutex
      · intro r' hr'
        rw [List.length_set]
        apply hs.mapped r' hr'
      · intro now' rest' hpass' r' hr'
        rw [List.length_set]
        cases houtcome : (o.poll C s.registry s.policy now env).2 with
        | ok _ =>
            simp only [houtcome] at hpass'
            obtain ⟨rfl, rfl⟩ := ReloadPass.visiting.inj hpass'
            apply hs.visiting _ _ hpass r' (List.mem_cons_of_mem r hr')
        | error e =>
            simp only [houtcome] at hpass'
            cases hpass'
  | finished _ =>
      use hmutex, hs.mapped
      rintro now rest ⟨⟩
  | invoked _ _ _ =>
      use hmutex
      · intro r hr
        rw [List.length_set]
        apply hs.mapped r hr
      · intro now rest hpass r hr
        rw [List.length_set]
        apply hs.visiting now rest hpass r hr
  | ticked =>
      use hmutex
      · intro r hr
        rw [List.length_map]
        apply hs.mapped r hr
      · intro now rest hpass r hr
        rw [List.length_map]
        apply hs.visiting now rest hpass r hr

/-- The step is the next one of an invocation of the tenant `r` that is underway. -/
def IsNext (r : ℕ) (answers : ℕ → Answers) (s : Server κ) (a : ServerAction) : Prop :=
  ∃ o b, s.objects[r]? = some o ∧ o.calls.IsNext answers b ∧ a = .invoke r b

/-- Steps of the invocations of a tenant are steps of the server. -/
theorem lift_run {s : Server κ} {r : ℕ} {o : Served κ} (ho : s.objects[r]? = some o)
    {answers : ℕ → Answers} {bs : List InvokeAction} {calls : Invocations κ}
    (hmeets : (invokeMachine C).Meets (Invocations.IsNext answers) o.calls bs)
    (hrun : (invokeMachine C).run o.calls bs = some calls) :
  ∃ t, (serverMachine C).Meets (IsNext r answers) s (bs.map (.invoke r))
    ∧ (serverMachine C).run s (bs.map (.invoke r)) = some t
    ∧ t.objects[r]? = some { o with calls }
  := by
  induction bs generalizing s o with
  | nil =>
      obtain rfl := Option.some.inj hrun
      exact ⟨s, trivial, rfl, ho⟩
  | cons b bs ih =>
      obtain ⟨hnext, hmeets⟩ := hmeets
      obtain ⟨next, hb, hrun⟩ := (invokeMachine C).run_cons.mp hrun
      have hinvocation : b.isInvocation = true := by
        obtain ⟨i, hi⟩ := hnext
        generalize o.calls.calls i = phase at hi
        cases phase with
        | idle => cases hi
        | finished outcome => cases hi
        | _ =>
            obtain rfl := Option.some.inj hi
            rfl
      have hstep : s.step C (.invoke r b)
          = some { s with objects := s.objects.set r { o with calls := next } } := by
        have hb' : o.calls.step C b = some next := hb
        simp [step, hinvocation, ho, hb']
      have hget : (s.objects.set r { o with calls := next })[r]? = some { o with calls := next } :=
        List.getElem?_set_self (List.getElem?_eq_some_iff.mp ho).1
      obtain ⟨t, hmeets', hrun', ht⟩ :=
        ih (s := { s with objects := s.objects.set r { o with calls := next } }) hget
          (hmeets next hb) hrun
      refine ⟨t, ⟨⟨o, b, ho, hnext, rfl⟩, ?_⟩, (serverMachine C).run_cons.mpr ⟨_, hstep, hrun'⟩, ht⟩
      intro t' ht'
      obtain rfl := Option.some.inj (hstep.symm.trans ht')
      apply hmeets'

/-! ### The reload pass -/

/-- The step is the next one of the reload pass, when `upstream r` is what a pull for the tenant
`r` meets. -/
def PassNext (upstream : ℕ → Upstream) (s : Server κ) (a : ServerAction) : Prop :=
  match s.pass with
  | .idle => False
  | .started _ => a = .snapshot s.snapshotTenants
  | .visiting _ [] => a = .finish
  | .visiting _ (r :: _) => ∃ env, env.upstream = upstream r ∧ a = .poll env

/-- How many steps the reload pass can still take. -/
def passLength (s : Server κ) : ℕ :=
  match s.pass with
  | .idle => 0
  | .started _ => s.snapshotTenants.length + 2
  | .visiting _ rest => rest.length + 1

/-- A reload pass that is not over can take its next step, which brings it closer to its end. -/
theorem Ongoing.approach {s : Server κ} (hs : s.Ongoing) (hpass : s.pass ≠ .idle)
    (upstream : ℕ → Upstream) :
  ∃ a t, s.PassNext upstream a ∧ s.step C a = some t ∧ t.Ongoing ∧ t.passLength < s.passLength
  := by
  cases hcase : s.pass with
  | idle => exact absurd hcase hpass
  | started now =>
      have hstep : s.step C (.snapshot s.snapshotTenants)
          = some { s with pass := .visiting now s.snapshotTenants } := by
        simp only [Server.step, hcase]
        exact if_pos (List.Perm.refl _)
      refine ⟨.snapshot s.snapshotTenants, _, ?_, hstep, hs.step C hstep, ?_⟩
      · simp only [PassNext, hcase]
      · simp only [passLength, hcase]
        exact Nat.lt_succ_self _
  | visiting now rest =>
      cases rest with
      | nil =>
          have hstep : s.step C .finish = some { s with pass := .idle } := by
            simp only [Server.step, hcase]
          refine ⟨.finish, _, ?_, hstep, hs.step C hstep, ?_⟩
          · simp only [PassNext, hcase]
          · simp only [passLength, hcase]
            exact Nat.zero_lt_succ _
      | cons r rest =>
          have hr : r < s.objects.length := hs.visiting now _ hcase r List.mem_cons_self
          let env : PollEnv :=
            { upstream := upstream r, activatedAt := s.clock, lastSwap := s.clock }
          have hstep : ∃ t, s.step C (.poll env) = some t
              ∧ t.pass = .after now rest
                (s.objects[r].poll C s.registry s.policy now env).2 := by
            simp [Server.step, hcase, hr, env]
          obtain ⟨t, hstep, ht⟩ := hstep
          refine ⟨.poll env, t, ?_, hstep, hs.step C hstep, ?_⟩
          · simp only [PassNext, hcase]
            exact ⟨env, rfl, rfl⟩
          · simp only [passLength, hcase, ht]
            cases (s.objects[r].poll C s.registry s.policy now env).2 with
            | ok _ => exact Nat.lt_succ_self _
            | error e => exact Nat.zero_lt_succ _

end Server

/-- Take any run of the server, with any loads, reload passes and invocations interleaved.  Every
invocation that is underway can be completed by steps of the invocations of its own tenant,
whatever the instantiations and the guests come to, with nothing cancelled: no other tenant and no
reload pass stands in its way.  And the reload pass can be finished by steps of its own, whatever
the registry answers: no invocation stands in its way. -/
theorem server_completes {registry : OciClientConfig} {policy : HotReloadPolicy}
    {actions : List ServerAction} {s : Server κ}
    (hrun : (serverMachine C).run (Server.new registry policy) actions = some s) :
  (∀ (r i : ℕ) (o : Served κ), s.objects[r]? = some o → (o.calls.calls i).Underway → ∀ answers,
      ∃ as t, (serverMachine C).Meets (Server.IsNext r answers) s as
        ∧ (serverMachine C).run s as = some t
        ∧ ∃ o' outcome, t.objects[r]? = some o' ∧ o'.calls.calls i = .finished outcome)
    ∧ ∀ upstream, ∃ as t, (serverMachine C).Meets (Server.PassNext upstream) s as
        ∧ (serverMachine C).run s as = some t ∧ t.pass = .idle
  := by
  have hs : s.Ongoing := by
    apply (serverMachine C).run_invariant _ (Server.Ongoing.new registry policy) hrun
    intro s a t hs h
    apply hs.step C h
  constructor
  · intro r i o ho hi answers
    obtain ⟨bs, calls, hmeets, hcalls, outcome, hdone⟩ :=
      (hs.mutex r o ho).completes C (Invocations.started_of_underway hi) answers
    obtain ⟨t, hmeets', hrun', ht⟩ := Server.lift_run C ho hmeets hcalls
    exact ⟨_, t, hmeets', hrun', _, outcome, ht, hdone⟩
  · intro upstream
    have hstep : ∀ s : Server κ, s.Ongoing → s.pass ≠ .idle →
        ∃ a t, s.PassNext upstream a ∧ (serverMachine C).step s a = some t ∧ t.Ongoing
          ∧ t.passLength < s.passLength := by
      intro s hs hpass
      apply hs.approach C hpass upstream
    obtain ⟨as, t, hmeets, hrun, -, hidle⟩ := (serverMachine C).exists_run hstep hs
    exact ⟨as, t, hmeets, hrun, hidle⟩

/-- While the guest of the tenant `echo` is called, a reload pass has read the clock, and the
registry is unreachable.  The pass can be finished, and the call can be completed. -/
theorem server_completes_echo :
  ∃ s, (serverMachine sampleCrates).run (Server.new {} {}) (calledRun [] ++ [.begin 0]) = some s
    ∧ s.pass = .started 0
    ∧ (∃ as t, (serverMachine sampleCrates).run s as = some t
        ∧ ∃ o outcome, t.objects[0]? = some o ∧ o.calls.calls 0 = .finished outcome)
    ∧ ∃ as t, (serverMachine sampleCrates).run s as = some t ∧ t.pass = .idle
  := by
  have hrun := (Machine.run_cons (serverMachine sampleCrates)).mpr
    ⟨echoServer, step_loadEcho, (rfl : (serverMachine sampleCrates).run echoServer
      ((calledRun []).tail ++ [.begin 0]) = some _)⟩
  obtain ⟨hinvocations, hpass⟩ := server_completes sampleCrates hrun
  refine ⟨_, hrun, rfl, ?_, ?_⟩
  · obtain ⟨as, t, -, has, hdone⟩ := hinvocations 0 0 _ rfl trivial fun _ =>
      { host := sampleHost, instantiated := .ok (), result := .elapsed, elapsed := 0 }
    exact ⟨as, t, has, hdone⟩
  · obtain ⟨as, t, -, has, hidle⟩ := hpass fun _ => unreachableUpstream
    exact ⟨as, t, has, hidle⟩

end Ember
