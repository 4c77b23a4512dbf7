import Ember.Library.Streak
import Ember.Runtime.Passes

/-!
# Failed pulls

The reload loop counts the failed pulls of a tenant.  The count goes back to zero when a pull
succeeds, unless what was pulled violates the contract or does not compile: such an artifact
ends the pass before the count is reset.  So the count is the number of failed pulls since the
last successful one exactly in the runs in which no artifact ends a pass while failures are
counted (`failures_count_iff`).

When the count reaches the limit, the tenant is parked.  Nothing follows from this for the next
pass: it pulls the tenant again, and parks it again if the pull fails.  So the budget of failed
pulls is kept in the runs in which no pull fails once it is exhausted (`parking_bounded`).
-/

namespace Ember

variable {κ : Type} (C : Crates κ)

/-- The pull failed. -/
def PullRecord.failed (p : PullRecord) : Bool :=
  match p.outcome with
  | .ok _ => false
  | .error _ => true

namespace Served

/-- The failed pulls since the last successful one, or since the tenant was loaded. -/
def failing (o : Served κ) : List PullRecord := o.pulls.takeWhile PullRecord.failed

/-- The count of failures is the number of failed pulls since the last successful one. -/
def Counted (o : Served κ) : Prop := o.calls.tenant.failures = o.failing.length

end Served

/-! ### Counting failures -/

namespace Server

/-- Between two passes, the failures of all tenants are counted. -/
def CountedAfterPass (s : Server κ) : Prop := s.pass = .idle → ∀ o ∈ s.objects, o.Counted

/-- If the step visits a tenant and what is pulled for it ends the pass, then no failure of the
tenant is counted. -/
def EndsUncounted (s : Server κ) (a : ServerAction) : Prop :=
  ∀ env now r rest o, a = .poll env → s.pass = .visiting now (r :: rest) →
    s.objects[r]? = some o → o.calls.tenant.EndsPass C s.registry s.policy now env →
    o.calls.tenant.failures = 0

end Server

/-- A visit keeps the count right, if the tenant has no failures when the visit ends the pass. -/
theorem Served.Counted.poll {registry : OciClientConfig} {policy : HotReloadPolicy}
    {now : Instant} {env : PollEnv} {o : Served κ} (ho : o.Counted)
    (hends : o.calls.tenant.EndsPass C registry policy now env → o.calls.tenant.failures = 0) :
  (o.poll C registry policy now env).1.Counted
  := by
  have h := o.visited C registry policy now env
  generalize o.poll C registry policy now env = r at h
  cases h with
  | skipped _ => apply ho
  | ended _ h => apply hends h
  | swapped _ _ _ _ => rfl
  | same _ _ _ => rfl
  | failed _ _ => apply congrArg Nat.succ ho

namespace Server

/-- A step that ends no pass with failures counted keeps the counts right. -/
theorem Stepped.counted {s t : Server κ} {a : ServerAction} (h : s.Stepped C a t)
    (hs : ∀ o ∈ s.objects, o.Counted) (ha : s.EndsUncounted C a) :
  ∀ o ∈ t.objects, o.Counted
  := by
  apply h.forall_objects C (Q := Served.Counted) hs
  · intro o ho
    apply ho
  · intro env cfg tenant _ _ _ _ hactivate
    obtain ⟨_, _, _, _, _, -, -, -, -, -, -, rfl⟩ := (Tenant.activate_ok C).mp hactivate
    rfl
  · intro env now r rest o hpoll hpass hobject _ _ _ ho
    apply ho.poll C
    apply ha env now r rest o hpoll hpass hobject
  · intro o b calls ho hb hstep
    obtain ⟨-, -, hfailures, -⟩ := Invocations.step_reload_eq C hstep hb
    apply hfailures.trans ho

/-- If a visit ends the pass and the counts are right afterwards, then no failure was counted. -/
theorem endsUncounted {s t : Server κ} {a : ServerAction} (h : s.step C a = some t)
    (ht : t.CountedAfterPass) :
  s.EndsUncounted C a
  := by
  rintro env now r rest o rfl hpass ho hends
  obtain ⟨hvisited, -, -, hafter⟩ := step_poll C hpass ho h
  have hcases := o.visited C s.registry s.policy now env
  generalize o.poll C s.registry s.policy now env = visited at hvisited hafter hcases
  cases hcases with
  | ended _ _ => apply ht hafter _ (List.mem_of_getElem? hvisited)
  | swapped _ hnot _ _ => exact absurd hends hnot
  | same _ hnot _ => exact absurd hends hnot
  | skipped hskip =>
      obtain ⟨loaded, hpull, -⟩ := hends
      exact absurd hpull (hskip _)
  | failed hpull _ =>
      obtain ⟨loaded, hpull', -⟩ := hends
      cases hpull.eq C hpull'

end Server

/-- Take any run of the server.  Between the passes the failures of every tenant are the number of
failed pulls since its last successful pull, or since it was loaded, exactly when no visit that
ends a pass is of a tenant with failures. -/
theorem failures_count_iff {registry : OciClientConfig} {policy : HotReloadPolicy}
    {actions : List ServerAction} {s : Server κ}
    (hrun : (serverMachine C).run (Server.new registry policy) actions = some s) :
  (serverMachine C).Always Server.CountedAfterPass (Server.new registry policy) actions
    ↔ (serverMachine C).Meets (Server.EndsUncounted C) (Server.new registry policy) actions
  := by
  apply (serverMachine C).always_iff_meets (I := fun _ => True)
    (J := fun s => ∀ o ∈ s.objects, o.Counted) _ _ _ _ trivial _ hrun
  · intro s a t _ _
    trivial
  · intro s a t _ h
    apply Server.endsUncounted C h
  · intro s a t _ hs ha h
    apply (Server.stepped C h).counted C hs ha
  · intro s _ hs _
    apply hs
  · apply List.forall_mem_nil

/-- A pass at `now` that visits the first tenant while the registry cannot be reached. -/
def failingPass (now : Instant) : List ServerAction :=
  samplePass now unreachableUpstream ++ [.finish]

/-- The failed pull of `echo` is counted. -/
theorem failures_count_outage :
  (serverMachine sampleCrates).Always Server.CountedAfterPass (Server.new {} {})
    (loadEcho :: failingPass (Duration.ofSecs 5))
  := by
  have hsome : ((serverMachine sampleCrates).run (Server.new {} {})
      (loadEcho :: failingPass (Duration.ofSecs 5))).isSome = true := by
    decide +kernel
  obtain ⟨s, hs⟩ := Option.isSome_iff_exists.mp hsome
  apply (failures_count_iff sampleCrates hs).mpr
  -- nothing is pulled, so nothing ends the pass
  apply (serverMachine sampleCrates).meets_of_invariant (I := fun _ => True)
    (Q := fun a => ∀ s : Server Bytes, s.EndsUncounted sampleCrates a)
  · intro _ _ _ _ _ _
    trivial
  · intro s a _ ha
    apply ha s
  · trivial
  · rintro a ha s env now r rest o rfl _ _ ⟨loaded, ⟨reference, pin, -, -, hpull⟩, -⟩
    obtain rfl : env = ⟨unreachableUpstream, Duration.ofSecs 5, Duration.ofSecs 5⟩ := by
      simpa [loadEcho, failingPass, samplePass] using ha
    exact absurd hpull (pull_unreachable _ _ _ _)

/-- A pass that pulls an artifact without exports for `echo`, after one that could not reach the
registry: the pull succeeds, and a failure is still counted. -/
theorem failures_count_stale :
  ∃ s o, (serverMachine sampleCrates).run (Server.new {} {})
      (loadEcho :: failingPass (Duration.ofSecs 5)
        ++ samplePass (Duration.ofSecs 10) (sampleUpstream emptyComponent)) = some s
    ∧ s.pass = .idle ∧ o ∈ s.objects
    ∧ o.pulls.map PullRecord.failed = [false, true]
    ∧ o.calls.tenant.failures = 1 ∧ ¬o.Counted
  := by
  have hrun : ((serverMachine sampleCrates).run (Server.new {} {})
      (loadEcho :: failingPass (Duration.ofSecs 5)
        ++ samplePass (Duration.ofSecs 10) (sampleUpstream emptyComponent))).map
      (fun s => (s.pass, s.objects.map fun o =>
        (o.pulls.map PullRecord.failed, o.calls.tenant.failures)))
      = some (.idle, [([false, true], 1)]) := by
    decide +kernel
  obtain ⟨s, hs, heq⟩ := Option.map_eq_some_iff.mp hrun
  obtain ⟨hpass, heq⟩ := Prod.mk.inj heq
  obtain ⟨o, hobjects, heq⟩ := List.map_eq_singleton_iff.mp heq
  obtain ⟨hpulls, hfailures⟩ := Prod.mk.inj heq
  refine ⟨s, o, hs, hpass, ?_, hpulls, hfailures, ?_⟩
  · rw [hobjects]
    apply List.mem_singleton_self
  · -- the latest pull succeeded, so the current streak is empty
    intro hcounted
    obtain ⟨latest, rest, hcons, hlatest, -⟩ := List.map_eq_cons_iff.mp hpulls
    rw [Served.Counted, hfailures, Served.failing, hcons,
      List.takeWhile_cons_of_neg (by simp [hlatest])] at hcounted
    cases hcounted

/-! ### Parking -/

/-- How often the tenant was parked in these pulls. -/
def parkedIn (pulls : List PullRecord) : ℕ := (pulls.map fun p => parkings p.events).sum

/-- A streak of failed pulls within the budget: it has at most `budget` pulls, and parks the tenant
at most once. -/
def WithinBudget (budget : ℕ) (pulls : List PullRecord) : Prop :=
  pulls.length ≤ budget ∧ parkedIn pulls ≤ 1

/-- The start of a streak within the budget is within the budget. -/
theorem WithinBudget.of_prefix {budget : ℕ} {pulls pulls' : List PullRecord}
    (hpre : pulls <+: pulls') (h : WithinBudget budget pulls') :
  WithinBudget budget pulls
  := by
  obtain ⟨rest, rfl⟩ := hpre
  obtain ⟨hlength, hparked⟩ := h
  rw [List.length_append] at hlength
  rw [parkedIn, List.map_append, List.sum_append] at hparked
  constructor
  · apply Nat.le_of_add_right_le hlength
  · apply Nat.le_of_add_right_le hparked

namespace Server

/-- All streaks of failed pulls of all tenants are within the budget of the policy. -/
def ParksOnce (s : Server κ) : Prop :=
  ∀ o ∈ s.objects, Streaks PullRecord.failed (WithinBudget s.policy.maxFailedPolls) o.pulls

/-- If the step is a failing pull of a tenant, then the failures of the tenant have not yet
exhausted the budget. -/
def RetriesInBudget (s : Server κ) (a : ServerAction) : Prop :=
  ∀ env now r rest o e, a = .poll env → s.pass = .visiting now (r :: rest) →
    s.objects[r]? = some o → o.calls.tenant.Pulls C s.registry s.policy now env (.error e) →
    o.calls.tenant.failures < s.policy.maxFailedPolls

end Server

/-- The invariant behind parking.  The count of failures covers at least the current streak, which
has parked the tenant only if the count has exhausted the budget. -/
structure Served.Budgeted (policy : HotReloadPolicy) (o : Served κ) : Prop where
  length : o.failing.length ≤ o.calls.tenant.failures
  parked : parkedIn o.failing ≤ if policy.exhausted o.calls.tenant.failures then 1 else 0
  streaks : Streaks PullRecord.failed (WithinBudget policy.maxFailedPolls) o.pulls

namespace Served.Budgeted

variable {policy : HotReloadPolicy} {o : Served κ}

/-- A successful pull ends the current streak, whatever becomes of the count. -/
theorem succeeded (ho : o.Budgeted policy) {o' : Served κ} {loaded : Loaded}
    {events : List MetricUpdate} (hpulls : o'.pulls = ⟨.ok loaded, events⟩ :: o.pulls) :
  o'.Budgeted policy
  := by
  have hfailing : o'.failing = [] := by
    rw [failing, hpulls]
    rfl
  constructor
  · rw [hfailing]
    apply Nat.zero_le
  · rw [hfailing]
    apply Nat.zero_le
  · rw [hpulls]
    apply streaks_cons _ ho.streaks
    · exact ⟨Nat.zero_le _, Nat.zero_le _⟩
    · intro b b' hpre
      apply WithinBudget.of_prefix hpre

/-- A failed pull within the budget extends the current streak, and parks the tenant if it exhausts
the budget. -/
theorem failed (ho : o.Budgeted policy)
    (hbudget : o.calls.tenant.failures < policy.maxFailedPolls) {o' : Served κ} {e : Error}
    {events : List MetricUpdate} (hpulls : o'.pulls = ⟨.error e, events⟩ :: o.pulls)
    (hfailures : o'.calls.tenant.failures = o.calls.tenant.failures + 1)
    (hevents : parkings events = if policy.exhausted (o.calls.tenant.failures + 1) then 1 else 0) :
  o'.Budgeted policy
  := by
  have hfailing : o'.failing = ⟨.error e, events⟩ :: o.failing := by
    rw [failing, hpulls]
    rfl
  -- the streak has not parked the tenant yet
  have hunparked : parkedIn o.failing = 0 := by
    have hparked := ho.parked
    rw [if_neg] at hparked
    · apply Nat.le_zero.mp hparked
    · simpa [HotReloadPolicy.exhausted] using hbudget
  have hparked : parkedIn o'.failing
      = if policy.exhausted (o.calls.tenant.failures + 1) then 1 else 0 := by
    rw [hfailing, parkedIn, List.map_cons, List.sum_cons]
    rw [parkedIn] at hunparked
    rw [hunparked, add_zero, hevents]
  have hlength : o'.failing.length ≤ o.calls.tenant.failures + 1 := by
    rw [hfailing, List.length_cons]
    apply Nat.succ_le_succ ho.length
  constructor
  · rw [hfailures]
    apply hlength
  · rw [hparked, hfailures]
  · rw [hpulls]
    apply streaks_cons _ ho.streaks
    · rw [← hpulls]
      constructor
      · apply hlength.trans hbudget
      · apply hparked.trans_le
        split
        · apply le_rfl
        · apply Nat.zero_le
    · intro b b' hpre
      apply WithinBudget.of_prefix hpre

/-- A visit keeps the invariant, if it retries within the budget. -/
theorem poll {registry : OciClientConfig} {now : Instant} {env : PollEnv} (ho : o.Budgeted policy)
    (hbudget : ∀ e, o.calls.tenant.Pulls C registry policy now env (.error e) →
      o.calls.tenant.failures < policy.maxFailedPolls) :
  (o.poll C registry policy now env).1.Budgeted policy
  := by
  have h := o.visited C registry policy now env
  generalize o.poll C registry policy now env = r at h
  cases h with
  | skipped _ => apply ho
  | ended _ _ =>
      apply ho.succeeded
      rfl
  | swapped _ _ _ _ =>
      apply ho.succeeded
      rfl
  | same _ _ _ =>
      apply ho.succeeded
      rfl
  | failed hpull hevents =>
      apply ho.failed (hbudget _ hpull) rfl rfl hevents

end Served.Budgeted

/-- A step that retries within the budget keeps the invariant. -/
theorem Server.Stepped.budgeted {s t : Server κ} {a : ServerAction} (h : s.Stepped C a t)
    (hs : ∀ o ∈ s.objects, o.Budgeted s.policy) (ha : s.RetriesInBudget C a) :
  ∀ o ∈ t.objects, o.Budgeted t.policy
  := by
  rw [(h.config_eq C).2]
  apply h.forall_objects C (Q := Served.Budgeted s.policy) hs
  · intro o ho
    apply ho
  · intro env cfg tenant _ _ _ _ _
    constructor
    · apply Nat.zero_le
    · apply Nat.zero_le
    · apply streaks_nil
      exact ⟨Nat.zero_le _, Nat.zero_le _⟩
  · intro env now r rest o hpoll hpass hobject _ _ _ ho
    apply ho.poll C
    intro e
    apply ha env now r rest o e hpoll hpass hobject
  · intro o b calls ho hb hstep
    obtain ⟨-, -, hfailures, -⟩ := Invocations.step_reload_eq C hstep hb
    constructor
    · dsimp only
      rw [hfailures]
      apply ho.length
    · dsimp only
      rw [hfailures]
      apply ho.parked
    · apply ho.streaks

/-- Take a run of the server in which no pull of a tenant fails after the failures of the tenant
have exhausted the budget.  All along the run every streak of failed pulls of a tenant has at most
`max_failed_polls` pulls, and parks the tenant at most once. -/
theorem parking_bounded {registry : OciClientConfig} {policy : HotReloadPolicy}
    {actions : List ServerAction}
    (hmeets : (serverMachine C).Meets (Server.RetriesInBudget C) (Server.new registry policy)
      actions) :
  (serverMachine C).Always Server.ParksOnce (Server.new registry policy) actions
  := by
  intro pre t hpre hrun
  have ht : ∀ o ∈ t.objects, o.Budgeted t.policy := by
    apply (serverMachine C).always_of_meets (I := fun s => ∀ o ∈ s.objects, o.Budgeted s.policy) _
      _ hmeets pre t hpre hrun
    · intro s a t hs ha h
      apply (Server.stepped C h).budgeted C hs ha
    · apply List.forall_mem_nil
  intro o ho
  apply (ht o ho).streaks

/-- A run in which tenants are retried within the budget can go on with a visit, when by then no
tenant has exhausted the budget. -/
theorem Server.meets_visit {s : Server κ} {before quiet : List ServerAction} {env : PollEnv}
    (hbefore : (serverMachine C).Meets (RetriesInBudget C) s before)
    (hquiet : ∀ a ∈ quiet, ∀ env, a ≠ .poll env)
    (hbelow : ((serverMachine C).run s (before ++ quiet)).all (fun t =>
      t.objects.all fun o => o.calls.tenant.failures < t.policy.maxFailedPolls) = true) :
  (serverMachine C).Meets (RetriesInBudget C) s (before ++ quiet ++ [.poll env])
  := by
  apply Machine.Meets.append
  · apply Machine.Meets.append _ hbefore
    intro r _
    -- nothing is pulled before the visit
    apply (serverMachine C).meets_of_invariant (I := fun _ => True)
      (Q := fun a => ∀ env, a ≠ .poll env) _ _ trivial hquiet
    · intro _ _ _ _ _ _
      trivial
    · intro s a _ ha env now r rest o e hpoll
      exact absurd hpoll (ha env)
  · intro t ht
    constructor
    · intro env now r rest o e _ _ ho _
      rw [ht, Option.all_some, List.all_eq_true] at hbelow
      apply of_decide_eq_true (hbelow o (List.mem_of_getElem? ho))
    · intro u _
      trivial

/-- From the end of a visit to the next one, at `now`. -/
def untilNextVisit (now : Instant) : List ServerAction := [.finish, .begin now, .snapshot [0]]

/-- Three visits of `echo` in a row while the registry cannot be reached. -/
def threeOutages : List ServerAction :=
  dueRun ++ [.poll outage]
    ++ untilNextVisit (Duration.ofSecs 10)
    ++ [.poll ⟨unreachableUpstream, Duration.ofSecs 10, Duration.ofSecs 10⟩]
    ++ untilNextVisit (Duration.ofSecs 15)
    ++ [.poll ⟨unreachableUpstream, Duration.ofSecs 15, Duration.ofSecs 15⟩]

/-- Three failed pulls of `echo` are within the budget, and the last one parks it. -/
theorem parking_bounded_outage :
  ∃ s o, (serverMachine sampleCrates).run (Server.new {} {}) threeOutages = some s
    ∧ o ∈ s.objects ∧ o.pulls.map PullRecord.failed = [true, true, true]
    ∧ parkedIn o.pulls = 1
    ∧ (serverMachine sampleCrates).Always Server.ParksOnce (Server.new {} {}) threeOutages
  := by
  have hrun : ((serverMachine sampleCrates).run (Server.new {} {}) threeOutages).map
      (fun s => s.objects.map fun o => (o.pulls.map PullRecord.failed, parkedIn o.pulls))
      = some [([true, true, true], 1)] := by
    decide +kernel
  obtain ⟨s, hs, heq⟩ := Option.map_eq_some_iff.mp hrun
  obtain ⟨o, hobjects, heq⟩ := List.map_eq_singleton_iff.mp heq
  obtain ⟨hpulls, hparked⟩ := Prod.mk.inj heq
  have ho : o ∈ s.objects := by
    rw [hobjects]
    apply List.mem_singleton_self
  refine ⟨s, o, hs, ho, hpulls, hparked, ?_⟩
  apply parking_bounded
  have hquiet : ∀ now, ∀ a ∈ untilNextVisit now, ∀ env, a ≠ .poll env := by
    simp [untilNextVisit]
  -- each visit comes while the budget is not exhausted
  have hfirst : (serverMachine sampleCrates).Meets (Server.RetriesInBudget sampleCrates)
      (Server.new {} {}) ([] ++ dueRun ++ [.poll outage]) := by
    apply Server.meets_visit
    · trivial
    · simp [dueRun, loadEcho]
    · decide +kernel
  have hsecond : (serverMachine sampleCrates).Meets (Server.RetriesInBudget sampleCrates)
      (Server.new {} {}) ([] ++ dueRun ++ [.poll outage] ++ untilNextVisit (Duration.ofSecs 10)
        ++ [.poll ⟨unreachableUpstream, Duration.ofSecs 10, Duration.ofSecs 10⟩]) := by
    apply Server.meets_visit sampleCrates hfirst (hquiet _)
    decide +kernel
  apply Server.meets_visit sampleCrates hsecond (hquiet (Duration.ofSecs 15))
  decide +kernel

/-- Four passes in a row fail to pull `echo`: more pulls than the budget allows, and two of them
park the tenant. -/
theorem parking_exceeded :
  ∃ s o, (serverMachine sampleCrates).run (Server.new {} {})
      (loadEcho :: failingPass (Duration.ofSecs 5) ++ failingPass (Duration.ofSecs 10)
        ++ failingPass (Duration.ofSecs 15) ++ failingPass (Duration.ofSecs 20)) = some s
    ∧ s.policy.maxFailedPolls = 3 ∧ o ∈ s.objects
    ∧ o.pulls.map PullRecord.failed = [true, true, true, true]
    ∧ parkedIn o.pulls = 2 ∧ ¬s.ParksOnce
  := by
  have hrun : ((serverMachine sampleCrates).run (Server.new {} {})
      (loadEcho :: failingPass (Duration.ofSecs 5) ++ failingPass (Duration.ofSecs 10)
        ++ failingPass (Duration.ofSecs 15) ++ failingPass (Duration.ofSecs 20))).map
      (fun s => (s.policy.maxFailedPolls, s.objects.map fun o =>
        (o.pulls.map PullRecord.failed, parkedIn o.pulls)))
      = some (3, [([true, true, true, true], 2)]) := by
    decide +kernel
  obtain ⟨s, hs, heq⟩ := Option.map_eq_some_iff.mp hrun
  obtain ⟨hbudget, heq⟩ := Prod.mk.inj heq
  obtain ⟨o, hobjects, heq⟩ := List.map_eq_singleton_iff.mp heq
  obtain ⟨hpulls, hparked⟩ := Prod.mk.inj heq
  have ho : o ∈ s.objects := by
    rw [hobjects]
    apply List.mem_singleton_self
  refine ⟨s, o, hs, hbudget, ho, hpulls, hparked, ?_⟩
  intro hparks
  have hfailed : ∀ p ∈ o.pulls, p.failed = true := by
    intro p hp
    have hmem := List.mem_map_of_mem (f := PullRecord.failed) hp
    rw [hpulls] at hmem
    simpa using hmem
  obtain ⟨-, hle⟩ := hparks o ho o.pulls List.infix_rfl hfailed
  rw [hparked] at hle
  exact absurd hle (by decide)

end Ember
