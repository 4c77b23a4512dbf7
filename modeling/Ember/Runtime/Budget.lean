import Ember.Runtime.Instances

/-!
# The epoch budget of an invocation

The deadline of a store is set when the store is created, to the epoch of that moment plus
the budget of the tenant.  An instance taken from the pool keeps the deadline it was created
with, so the ticks that passed since are missing from the budget of the invocation that takes
it.  `invoke_budget_iff` says in which runs every invocation gets its full budget.
-/

namespace Ember

variable {κ : Type} (C : Crates κ)

namespace Invocations

/-- Every guest call has the full budget, counted from the epoch in which its invocation
entered `acquire`. -/
def Budgeted (s : Invocations κ) : Prop :=
  ∀ i inv p, s.calls i = .calling inv p →
    inv.entered + max s.tenant.sandbox.limits.maxEpochDelta 1 ≤ p.store.epochDeadline

/-- If the step takes an instance from the pool, then the deadline of the instance was not
set before the epoch in which the invocation entered `acquire`. -/
def WarmInTime (s : Invocations κ) (a : InvokeAction) : Prop :=
  ∀ i inv ctx p queue, a = .lock i → s.calls i = .waiting inv ctx →
    InstancePool.scan inv.active.loaded.digest s.tenant.pool.queue = (some p, queue) →
    inv.entered ≤ p.store.armedAt

/-- No step changes the sandbox of the tenant or turns the epoch back. -/
theorem Stepped.sandbox_eq {s t : Invocations κ} {a : InvokeAction} (h : s.Stepped C a t) :
  t.tenant.sandbox = s.tenant.sandbox ∧ s.epoch ≤ t.epoch
  := by
  cases h with
  | ticked ha => exact ⟨rfl, Nat.le_succ _⟩
  | _ => exact ⟨rfl, Nat.le_refl _⟩

/-- An invocation that waits in `acquire` after a step did so before, or has just entered. -/
theorem Stepped.ctx {s t : Invocations κ} {a : InvokeAction} (h : s.Stepped C a t) {j : ℕ}
    {inv : Invocation κ} {ctx : HostCtx} (hctx : (t.calls j).ctx = some (inv, ctx)) :
  (s.calls j).ctx = some (inv, ctx)
    ∨ (inv.entered = s.epoch ∧ ctx.sandbox = s.tenant.sandbox ∧ ctx.egress = s.tenant.bridge)
  := by
  obtain heq | hmoved := h.moved C j
  · rw [heq] at hctx
    left
    apply hctx
  · generalize s.calls j = old at hmoved ⊢
    generalize t.calls j = new at hmoved hctx
    cases hmoved with
    | entered hnew =>
        right
        obtain ⟨rfl, rfl⟩ := Prod.mk.inj (Option.some.inj hctx)
        use rfl
        apply HostCtx.new_ok hnew
    | missed inv ctx =>
        left
        apply hctx
    | _ => cases hctx

end Invocations

/-- What every run preserves: the limits of the tenant, the bound of the epoch on the epochs
in which invocations entered, and the deadline of an instance being its budget after the
epoch in which it was set. -/
structure DeadlinesOk (limits : SandboxLimits) (s : Invocations κ) : Prop where
  limits_eq : s.tenant.sandbox.limits = limits
  ctx : ∀ i inv ctx, (s.calls i).ctx = some (inv, ctx) →
    inv.entered ≤ s.epoch ∧ ctx.sandbox.limits = limits
  armed : ∀ p, s.lending.Mem p →
    p.store.epochDeadline = p.store.armedAt + max limits.maxEpochDelta 1

/-- Every invocation that holds an instance entered `acquire` no later than in the epoch in
which the deadline of the instance was set. -/
def ServedInTime (s : Invocations κ) : Prop :=
  ∀ i inv p, (s.calls i).serving = some (inv, p) → inv.entered ≤ p.store.armedAt

namespace DeadlinesOk

variable {limits : SandboxLimits} {s t : Invocations κ} {a : InvokeAction}

/-- A tenant without invocations and instances. -/
theorem init {tenant : Tenant κ} (hpool : tenant.pool.queue = []) :
  DeadlinesOk tenant.sandbox.limits (Invocations.init tenant) ∧ ServedInTime (.init tenant)
  := by
  constructor
  · constructor
    · rfl
    · intro i inv ctx h
      cases h
    · rintro p (hp | ⟨i, hp⟩)
      · rw [Invocations.lending, Invocations.init, hpool] at hp
        cases hp
      · cases hp
  · intro i inv p h
    cases h

/-- Every step keeps the deadlines. -/
theorem step (hs : DeadlinesOk limits s) (h : s.Stepped C a t) :
  DeadlinesOk limits t
  := by
  obtain ⟨hsandbox, hepoch⟩ := h.sandbox_eq C
  constructor
  · rw [hsandbox]
    apply hs.limits_eq
  · intro i inv ctx hctx
    obtain hsame | ⟨hentered, hnew, -⟩ := h.ctx C hctx
    · obtain ⟨hle, hlimits⟩ := hs.ctx i inv ctx hsame
      exact ⟨hle.trans hepoch, hlimits⟩
    · rw [hentered, hnew]
      exact ⟨hepoch, hs.limits_eq⟩
  · intro p hp
    obtain hp | ⟨i, inv, ctx, hcall, rfl⟩ := h.mem C hp
    · apply hs.armed p hp
    · have hlimits : ctx.sandbox.limits = limits := by
        apply (hs.ctx i inv ctx _).2
        rw [hcall]
        rfl
      rw [← hlimits]
      rfl

/-- A step that takes an instance in time, or takes none, keeps the invocations in time: an
instance that is built now was armed no earlier than its invocation entered. -/
theorem servedInTime_step (hs : DeadlinesOk limits s) (hserved : ServedInTime s)
    (hwarm : s.WarmInTime a) (h : s.Stepped C a t) :
  ServedInTime t
  := by
  intro i inv p hp
  obtain hsame | ⟨ctx, queue, ha, hcall, hscan⟩ | ⟨ctx, hcall, rfl⟩ := h.serving C hp
  · apply hserved i inv p hsame
  · apply hwarm i inv ctx p queue ha hcall hscan
  · apply (hs.ctx i inv ctx _).1
    rw [hcall]
    rfl

/-- An invocation in time has its full budget. -/
theorem budgeted (hs : DeadlinesOk limits s) (hserved : ServedInTime s) :
  s.Budgeted
  := by
  intro i inv p hcall
  have hserving : (s.calls i).serving = some (inv, p) := by
    rw [hcall]
    rfl
  have harmed := hs.armed p (.inr ⟨i, congrArg (Option.map Prod.snd) hserving⟩)
  rw [hs.limits_eq, harmed]
  apply Nat.add_le_add_right
  apply hserved i inv p hserving

/-- A step after which every call has its full budget takes an instance in time, or none. -/
theorem warmInTime (ht : DeadlinesOk limits t) (h : s.step C a = some t) (hbudget : t.Budgeted) :
  s.WarmInTime a
  := by
  rintro i inv ctx p queue rfl hcall hscan
  rw [Invocations.step, hcall] at h
  cases hmutex : s.mutex with
  | some j =>
      rw [hmutex] at h
      cases h
  | none =>
      rw [hmutex] at h
      simp only [hscan] at h
      obtain rfl := Option.some.inj h
      have hcalling : ((s.setQueue queue).set i (.calling inv p)).calls i = .calling inv p :=
        Function.update_self ..
      have hle := hbudget i inv p hcalling
      have harmed := ht.armed p (.inr ⟨i, congrArg Phase.held hcalling⟩)
      rw [ht.limits_eq, harmed] at hle
      apply Nat.le_of_add_le_add_right hle

end DeadlinesOk

/-- Only a tick changes the epoch. -/
theorem Invocations.Stepped.epoch_eq {s t : Invocations κ} {a : InvokeAction}
    (h : s.Stepped C a t) (ha : a ≠ .tick) :
  t.epoch = s.epoch
  := by
  cases h with
  | ticked htick => exact absurd htick ha
  | _ => rfl

/-- In a run without ticks every instance is taken in the epoch in which it was armed. -/
theorem meets_of_no_tick {tenant : Tenant κ} (hpool : tenant.pool.queue = [])
    {actions : List InvokeAction} (hactions : ∀ a ∈ actions, a ≠ .tick) :
  (invokeMachine C).Meets Invocations.WarmInTime (Invocations.init tenant) actions
  := by
  apply (invokeMachine C).meets_of_invariant
    (I := fun s => DeadlinesOk tenant.sandbox.limits s ∧ s.epoch = 0) _ _
    ⟨(DeadlinesOk.init hpool).1, rfl⟩ hactions
  · rintro s a t ⟨hs, hepoch⟩ ha h
    have hstepped := Invocations.stepped C h
    exact ⟨hs.step C hstepped, (hstepped.epoch_eq C ha).trans hepoch⟩
  · rintro s a ⟨hs, hepoch⟩ - i inv ctx p queue - hcall -
    have hle : inv.entered ≤ s.epoch := by
      apply (hs.ctx i inv ctx _).1
      rw [hcall]
      rfl
    rw [hepoch] at hle
    apply hle.trans (Nat.zero_le _)

/-- Take any run of invocations of an activated tenant with swaps and ticks.  Every guest call
begins with a deadline of at least the full budget after the epoch in which its invocation
entered `acquire`, in all states of the run, exactly when no step of the run takes an instance
from the pool whose deadline was set in an earlier epoch than that. -/
theorem invoke_budget_iff {registry : OciClientConfig} {env : LoadEnv} {cfg : TenantConfig}
    {tenant : Tenant κ} (hactivate : Tenant.activate C registry env cfg = .ok tenant)
    {actions : List InvokeAction} {s : Invocations κ}
    (hrun : (invokeMachine C).run (Invocations.init tenant) actions = some s) :
  (invokeMachine C).Always Invocations.Budgeted (Invocations.init tenant) actions
    ↔ (invokeMachine C).Meets Invocations.WarmInTime (Invocations.init tenant) actions
  := by
  have hpool : tenant.pool.queue = [] := by
    obtain ⟨_, _, _, _, _, -, -, -, -, -, -, rfl⟩ := (Tenant.activate_ok C).mp hactivate
    rfl
  obtain ⟨hdeadlines, hserved⟩ := DeadlinesOk.init hpool
  apply (invokeMachine C).always_iff_meets (I := DeadlinesOk tenant.sandbox.limits)
    (J := ServedInTime) _ _ _ _ hdeadlines hserved hrun
  · intro s a t hs h
    apply hs.step C (Invocations.stepped C h)
  · intro s a t hs h
    apply (hs.step C (Invocations.stepped C h)).warmInTime C h
  · intro s a t hs hserved hwarm h
    apply hs.servedInTime_step C hserved hwarm (Invocations.stepped C h)
  · intro s hs hserved
    apply hs.budgeted hserved

/-- When no tick passes between the first invocation and the second, both get their full
budget. -/
theorem invoke_budget_full :
  (invokeMachine sampleCrates).Always Invocations.Budgeted (Invocations.init sampleTenant)
    (warmRun 0)
  := by
  apply (invoke_budget_iff sampleCrates activate_sampleTenant rfl).mpr
  apply meets_of_no_tick sampleCrates rfl
  simp [warmRun]

/-- When one tick passes between the first invocation and the second, the second calls the
pooled instance with a deadline short of its full budget. -/
theorem invoke_budget_short :
  Tenant.activate sampleCrates {} fileLoadEnv fileConfig = .ok sampleTenant
    ∧ ∃ s inv p,
      (invokeMachine sampleCrates).run (Invocations.init sampleTenant) (warmRun 1) = some s
        ∧ s.calls 1 = .calling inv p
        ∧ p.store.epochDeadline < inv.entered + max s.tenant.sandbox.limits.maxEpochDelta 1
  := ⟨activate_sampleTenant, _, _, _, rfl, rfl, by decide⟩

end Ember
