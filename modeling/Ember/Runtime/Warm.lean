import Ember.Runtime.Drain
import Ember.Runtime.Live

/-!
# How many instances are built

An invocation builds an instance only when it has emptied the queue, so right after a build the
live instances are those held.  Hence a tenant has at most as many live instances as it ever has
invocations that hold one at the same time, whatever is swapped in between.  And while its
component is not swapped, no instance is thrown away: those built are alive or were dropped by an
invocation.  So however many requests it serves, a tenant builds no more instances than
invocations hold at the same time, and one for each that was dropped (`invoke_builds`).
-/

namespace Ember

variable {κ : Type} (C : Crates κ)

/-- In a queue of instances of one digest, a scan for it takes the first. -/
theorem InstancePool.scan_uniform {digest : String} {queue rest : List (Prepared κ)}
    {found : Option (Prepared κ)} (hqueue : ∀ p ∈ queue, p.digest = digest)
    (h : scan digest queue = (found, rest)) :
  queue = found.toList ++ rest
  := by
  cases queue with
  | nil =>
      obtain ⟨rfl, rfl⟩ := Prod.mk.inj h
      rfl
  | cons p queue =>
      rw [scan, if_pos (hqueue p List.mem_cons_self)] at h
      obtain ⟨rfl, rfl⟩ := Prod.mk.inj h
      rfl

namespace Invocations

/-- At most `n` invocations hold an instance after the step. -/
def LeadsBelow (n : ℕ) (s : Invocations κ) (a : InvokeAction) : Prop :=
  ∀ t, s.step C a = some t → t.lending.lent ≤ n

/-- A step after which at most `n` invocations hold an instance keeps at most `n` instances
alive. -/
theorem Stepped.live_le {s t : Invocations κ} {a : InvokeAction} (h : s.Stepped C a t)
    (hlocked : s.Locked) {n : ℕ} (hlive : s.lending.live ≤ n) (hlent : t.lending.lent ≤ n) :
  t.lending.live ≤ n
  := by
  obtain hle | ⟨i, inv, ctx, -, hcall, -⟩ := h.live C
  · apply hle.trans hlive
  · -- the instance is built with the queue empty
    have hqueue : t.lending.queue = [] := by
      apply h.queue_eq_nil C hlocked (i := i)
      rw [hcall]
      rfl
    rw [Lending.live, hqueue, List.length_nil, Nat.cast_zero, add_zero]
    apply hlent

/-- While all instances in the queue have the digest that the invocations look for, a step throws
none of them away. -/
theorem Stepped.mem_of_mem_queue {s t : Invocations κ} {a : InvokeAction} (h : s.Stepped C a t)
    (hdigest : ∀ p ∈ s.tenant.pool.queue, ∀ i g, (s.calls i).snapshot = some g →
      p.digest = g.loaded.digest) :
  ∀ p ∈ s.lending.queue, t.lending.Mem p
  := by
  have hscanned : ∀ {i : ℕ} {inv : Invocation κ} {ctx : HostCtx} {found : Option (Prepared κ)}
      {rest : List (Prepared κ)}, s.calls i = .waiting inv ctx →
      InstancePool.scan inv.active.loaded.digest s.tenant.pool.queue = (found, rest) →
      s.tenant.pool.queue = found.toList ++ rest := by
    intro i inv ctx found rest hcall hscan
    apply InstancePool.scan_uniform _ hscan
    intro p hp
    apply hdigest p hp i
    rw [hcall]
    rfl
  have hrelease : ∀ p q, p ∈ s.tenant.pool.queue → p ∈ (s.release q).tenant.pool.queue := by
    intro p q hp
    obtain ⟨-, ⟨-, heq⟩ | heq⟩ := InstancePool.release_queue s.tenant.pool q
    · rw [release, heq]
      apply List.mem_append_left _ hp
    · rw [release, heq]
      apply hp
  intro p hp
  replace hp : p ∈ s.tenant.pool.queue := hp
  cases h with
  | @took i inv ctx q queue ha hcall hscan hmutex =>
      rw [hscanned hcall hscan] at hp
      obtain rfl | hp := List.mem_cons.mp hp
      · right
        use i
        rw [lending_set]
        apply Function.update_self
      · left
        apply hp
  | missed hcall hscan ha hmutex =>
      rw [hscanned hcall hscan] at hp
      left
      apply hp
  | panicked hcall hmutex =>
      left
      apply hrelease p _ hp
  | returned hcall hmutex hresp ha =>
      left
      apply hrelease p _ hp
  | _ =>
      left
      apply hp

/-- The instances that were built are alive or were dropped by an invocation. -/
def Conserved (s : Invocations κ) : Prop :=
  s.lending.live + s.retired.length = s.nextInstance

/-- While the tenant has one generation, a step keeps account of the instances. -/
theorem Stepped.conserved {s t : Invocations κ} {a : InvokeAction} {cap : ℕ}
    (h : s.Stepped C a t) (hs : InstancesOk C cap s) (hsingle : t.generations.length = 1)
    (hconserved : s.generations.length = 1 → s.Conserved) :
  t.Conserved
  := by
  have hgenerations : s.generations = t.generations := by
    obtain ⟨heq, -⟩ | ⟨g, heq, -⟩ := InstancesOk.generations_step C h
    · apply heq.symm
    · rw [heq, List.length_cons, Nat.add_eq_right, List.length_eq_zero_iff] at hsingle
      have hactive := hs.active
      rw [hsingle] at hactive
      cases hactive
  rw [← hgenerations] at hsingle
  obtain ⟨g, hg⟩ := List.length_eq_one_iff.mp hsingle
  have hkeep : ∀ p ∈ s.lending.queue, t.lending.Mem p := by
    apply h.mem_of_mem_queue C
    intro p hp i g' hg'
    obtain ⟨g'', hmem, hdigest, -⟩ := hs.built p (.inl hp)
    have hmem' := hs.snapshot i g' hg'
    rw [hg, List.mem_singleton] at hmem hmem'
    rw [← hdigest, hmem', hmem]
    apply (hs.generation g _).1
    rw [hg]
    apply List.mem_singleton_self
  have hlending := h.lending C
  rw [hs.cap_eq] at hlending
  have hbalance := hlending.conserve hs.lending hkeep
  replace hbalance : t.lending.live + t.retired.length + s.nextInstance
      = s.lending.live + s.retired.length + t.nextInstance := hbalance
  rw [hconserved hsingle, add_comm (s.nextInstance : ℕ∞)] at hbalance
  apply WithTop.add_right_cancel _ hbalance
  apply ENat.natCast_ne_top

end Invocations

/-- Take any run of invocations of an activated tenant with swaps and ticks.  All along the run at
most `n` instances are alive, held or queued, exactly when all along the run at most `n` invocations
hold one.  And when no swap has replaced the component, the instances built are those alive and
those that invocations have dropped: so at most `n` instances are built, and one for each that was
dropped. -/
theorem invoke_builds {registry : OciClientConfig} {env : LoadEnv} {cfg : TenantConfig}
    {tenant : Tenant κ} (hactivate : Tenant.activate C registry env cfg = .ok tenant)
    {actions : List InvokeAction} {s : Invocations κ}
    (hrun : (invokeMachine C).run (Invocations.init tenant) actions = some s) (n : ℕ) :
  ((invokeMachine C).Always (fun s => s.lending.lent ≤ n) (Invocations.init tenant) actions
      ↔ (invokeMachine C).Always (fun s => s.lending.live ≤ n) (Invocations.init tenant) actions)
    ∧ (s.generations.length = 1 →
        s.lending.live + s.retired.length = s.nextInstance
          ∧ ((invokeMachine C).Always (fun s => s.lending.lent ≤ n) (Invocations.init tenant)
              actions → s.nextInstance ≤ n + s.retired.length))
  := by
  have hinit : (Invocations.init tenant).lending.live = 0 := by
    obtain ⟨_, _, _, _, _, -, -, -, -, -, -, rfl⟩ := (Tenant.activate_ok C).mp hactivate
    simp [Lending.live, Lending.lent, census_eq_zero, Invocations.lending, Invocations.init,
      Phase.held, Phase.serving, InstancePool.new]
  have hlent : (invokeMachine C).Always (fun s => s.lending.lent ≤ n) (Invocations.init tenant)
      actions ↔ (invokeMachine C).Meets (Invocations.LeadsBelow C n) (Invocations.init tenant)
        actions := by
    apply (invokeMachine C).always_iff_meets (I := fun _ => True) (J := fun s => s.lending.lent ≤ n)
      _ _ _ _ trivial _ hrun
    · intro _ _ _ _ _
      trivial
    · intro s a t _ h ht t' h'
      obtain rfl := Option.some.inj (h.symm.trans h')
      apply ht
    · intro s a t _ _ hleads h
      apply hleads t h
    · intro s _ hs
      apply hs
    · apply le_self_add.trans (hinit.trans_le zero_le)
  have hlive : (invokeMachine C).Always (fun s => s.lending.live ≤ n) (Invocations.init tenant)
      actions ↔ (invokeMachine C).Meets (Invocations.LeadsBelow C n) (Invocations.init tenant)
        actions := by
    apply (invokeMachine C).always_iff_meets (I := Invocations.Locked)
      (J := fun s => s.lending.live ≤ n) _ _ _ _ _ _ hrun
    · intro s a t hlocked h
      apply (Invocations.stepped C h).locked C hlocked
    · intro s a t _ h ht t' h'
      obtain rfl := Option.some.inj (h.symm.trans h')
      apply le_self_add.trans ht
    · intro s a t hlocked hs hleads h
      apply (Invocations.stepped C h).live_le C hlocked hs (hleads t h)
    · intro s _ hs
      apply hs
    · intro i hi
      cases hi
    · rw [hinit]
      apply zero_le
  constructor
  · rw [hlent, hlive]
  · intro hsingle
    have hs : InstancesOk C tenant.pool.cap s
        ∧ (s.generations.length = 1 → s.Conserved) := by
      apply (invokeMachine C).run_invariant (I := fun s => InstancesOk C tenant.pool.cap s
        ∧ (s.generations.length = 1 → s.Conserved)) _ _ hrun
      · rintro s a t ⟨hs, hconserved⟩ h
        have hstepped := Invocations.stepped C h
        use hs.step C hstepped
        intro hsingle
        apply hstepped.conserved C hs hsingle hconserved
      · use InstancesOk.init C hactivate
        intro _
        rw [Invocations.Conserved, hinit]
        rfl
    have hconserved := hs.2 hsingle
    use hconserved
    intro halways
    have hle : (s.lending.live : ℕ∞) ≤ n :=
      (hlive.mpr (hlent.mp halways)) actions s List.prefix_rfl hrun
    apply ENat.natCast_le_natCast.mp
    rw [← hconserved]
    push_cast
    gcongr

/-- Two invocations of `echo` after each other build one instance, which is alive. -/
theorem invoke_builds_warm :
  ∃ s, (invokeMachine sampleCrates).run (Invocations.init sampleTenant) (warmRun 0) = some s
    ∧ s.nextInstance = 1 ∧ s.retired = [] ∧ s.lending.live = 1
  := by
  have hrun : ∃ s, (invokeMachine sampleCrates).run (Invocations.init sampleTenant) (warmRun 0)
      = some s ∧ s.nextInstance = 1 ∧ s.retired = [] ∧ s.generations.length = 1 :=
    ⟨_, rfl, rfl, rfl, rfl⟩
  obtain ⟨s, hs, hnext, hretired, hsingle⟩ := hrun
  obtain ⟨hconserved, -⟩ := (invoke_builds sampleCrates activate_sampleTenant hs 1).2 hsingle
  use s, hs, hnext, hretired
  rw [hnext, hretired] at hconserved
  simpa using hconserved

end Ember
