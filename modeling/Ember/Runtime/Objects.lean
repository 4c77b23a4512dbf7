import Ember.Runtime.Server

/-!
# The server, one tenant at a time

A step of the server leaves the tenants where they are in its list.  What it does to one of
them is a visit of the reload loop, a step of one of its invocations, a tick of the engine, or
nothing (`Server.evolves`); and a tenant that is new after the step was just loaded
(`Server.appears`).
-/

namespace Ember

variable {κ : Type} (C : Crates κ)

/-- An invocation does not swap the component. -/
theorem InvokeAction.ne_swap {b : InvokeAction} (hb : b.isInvocation = true) :
  ∀ loaded env, b ≠ .swap loaded env
  := by
  rintro loaded env rfl
  cases hb

/-- What the step `a` of the server `s` can do to the tenant `o` at `r`. -/
inductive Served.Evolved (s : Server κ) (a : ServerAction) (r : ℕ) (o : Served κ) : Served κ → Prop
  | kept : Evolved s a r o o
  | polled {env : PollEnv} {now : Instant} {rest : List ℕ} (ha : a = .poll env)
      (hpass : s.pass = .visiting now (r :: rest)) :
      Evolved s a r o (o.poll C s.registry s.policy now env).1
  | invoked {b : InvokeAction} {calls : Invocations κ} (ha : a = .invoke r b)
      (hb : b.isInvocation = true) (hstep : o.calls.step C b = some calls) :
      Evolved s a r o { o with calls }
  | ticked (ha : a = .tick) : Evolved s a r o o.tick

namespace Server

variable {s t : Server κ} {a : ServerAction}

/-- Replacing the tenant at `r'` leaves the one at `r` as it is, or replaces it. -/
theorem getElem?_set_cases {l : List (Served κ)} {r : ℕ} {o : Served κ} (r' : ℕ)
    (new : Served κ) (ho : l[r]? = some o) :
  (r' = r ∧ (l.set r' new)[r]? = some new) ∨ (r' ≠ r ∧ (l.set r' new)[r]? = some o)
  := by
  obtain rfl | hne := eq_or_ne r' r
  · left
    use rfl
    apply List.getElem?_set_self (List.getElem?_eq_some_iff.mp ho).1
  · right
    use hne
    rw [List.getElem?_set_ne hne]
    apply ho

/-- A step keeps every tenant in its place. -/
theorem evolves (h : s.step C a = some t) {r : ℕ} {o : Served κ} (ho : s.objects[r]? = some o) :
  ∃ o', t.objects[r]? = some o' ∧ o.Evolved C s a r o'
  := by
  cases a with
  | load env cfg =>
      rw [step] at h
      split at h
      next hclock =>
        obtain rfl := Option.some.inj h
        use o
        constructor
        · rw [loadTenant]
          split
          · apply ho
          · rw [List.getElem?_append_left (List.getElem?_eq_some_iff.mp ho).1]
            apply ho
        · exact .kept
      · cases h
  | begin now =>
      rw [step] at h
      split at h
      next hpass =>
        split at h
        next hnow =>
          obtain rfl := Option.some.inj h
          exact ⟨o, ho, .kept⟩
        · cases h
      · cases h
  | snapshot order =>
      rw [step] at h
      split at h
      next now hpass =>
        split at h
        next horder =>
          obtain rfl := Option.some.inj h
          exact ⟨o, ho, .kept⟩
        · cases h
      · cases h
  | poll env =>
      rw [step] at h
      split at h
      next now r' rest hpass =>
        split at h
        · cases h
        next o' ho' =>
          split at h
          next hclock =>
            obtain rfl := Option.some.inj h
            obtain ⟨rfl, hget⟩ | ⟨-, hget⟩ := getElem?_set_cases r'
              (o'.poll C s.registry s.policy now env).1 ho
            · obtain rfl := Option.some.inj (ho.symm.trans ho')
              exact ⟨_, hget, .polled rfl hpass⟩
            · exact ⟨o, hget, .kept⟩
          · cases h
      · cases h
  | finish =>
      rw [step] at h
      split at h
      next now hpass =>
        obtain rfl := Option.some.inj h
        exact ⟨o, ho, .kept⟩
      · cases h
  | invoke r' b =>
      rw [step] at h
      split at h
      next hb =>
        split at h
        · cases h
        next o' ho' =>
          obtain ⟨calls, hstep, rfl⟩ := Option.map_eq_some_iff.mp h
          obtain ⟨rfl, hget⟩ | ⟨-, hget⟩ := getElem?_set_cases r' { o' with calls } ho
          · obtain rfl := Option.some.inj (ho.symm.trans ho')
            exact ⟨_, hget, .invoked rfl hb hstep⟩
          · exact ⟨o, hget, .kept⟩
      · cases h
  | tick =>
      obtain rfl := Option.some.inj h
      use o.tick
      constructor
      · rw [List.getElem?_map, ho]
        rfl
      · exact .ticked rfl

/-- A tenant that was not there before the step was just loaded. -/
theorem appears (h : s.step C a = some t) {r : ℕ} {o : Served κ} (ho : t.objects[r]? = some o)
    (hnone : s.objects[r]? = none) :
  r = s.objects.length ∧ ∃ env cfg tenant, a = .load env cfg
    ∧ Tenant.activate C s.registry env cfg = .ok tenant ∧ o = Served.init tenant
  := by
  have hlength : s.objects.length ≤ r := List.getElem?_eq_none_iff.mp hnone
  have hlt : r < t.objects.length := (List.getElem?_eq_some_iff.mp ho).1
  cases stepped C h with
  | unloaded _ _ => cases hnone.symm.trans ho
  | begun _ _ => cases hnone.symm.trans ho
  | snapshotted _ _ => cases hnone.symm.trans ho
  | finished _ => cases hnone.symm.trans ho
  | loaded ha _ _ hactivate =>
      obtain rfl : r = s.objects.length := by
        rw [List.length_append, List.length_singleton] at hlt
        omega
      use rfl
      rw [List.getElem?_append_right le_rfl, Nat.sub_self] at ho
      exact ⟨_, _, _, ha, hactivate, (Option.some.inj ho).symm⟩
  | polled _ _ _ _ _ =>
      rw [List.length_set] at hlt
      omega
  | invoked _ _ _ =>
      rw [List.length_set] at hlt
      omega
  | ticked =>
      rw [List.length_map] at hlt
      omega

end Server

end Ember
