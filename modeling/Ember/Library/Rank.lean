import Ember.Library.Machine

/-!
# Ranks

A rank is a number that the steps of a machine lower.  The steps that lower it are no more than
the rank at the start (`Machine.countP_le`).  When in every state that is not done some step
lowers it, a run to a state that is done exists (`Machine.exists_run`).
-/

universe u v

namespace Machine

variable {σ : Type u} {α : Type v} (M : Machine σ α)

/-- When no step raises the rank, and those satisfying `p` lower it, a run has at most as many
steps satisfying `p` as the rank goes down. -/
theorem countP_le {f : σ → ℕ} {p : α → Bool}
    (hle : ∀ s a t, M.step s a = some t → f t ≤ f s)
    (hlt : ∀ s a t, M.step s a = some t → p a = true → f t < f s) {s t : σ} {as : List α}
    (hrun : M.run s as = some t) :
  as.countP p + f t ≤ f s
  := by
  induction as generalizing s with
  | nil =>
      obtain rfl := Option.some.inj ((M.run_nil s).symm.trans hrun)
      rw [List.countP_nil, zero_add]
  | cons a as ih =>
      obtain ⟨r, hr, hrun⟩ := M.run_cons.mp hrun
      have hrest := ih hrun
      by_cases ha : p a = true
      · have hfirst := hlt s a r hr ha
        rw [List.countP_cons_of_pos ha]
        omega
      · have hfirst := hle s a r hr
        rw [List.countP_cons_of_neg ha]
        omega

/-- When in every state of the invariant that is not done some step that satisfies `P` lowers the
rank and keeps the invariant, there is a run of such steps to a state that is done. -/
theorem exists_run {I D : σ → Prop} {P : σ → α → Prop} {f : σ → ℕ}
    (hstep : ∀ s, I s → ¬D s → ∃ a t, P s a ∧ M.step s a = some t ∧ I t ∧ f t < f s) {s : σ}
    (hs : I s) :
  ∃ as t, M.Meets P s as ∧ M.run s as = some t ∧ I t ∧ D t
  := by
  induction hf : f s using Nat.strong_induction_on generalizing s with
  | _ n ih =>
      by_cases hdone : D s
      · use [], s
        exact ⟨trivial, M.run_nil s, hs, hdone⟩
      · obtain ⟨a, r, ha, hr, hI, hlt⟩ := hstep s hs hdone
        obtain ⟨as, t, has, hrun, ht⟩ := ih (f r) (hf ▸ hlt) hI rfl
        use a :: as, t
        refine ⟨⟨ha, ?_⟩, M.run_cons.mpr ⟨r, hr, hrun⟩, ht⟩
        intro r' hr'
        obtain rfl := Option.some.inj (hr.symm.trans hr')
        apply has

end Machine
