import Ember.Library.Machine
import Mathlib.Algebra.BigOperators.Group.List.Basic
import Mathlib.Data.Nat.Cast.Basic
import Mathlib.Tactic

/-!
# Tallies along a run

`Machine.trace` lists the events of a run, step by step.  A quantity of the state that every step
changes by what it has of two kinds of events changes along a run by what the run has of them
(`Machine.trace_balance`).

The quantity may be a sum over a list of components, of which a step replaces one
(`List.sum_map_set`).
-/

universe u v w x

namespace Machine

variable {σ : Type u} {α : Type v} {ε : Type w} (M : Machine σ α) (events : σ → α → List ε)

/-- The events of a run, where `events s a` are those of the action `a` in the state `s`. -/
def trace : σ → List α → List ε
  | _, [] => []
  | s, a :: as => events s a ++ (M.step s a).elim [] fun t => trace t as

/-- The events of a run satisfy `P` exactly when those of each of its actions do. -/
theorem forall_mem_trace {P : ε → Prop} {s : σ} {as : List α} :
  (∀ e ∈ M.trace events s as, P e) ↔ M.Meets (fun s a => ∀ e ∈ events s a, P e) s as
  := by
  induction as generalizing s with
  | nil => simp [trace, Meets]
  | cons a as ih =>
      rw [trace, List.forall_mem_append, Meets]
      apply and_congr_right
      intro _
      cases M.step s a with
      | none => simp
      | some t => simp [ih]

/-- A quantity that every step raises by the events satisfying `q` and lowers by those satisfying
`p` is raised and lowered by a run in the same way. -/
theorem trace_balance {A : Type x} [AddCommMonoidWithOne A] {f : σ → A} {p q : ε → Bool}
    (hstep : ∀ s a t, M.step s a = some t →
      f t + ((events s a).countP p : A) = f s + ((events s a).countP q : A)) {s t : σ}
    {as : List α} (hrun : M.run s as = some t) :
  f t + ((M.trace events s as).countP p : A) = f s + ((M.trace events s as).countP q : A)
  := by
  induction as generalizing s with
  | nil =>
      obtain rfl := Option.some.inj ((M.run_nil s).symm.trans hrun)
      simp [trace]
  | cons a as ih =>
      obtain ⟨r, hr, hrun⟩ := M.run_cons.mp hrun
      have hrest := ih hrun
      have hfirst := hstep s a r hr
      simp only [trace, hr, Option.elim_some, List.countP_append, Nat.cast_add]
      generalize M.trace events r as = rest at hrest ⊢
      generalize events s a = first at hfirst ⊢
      calc f t + ((first.countP p : A) + rest.countP p)
          = f t + rest.countP p + first.countP p := by abel
        _ = f r + first.countP p + rest.countP q := by rw [hrest]; abel
        _ = f s + (first.countP q + rest.countP q) := by rw [hfirst]; abel

end Machine

/-- Replacing a component of a sum changes the sum by what it changes the component. -/
theorem List.sum_map_set {α : Type u} {A : Type v} [AddCommMonoid A] {f : α → A} {l : List α}
    {i : ℕ} {old new : α} {a b : A} (hold : l[i]? = some old) (h : f new + a = f old + b) :
  ((l.set i new).map f).sum + a = (l.map f).sum + b
  := by
  induction l generalizing i with
  | nil => simp at hold
  | cons x l ih =>
      cases i with
      | zero =>
          obtain rfl : x = old := by simpa using hold
          simp only [List.set_cons_zero, List.map_cons, List.sum_cons]
          calc f new + (l.map f).sum + a
              = f new + a + (l.map f).sum := by abel
            _ = f x + (l.map f).sum + b := by rw [h]; abel
      | succ i =>
          rw [List.getElem?_cons_succ] at hold
          simp only [List.set_cons_succ, List.map_cons, List.sum_cons]
          rw [add_assoc, ih hold, add_assoc]
