import Mathlib.Data.Set.Card
import Mathlib.Tactic

/-!
# Counting clients

`census P f` is the number of clients whose state satisfies `P`.  A step that moves one client
changes it by at most one, and how depends on whether that client satisfied `P` before and
does so after.
-/

universe u v

section Census

variable {ι : Type u} {α : Type v} (P : α → Prop)

/-- The number of clients in a state that satisfies `P`. -/
noncomputable def census (f : ι → α) : ℕ∞ := { i | P (f i) }.encard

variable {P} {f : ι → α}

/-- No client satisfies `P`. -/
theorem census_eq_zero (h : ∀ i, ¬P (f i)) :
  census P f = 0
  := by
  simp [census, h]

/-- Two clients satisfy `P`. -/
theorem two_le_census {i j : ι} (hne : i ≠ j) (hi : P (f i)) (hj : P (f j)) :
  2 ≤ census P f
  := by
  rw [census, ← Set.encard_pair hne]
  apply Set.encard_le_encard
  rintro k (rfl | rfl)
  · apply hi
  · apply hj

/-- Clients that satisfy one of two properties, which exclude each other. -/
theorem census_or {Q : α → Prop} (h : ∀ x, P x → ¬Q x) :
  census (fun x => P x ∨ Q x) f = census P f + census Q f
  := by
  rw [census, census, census, ← Set.encard_union_eq]
  · rfl
  · rw [Set.disjoint_left]
    intro i
    apply h

variable [DecidableEq ι] {i : ι} {x : α}

/-- A client that satisfies `P` after the step only if it did before adds nothing. -/
theorem census_update_le (h : P x → P (f i)) :
  census P (Function.update f i x) ≤ census P f
  := by
  have hsubset : { j | P (Function.update f i x j) } ⊆ { j | P (f j) } := by
    intro j hj
    obtain rfl | hne := eq_or_ne j i
    · have hx : P x := by simpa using hj
      apply h hx
    · simpa [hne] using hj
  apply Set.encard_le_encard hsubset

/-- A client that comes to satisfy `P` adds one. -/
theorem census_update_add (h : ¬P (f i)) (hx : P x) :
  census P (Function.update f i x) = census P f + 1
  := by
  have heq : { j | P (Function.update f i x j) } = insert i { j | P (f j) } := by
    ext j
    obtain rfl | hne := eq_or_ne j i
    · simp [hx]
    · simp [hne]
  have hnotMem : i ∉ { j | P (f j) } := h
  rw [census, heq, Set.encard_insert_of_notMem hnotMem, census]

/-- A client that ceases to satisfy `P` takes one away. -/
theorem census_update_sub (h : P (f i)) (hx : ¬P x) :
  census P (Function.update f i x) + 1 = census P f
  := by
  have hback := census_update_add (f := Function.update f i x) (x := f i) (i := i) (P := P)
    (by rwa [Function.update_self]) h
  rw [← hback, Function.update_idem, Function.update_eq_self]

/-- A client that satisfies `P` after the step exactly when it did before changes nothing. -/
theorem census_update_same (h : P x ↔ P (f i)) :
  census P (Function.update f i x) = census P f
  := by
  apply le_antisymm (census_update_le h.mp)
  have hback : census P (Function.update (Function.update f i x) i (f i))
      ≤ census P (Function.update f i x) := by
    apply census_update_le
    rw [Function.update_self]
    apply h.mpr
  rwa [Function.update_idem, Function.update_eq_self] at hback

end Census
