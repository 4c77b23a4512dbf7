import Mathlib.Data.List.Destutter

/-!
# Lists without stuttering

`List.destutter (· ≠ ·)` removes from a list every element that repeats the one before it.  We
add elements at the front: an element is kept exactly when the list does not begin with it
(`destutter_ne_cons_same`, `destutter_ne_cons_new`), so any number of repetitions of one element
adds it at most once (`destutter_ne_append`).
-/

universe u

namespace List

variable {α : Type u} [DecidableEq α] {a : α} {l : List α}

/-- An element the list begins with already adds nothing. -/
theorem destutter_ne_cons_same (h : l.head? = some a) :
  (a :: l).destutter (· ≠ ·) = l.destutter (· ≠ ·)
  := by
  cases l with
  | nil => cases h
  | cons b l =>
      obtain rfl := Option.some.inj h
      rw [destutter_cons_cons, if_neg (not_not.mpr rfl), destutter_cons']

/-- An element the list does not begin with is added. -/
theorem destutter_ne_cons_new (h : l.head? ≠ some a) :
  (a :: l).destutter (· ≠ ·) = a :: l.destutter (· ≠ ·)
  := by
  cases l with
  | nil => rfl
  | cons b l =>
      have hne : a ≠ b := by
        rintro rfl
        apply h rfl
      rw [destutter_cons_cons, if_pos hne, destutter_cons']

/-- Repetitions of one element add it at most once, and if there are any, the list begins with
it. -/
theorem destutter_ne_append {as : List α} (has : ∀ b ∈ as, b = a) (l : List α) :
  (as = [] ∨ (as ++ l).head? = some a)
    ∧ ((as ++ l).destutter (· ≠ ·) = l.destutter (· ≠ ·)
      ∨ (l.head? ≠ some a ∧ (as ++ l).destutter (· ≠ ·) = a :: l.destutter (· ≠ ·)))
  := by
  induction as with
  | nil => exact ⟨.inl rfl, .inl rfl⟩
  | cons b as ih =>
      obtain ⟨rfl, has⟩ := List.forall_mem_cons.mp has
      obtain ⟨hhead, hrest⟩ := ih has
      constructor
      · right
        rfl
      · rw [cons_append]
        obtain rfl | hhead := hhead
        · rw [nil_append]
          by_cases hl : l.head? = some b
          · left
            apply destutter_ne_cons_same hl
          · right
            use hl
            apply destutter_ne_cons_new hl
        · rw [destutter_ne_cons_same hhead]
          apply hrest

end List
