import Mathlib.Data.List.TakeWhile
import Mathlib.Tactic

/-!
# Streaks of a history

A history is a list, the latest entry first.  A streak is a stretch of entries that all satisfy
`p`, and the current one is `List.takeWhile p`.  A bound on all streaks is kept when an entry is
added, provided the current streak keeps to it afterwards (`streaks_cons`).
-/

universe u

section Streak

variable {α : Type u} (p : α → Bool)

/-- All streaks of the history satisfy `Q`. -/
def Streaks (Q : List α → Prop) (l : List α) : Prop :=
  ∀ block, block <:+: l → (∀ x ∈ block, p x = true) → Q block

variable {p} {x : α} {l : List α}

/-- A streak at the beginning of the history is part of the current one. -/
theorem prefix_takeWhile {block : List α} (hpre : block <+: l)
    (hblock : ∀ x ∈ block, p x = true) :
  block <+: l.takeWhile p
  := by
  obtain ⟨rest, rfl⟩ := hpre
  rw [List.takeWhile_append_of_pos hblock]
  apply List.prefix_append

/-- There is no streak in the empty history but the empty one. -/
theorem streaks_nil {Q : List α → Prop} (hnil : Q []) :
  Streaks p Q []
  := by
  intro block hinfix _
  rw [List.infix_nil.mp hinfix]
  apply hnil

/-- The streaks after an entry is added: those before, and the starts of the current one. -/
theorem streaks_cons {Q : List α → Prop} (hQ : ∀ b b', b <+: b' → Q b' → Q b)
    (hl : Streaks p Q l) (hstreak : Q ((x :: l).takeWhile p)) :
  Streaks p Q (x :: l)
  := by
  intro block hinfix hblock
  rcases List.infix_cons_iff.mp hinfix with hpre | hinfix
  · apply hQ _ _ (prefix_takeWhile hpre hblock) hstreak
  · apply hl block hinfix hblock

end Streak
