import Mathlib.Tactic

/-!
# Visitors of keyed entries

A visitor builds a value from the entries of a record, one after the other.  It knows a list of
fields, and `set` says what an entry for one of them does to the value built so far.  A second
entry for the same field is an error.  An entry for anything else is an error when the visitor
denies unknown fields, and is skipped otherwise.
-/

universe u

/-- A visitor of entries with keys `κ` and values `ν`, which builds a `σ` or fails with an `ε`. -/
structure Visitor (κ ν σ ε : Type u) where
  fields : List κ
  denyUnknown : Bool
  set : σ → κ → ν → Except ε σ
  unknownField : κ → ε
  duplicateField : κ → ε

namespace Visitor

variable {κ ν σ ε : Type u} [DecidableEq κ] (V : Visitor κ ν σ ε)

/-- Visit entries, where `seen` are the fields that were given already. -/
def visit (seen : List κ) (s : σ) : List (κ × ν) → Except ε σ
  | [] => .ok s
  | (key, value) :: rest =>
      if key ∈ V.fields then
        if key ∈ seen then .error (V.duplicateField key)
        else
          match V.set s key value with
          | .error e => .error e
          | .ok s => visit (key :: seen) s rest
      else if V.denyUnknown then .error (V.unknownField key)
      else visit seen s rest

variable {V}

/-- An entry of a successful visit is for a field, whose value was accepted, or it was skipped
because the visitor does not deny unknown fields. -/
theorem visit_ok {entries : List (κ × ν)} :
  ∀ {seen : List κ} {s t : σ}, V.visit seen s entries = .ok t →
    ∀ e ∈ entries, (e.1 ∈ V.fields ∧ ∃ s s', V.set s e.1 e.2 = .ok s')
      ∨ (e.1 ∉ V.fields ∧ V.denyUnknown = false)
  := by
  induction entries with
  | nil =>
      intro seen s t _
      apply List.forall_mem_nil
  | cons entry rest ih =>
      obtain ⟨key, value⟩ := entry
      intro seen s t h
      rw [List.forall_mem_cons]
      rw [visit] at h
      split at h
      next hfield =>
        split at h
        · cases h
        · cases hset : V.set s key value with
          | error e => simp [hset] at h
          | ok s' =>
              rw [hset] at h
              exact ⟨.inl ⟨hfield, s, s', hset⟩, ih h⟩
      next hfield =>
        split at h
        · cases h
        next hdeny => exact ⟨.inr ⟨hfield, eq_false_of_ne_true hdeny⟩, ih h⟩

/-- The keys of a successful visit are fields, when the visitor denies unknown ones. -/
theorem mem_fields_of_visit (hdeny : V.denyUnknown = true) {entries : List (κ × ν)}
    {seen : List κ} {s t : σ} (h : V.visit seen s entries = .ok t) :
  ∀ e ∈ entries, e.1 ∈ V.fields
  := by
  intro e he
  rcases visit_ok h e he with ⟨hfield, -⟩ | ⟨-, hskip⟩
  · apply hfield
  · rw [hdeny] at hskip
    cases hskip

/-- The value of a field in a successful visit was accepted. -/
theorem set_of_visit {entries : List (κ × ν)} {seen : List κ} {s t : σ}
    (h : V.visit seen s entries = .ok t) {key : κ} {value : ν} (he : (key, value) ∈ entries)
    (hfield : key ∈ V.fields) :
  ∃ s s', V.set s key value = .ok s'
  := by
  rcases visit_ok h _ he with ⟨-, hset⟩ | ⟨hskip, -⟩
  · apply hset
  · exact absurd hfield hskip

end Visitor
