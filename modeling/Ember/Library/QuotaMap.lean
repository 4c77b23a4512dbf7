import Mathlib.Data.List.AList
import Mathlib.Tactic

/-!
# Finite maps with a quota

The weight of a finite map is the sum of the sizes of its values.  A quota'd map is a finite
map together with a quota that its weight does not exceed.  Its transitions are those of a
store which may refuse to bind a key, but only ever binds one within the quota.
-/

universe u v

section Weight

variable {κ : Type u} {β : Type v} [DecidableEq κ] (size : β → ℕ)

/-- The sum of the sizes of the values of a map. -/
def AList.weight (m : AList fun _ : κ => β) : ℕ := (m.entries.map fun e => size e.2).sum

/-- The size of the value at a key, zero if there is none. -/
def AList.weightAt (m : AList fun _ : κ => β) (k : κ) : ℕ := (m.lookup k).elim 0 size

/-- Erasing a key from a list of entries takes away the size of the value found there. -/
theorem List.sum_kerase (k : κ) (l : List (Σ _ : κ, β)) :
  ((l.kerase k).map fun e => size e.2).sum + (l.dlookup k).elim 0 size
    = (l.map fun e => size e.2).sum
  := by
  induction l with
  | nil => rfl
  | cons e l ih =>
      obtain ⟨k', v⟩ := e
      by_cases hk : k = k'
      · subst hk
        have hkerase : List.kerase k (⟨k, v⟩ :: l) = l := by simp
        rw [hkerase, List.dlookup_cons_eq, List.map_cons, List.sum_cons, Nat.add_comm]
        rfl
      · rw [List.kerase_cons_ne hk, List.dlookup_cons_ne l ⟨k', v⟩ hk]
        rw [List.map_cons, List.sum_cons, List.map_cons, List.sum_cons, Nat.add_assoc, ih]

namespace AList

variable (m : AList fun _ : κ => β) (k : κ)

/-- Erasing a key takes away the size of its value. -/
theorem weight_erase :
  (m.erase k).weight size + m.weightAt size k = m.weight size
  := List.sum_kerase size k m.entries

/-- Binding a key replaces the size of its value. -/
theorem weight_insert (v : β) :
  (m.insert k v).weight size + m.weightAt size k = m.weight size + size v
  := by
  have herase : (m.erase k).weight size + m.weightAt size k = m.weight size :=
    m.weight_erase size k
  have hinsert : (m.insert k v).weight size = size v + (m.erase k).weight size := by
    rw [weight, AList.entries_insert, List.map_cons, List.sum_cons]
    rfl
  omega

/-- No value outweighs the map. -/
theorem weightAt_le_weight :
  m.weightAt size k ≤ m.weight size
  := by
  rw [← m.weight_erase size k]
  apply Nat.le_add_left _ _

/-- The weight at a bound key is the size of its value. -/
theorem weightAt_of_lookup {m : AList fun _ : κ => β} {k : κ} {v : β} (h : m.lookup k = some v) :
  m.weightAt size k = size v
  := by
  rw [weightAt, h]
  rfl

end AList

end Weight

/-- A finite map from `κ` to `β` whose weight does not exceed a quota. -/
structure QuotaMap (κ : Type u) (β : Type v) [DecidableEq κ] (size : β → ℕ) where
  map : AList fun _ : κ => β
  quota : ℕ
  within : map.weight size ≤ quota

namespace QuotaMap

variable {κ : Type u} {β : Type v} [DecidableEq κ] {size : β → ℕ}

/-- The map without keys. -/
def empty (quota : ℕ) : QuotaMap κ β size where
  map := ∅
  quota := quota
  within := Nat.zero_le _

/-- The sum of the sizes of the values. -/
def total (m : QuotaMap κ β size) : ℕ := m.map.weight size

/-- The value at a key. -/
def get (m : QuotaMap κ β size) (k : κ) : Option β := m.map.lookup k

/-- Bind a key, provided the weight stays within the quota. -/
def put (m : QuotaMap κ β size) (k : κ) (v : β) (h : (m.map.insert k v).weight size ≤ m.quota) :
    QuotaMap κ β size where
  map := m.map.insert k v
  quota := m.quota
  within := h

/-- Unbind a key. -/
def erase (m : QuotaMap κ β size) (k : κ) : QuotaMap κ β size where
  map := m.map.erase k
  quota := m.quota
  within := by
    have := m.map.weight_erase size k
    have := m.within
    omega

/-- What an operation on a quota'd map can do. -/
inductive Step : QuotaMap κ β size → QuotaMap κ β size → Prop
  | keep (m) : Step m m
  | put (m k v h) : Step m (m.put k v h)
  | erase (m k) : Step m (m.erase k)

/-- The value at a key is within the total. -/
theorem size_le_total {m : QuotaMap κ β size} {k : κ} {v : β} (h : m.get k = some v) :
  size v ≤ m.total
  := by
  rw [← AList.weightAt_of_lookup size h]
  apply m.map.weightAt_le_weight size k

/-- No step changes the quota. -/
theorem Step.quota_eq {m m' : QuotaMap κ β size} (h : Step m m') :
  m'.quota = m.quota
  := by
  cases h
  all_goals rfl

end QuotaMap
