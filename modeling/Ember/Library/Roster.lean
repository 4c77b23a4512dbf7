import Mathlib.Data.List.AList
import Mathlib.Tactic

/-!
# Filling a finite map from a list

`insertAll key m vs` inserts the values of a list one after the other, each at its key.  A
value inserted at a key in use replaces the one that is there, so a map filled from nothing
has as many entries as the list has values exactly when the keys of the values are distinct
(`length_insertAll_iff`).
-/

universe u v

namespace AList

variable {κ : Type u} {β : Type v} [DecidableEq κ]
variable (key : β → κ)

/-- Insert the values of a list in order, each at its key. -/
def insertAll (m : AList fun _ : κ => β) : List β → AList fun _ : κ => β
  | [] => m
  | v :: vs => insertAll (m.insert (key v) v) vs

/-- The keys of a filled map are the old ones and those of the values. -/
theorem mem_insertAll {vs : List β} {k : κ} (m : AList fun _ : κ => β) :
  k ∈ insertAll key m vs ↔ k ∈ m ∨ k ∈ vs.map key
  := by
  induction vs generalizing m with
  | nil => simp [insertAll]
  | cons v vs ih =>
      rw [insertAll, ih, AList.mem_insert, List.map_cons, List.mem_cons]
      tauto

/-- A filled map keeps its values at the keys that no value has. -/
theorem lookup_insertAll_of_notMem {vs : List β} {k : κ} (hk : k ∉ vs.map key)
    (m : AList fun _ : κ => β) :
  (insertAll key m vs).lookup k = m.lookup k
  := by
  induction vs generalizing m with
  | nil => rfl
  | cons v vs ih =>
      rw [List.map_cons, List.mem_cons, not_or] at hk
      rw [insertAll, ih hk.2, AList.lookup_insert_ne hk.1]

/-- When the keys of the values are distinct, a filled map has every value at its key. -/
theorem lookup_insertAll_of_nodup {vs : List β} (hvs : (vs.map key).Nodup) {v : β} (hv : v ∈ vs)
    (m : AList fun _ : κ => β) :
  (insertAll key m vs).lookup (key v) = some v
  := by
  induction vs generalizing m with
  | nil => cases hv
  | cons w vs ih =>
      rw [List.map_cons, List.nodup_cons] at hvs
      rw [insertAll]
      obtain rfl | hmem := List.mem_cons.mp hv
      · rw [lookup_insertAll_of_notMem key hvs.1, AList.lookup_insert]
      · apply ih hvs.2 hmem

/-- A map filled from nothing has an entry for every value exactly when the keys of the values
are distinct. -/
theorem length_insertAll_iff (vs : List β) :
  (insertAll key ∅ vs).keys.length = vs.length ↔ (vs.map key).Nodup
  := by
  have hkeys : (insertAll key ∅ vs).keys.toFinset = (vs.map key).toFinset := by
    ext k
    rw [List.mem_toFinset, List.mem_toFinset, ← AList.mem_keys, mem_insertAll]
    simp
  have hcard : (insertAll key ∅ vs).keys.length = (vs.map key).toFinset.card := by
    rw [← hkeys, List.toFinset_card_of_nodup (AList.keys_nodup _)]
  have hlength : vs.length = Multiset.card (vs.map key : Multiset κ) := by
    rw [Multiset.coe_card, List.length_map]
  rw [hcard, hlength, ← Multiset.coe_nodup, ← List.toFinset_coe]
  apply Multiset.toFinset_card_eq_card_iff_nodup

end AList
