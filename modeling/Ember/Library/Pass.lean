import Mathlib.Data.List.AList
import Mathlib.Tactic

/-!
# Passes over a finite map

A pass visits the keys of a list in order.  A visit replaces the value at its key, reports
events, and may fail; the first failure ends the pass.  A visit looks at no other value, so
the value at a key after a pass over distinct keys is either the visited one or the old one,
according to whether the pass reaches the key.
-/

universe u v w x

/-- What a visit makes of a value. -/
structure Visit (β : Type v) (μ : Type w) (ε : Type x) where
  value : β
  events : List μ
  outcome : Except ε Unit

namespace AList

variable {κ : Type u} {β : Type v} {μ : Type w} {ε : Type x} [DecidableEq κ]
variable (visit : κ → β → Visit β μ ε)

/-- Visit the keys of a list in order, until one fails. -/
def pass (m : AList fun _ : κ => β) : List κ → Visit (AList fun _ : κ => β) μ ε
  | [] => { value := m, events := [], outcome := .ok () }
  | k :: ks =>
      match m.lookup k with
      | none => pass m ks
      | some v =>
          let r := visit k v
          match r.outcome with
          | .error e => { value := m.insert k r.value, events := r.events, outcome := .error e }
          | .ok () =>
              let rest := pass (m.insert k r.value) ks
              { rest with events := r.events ++ rest.events }

/-- The pass over `ks` reaches `k`: no visit before `k` fails. -/
def Reaches (m : AList fun _ : κ => β) (ks : List κ) (k : κ) : Prop :=
  ∀ j ∈ ks.takeWhile (· ≠ k), ∀ v, m.lookup j = some v → (visit j v).outcome = .ok ()

/-- How a pass begins: it skips a key that is not bound, stops at a visit that fails, or goes
on from the visited value. -/
theorem pass_cons (m : AList fun _ : κ => β) (j : κ) (ks : List κ) :
  (m.lookup j = none ∧ m.pass visit (j :: ks) = m.pass visit ks)
    ∨ ∃ v, m.lookup j = some v
        ∧ ((∃ e, (visit j v).outcome = .error e
              ∧ (m.pass visit (j :: ks)).value = m.insert j (visit j v).value
              ∧ (m.pass visit (j :: ks)).events = (visit j v).events)
          ∨ (visit j v).outcome = .ok ()
              ∧ (m.pass visit (j :: ks)).value
                = ((m.insert j (visit j v).value).pass visit ks).value
              ∧ (m.pass visit (j :: ks)).events
                = (visit j v).events ++ ((m.insert j (visit j v).value).pass visit ks).events)
  := by
  cases hv : m.lookup j with
  | none =>
      left
      simp [pass, hv]
  | some v =>
      right
      use v, rfl
      cases houtcome : (visit j v).outcome with
      | error e =>
          left
          simp [pass, hv, houtcome]
      | ok _ =>
          right
          simp [pass, hv, houtcome]

/-- A pass leaves the values at the keys it does not visit as they are. -/
theorem lookup_pass_of_notMem {ks : List κ} {k : κ} (hk : k ∉ ks) (m : AList fun _ : κ => β) :
  (m.pass visit ks).value.lookup k = m.lookup k
  := by
  induction ks generalizing m with
  | nil => rfl
  | cons j ks ih =>
      rw [List.mem_cons, not_or] at hk
      obtain ⟨-, heq⟩ | ⟨v, -, ⟨e, -, heq, -⟩ | ⟨-, heq, -⟩⟩ := m.pass_cons visit j ks
      · rw [heq, ih hk.2]
      · rw [heq, AList.lookup_insert_ne hk.1]
      · rw [heq, ih hk.2, AList.lookup_insert_ne hk.1]

/-- A property that every visit preserves is preserved by a pass. -/
theorem pass_induct {P : κ → β → Prop} (hvisit : ∀ k v, P k v → P k (visit k v).value)
    (ks : List κ) {m : AList fun _ : κ => β} (hm : ∀ k v, m.lookup k = some v → P k v) :
  ∀ k v, (m.pass visit ks).value.lookup k = some v → P k v
  := by
  induction ks generalizing m with
  | nil => exact hm
  | cons j ks ih =>
      have hinsert : ∀ v, m.lookup j = some v →
          ∀ k v', (m.insert j (visit j v).value).lookup k = some v' → P k v' := by
        intro v hv k v' hv'
        obtain rfl | hne := eq_or_ne k j
        · rw [AList.lookup_insert, Option.some.injEq] at hv'
          rw [← hv']
          apply hvisit k v (hm k v hv)
        · rw [AList.lookup_insert_ne hne] at hv'
          apply hm k v' hv'
      obtain ⟨-, heq⟩ | ⟨v, hv, ⟨e, -, heq, -⟩ | ⟨-, heq, -⟩⟩ := m.pass_cons visit j ks
      · rw [heq]
        apply ih hm
      · rw [heq]
        apply hinsert v hv
      · rw [heq]
        apply ih (hinsert v hv)

/-- Inserting at the visited key does not change what the rest of the pass reaches. -/
theorem reaches_cons {m : AList fun _ : κ => β} {j k : κ} {ks : List κ} (hne : j ≠ k)
    (hj : j ∉ ks) {v : β} (hv : m.lookup j = some v) (v' : β) :
  Reaches visit m (j :: ks) k
    ↔ (visit j v).outcome = .ok () ∧ Reaches visit (m.insert j v') ks k
  := by
  have hrest : ∀ i ∈ ks.takeWhile (· ≠ k), (m.insert j v').lookup i = m.lookup i := by
    intro i hi
    apply AList.lookup_insert_ne
    rintro rfl
    apply hj (List.takeWhile_prefix _ |>.subset hi)
  rw [Reaches, Reaches, List.takeWhile_cons_of_pos (by simpa using hne), List.forall_mem_cons]
  constructor
  · rintro ⟨hfirst, hothers⟩
    constructor
    · apply hfirst v hv
    · intro i hi w hw
      rw [hrest i hi] at hw
      apply hothers i hi w hw
  · rintro ⟨hfirst, hothers⟩
    constructor
    · intro w hw
      obtain rfl := Option.some.inj (hv.symm.trans hw)
      apply hfirst
    · intro i hi w hw
      rw [← hrest i hi] at hw
      apply hothers i hi w hw

/-- A pass reaches the key it starts at. -/
theorem reaches_self (m : AList fun _ : κ => β) (k : κ) (ks : List κ) :
  Reaches visit m (k :: ks) k
  := by
  intro j hj
  simp at hj

/-- A key that is not bound is no obstacle to a pass. -/
theorem reaches_cons_of_none {m : AList fun _ : κ => β} {j k : κ} {ks : List κ} (hne : j ≠ k)
    (hnone : m.lookup j = none) :
  Reaches visit m (j :: ks) k ↔ Reaches visit m ks k
  := by
  rw [Reaches, Reaches, List.takeWhile_cons_of_pos (by simpa using hne), List.forall_mem_cons]
  simp [hnone]

/-- A pass over distinct keys that reaches a key visits the value there, and one that does
not leaves it. -/
theorem lookup_pass {ks : List κ} (hks : ks.Nodup) {k : κ} (hk : k ∈ ks)
    {m : AList fun _ : κ => β} {v : β} (hv : m.lookup k = some v) :
  (Reaches visit m ks k → (m.pass visit ks).value.lookup k = some (visit k v).value)
    ∧ (¬Reaches visit m ks k → (m.pass visit ks).value.lookup k = some v)
  := by
  -- along the keys before `k`, the map changes only at keys that are not visited again
  induction ks generalizing m with
  | nil => cases hk
  | cons j ks ih =>
      rw [List.nodup_cons] at hks
      obtain rfl | hne := eq_or_ne k j
      · constructor
        · intro _
          obtain ⟨hnone, -⟩ | ⟨w, hw, hcases⟩ := m.pass_cons visit k ks
          · rw [hnone] at hv
            cases hv
          · obtain rfl := Option.some.inj (hv.symm.trans hw)
            obtain ⟨e, -, heq, -⟩ | ⟨-, heq, -⟩ := hcases
            · rw [heq, AList.lookup_insert]
            · rw [heq, lookup_pass_of_notMem visit hks.1, AList.lookup_insert]
        · intro hnot
          exact absurd (reaches_self visit m k ks) hnot
      · have hk' : k ∈ ks := (List.mem_cons.mp hk).resolve_left hne
        obtain ⟨hnone, heq⟩ | ⟨w, hw, hcases⟩ := m.pass_cons visit j ks
        · rw [heq, reaches_cons_of_none visit hne.symm hnone]
          apply ih hks.2 hk' hv
        · have hv' : (m.insert j (visit j w).value).lookup k = some v :=
            (AList.lookup_insert_ne hne).trans hv
          rw [reaches_cons visit hne.symm hks.1 hw (visit j w).value]
          obtain ⟨e, he, heq, -⟩ | ⟨hok, heq, -⟩ := hcases
          · rw [heq, he]
            constructor
            · rintro ⟨⟨⟩, -⟩
            · intro _
              apply hv'
          · obtain ⟨hvisited, hleft⟩ := ih hks.2 hk' hv'
            rw [heq]
            constructor
            · rintro ⟨-, hreach⟩
              apply hvisited hreach
            · intro hnot
              apply hleft
              intro hreach
              apply hnot ⟨hok, hreach⟩

/-- The events of a pass over distinct keys are those of the visits to the keys it reaches. -/
theorem mem_events_pass {ks : List κ} (hks : ks.Nodup) {m : AList fun _ : κ => β} {e : μ} :
  e ∈ (m.pass visit ks).events
    ↔ ∃ k ∈ ks, Reaches visit m ks k ∧ ∃ v, m.lookup k = some v ∧ e ∈ (visit k v).events
  := by
  induction ks generalizing m with
  | nil => simp [pass]
  | cons j ks ih =>
      rw [List.nodup_cons] at hks
      have hne : ∀ k ∈ ks, j ≠ k := by
        rintro k hk rfl
        apply hks.1 hk
      rw [List.exists_mem_cons_iff]
      simp only [reaches_self, true_and]
      obtain ⟨hnone, heq⟩ | ⟨v, hv, ⟨e', he', -, heq⟩ | ⟨hok, -, heq⟩⟩ := m.pass_cons visit j ks
      · rw [heq, ih hks.2, hnone]
        simp only [reduceCtorEq, false_and, exists_false, false_or]
        apply exists_congr
        intro k
        apply and_congr_right
        intro hk
        rw [reaches_cons_of_none visit (hne k hk) hnone]
      · rw [heq, hv]
        constructor
        · intro he
          left
          use v
        · rintro (⟨_, ⟨⟩, he⟩ | ⟨k, hk, hreach, -⟩)
          · apply he
          · rw [reaches_cons visit (hne k hk) hks.1 hv v, he'] at hreach
            cases hreach.1
      · rw [heq, List.mem_append, ih hks.2, hv]
        simp only [Option.some.injEq, exists_eq_left']
        apply or_congr_right
        apply exists_congr
        intro k
        apply and_congr_right
        intro hk
        rw [reaches_cons visit (hne k hk) hks.1 hv (visit j v).value, hok,
          AList.lookup_insert_ne (hne k hk).symm]
        simp

end AList
