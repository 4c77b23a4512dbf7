import Ember.Library.Visitor

/-!
# Visitors that set one field at a time

The value a visitor builds is a record: what is given for a field is read, and the field is set
to it.  The fields of a record are independent of each other, so the order of the entries does
not matter.  We say what a visit comes to without following it: no field is given twice, and
each field of the result is what is given for it, or what it was at the start when nothing is
given (`Visitor.Fieldwise.visit_ok_iff`).
-/

universe u

namespace Visitor

/-- A field of the records `σ`: how a value for it is read, and how it is looked up and set. -/
structure Slot (ν σ ε : Type u) where
  Value : Type u
  read : ν → Except ε Value
  get : σ → Value
  put : σ → Value → σ
  get_put (s : σ) (a : Value) : get (put s a) = a

variable {κ ν σ ε : Type u}

/-- The visitor reads a record with these fields. -/
structure Fieldwise (V : Visitor κ ν σ ε) (slots : List (κ × Slot ν σ ε)) : Prop where
  fields : slots.map Prod.fst = V.fields
  once : V.fields.Nodup
  set_eq : ∀ p ∈ slots, ∀ s v, V.set s p.1 v = (p.2.read v).map (p.2.put s)
  /-- Setting a field leaves the others as they are. -/
  frame : ∀ p ∈ slots, ∀ q ∈ slots, p.1 ≠ q.1 → ∀ s a, q.2.get (p.2.put s a) = q.2.get s
  /-- Records with the same fields are equal. -/
  ext {s t : σ} (h : ∀ p ∈ slots, p.2.get s = p.2.get t) : s = t

/-- The entries are well formed: no field is given twice, and every key is a field when the
visitor denies unknown ones. -/
structure Admits [DecidableEq κ] (V : Visitor κ ν σ ε) (entries : List (κ × ν)) : Prop where
  once : ((entries.map Prod.fst).filter (· ∈ V.fields)).Nodup
  known (hdeny : V.denyUnknown = true) : ∀ e ∈ entries, e.1 ∈ V.fields

/-- The field `f`, with the key `key`, is in `t` what the entries give for it, or what it is in
`s` when they give nothing. -/
structure Slot.Decided (f : Slot ν σ ε) (key : κ) (entries : List (κ × ν)) (s t : σ) :
    Prop where
  given {v : ν} (h : (key, v) ∈ entries) : f.read v = .ok (f.get t)
  kept (h : ∀ v, (key, v) ∉ entries) : f.get t = f.get s

/-- Of the entries and of the record at the start only what concerns the field matters. -/
theorem Slot.Decided.congr {f : Slot ν σ ε} {key : κ} {entries entries' : List (κ × ν)}
    {s s' t : σ} (hmem : ∀ v, (key, v) ∈ entries ↔ (key, v) ∈ entries')
    (hsame : f.get s = f.get s') :
  f.Decided key entries s t ↔ f.Decided key entries' s' t
  := by
  constructor
  · intro h
    constructor
    · intro v hv
      apply h.given ((hmem v).mpr hv)
    · intro hnone
      rw [← hsame]
      apply h.kept
      intro v hv
      apply hnone v ((hmem v).mp hv)
  · intro h
    constructor
    · intro v hv
      apply h.given ((hmem v).mp hv)
    · intro hnone
      rw [hsame]
      apply h.kept
      intro v hv
      apply hnone v ((hmem v).mpr hv)

variable {V : Visitor κ ν σ ε} {slots : List (κ × Slot ν σ ε)}

/-- A field has one slot. -/
theorem Fieldwise.slot_unique (h : V.Fieldwise slots) {p q : κ × Slot ν σ ε} (hp : p ∈ slots)
    (hq : q ∈ slots) (hkey : p.1 = q.1) :
  p = q
  := by
  have honce := h.once
  rw [← h.fields] at honce
  apply List.inj_on_of_nodup_map honce hp hq hkey

variable [DecidableEq κ]

/-- An entry that is not for a field may be left out. -/
theorem admits_skip {key : κ} {v : ν} {entries : List (κ × ν)} (hkey : key ∉ V.fields)
    (hdeny : V.denyUnknown = false) :
  V.Admits ((key, v) :: entries) ↔ V.Admits entries
  := by
  constructor
  · rintro ⟨honce, -⟩
    rw [List.map_cons, List.filter_cons_of_neg (by simpa using hkey)] at honce
    use honce
    intro htrue
    rw [hdeny] at htrue
    cases htrue
  · rintro ⟨honce, -⟩
    constructor
    · rw [List.map_cons, List.filter_cons_of_neg (by simpa using hkey)]
      apply honce
    · intro htrue
      rw [hdeny] at htrue
      cases htrue

/-- An entry for a field is admitted with the rest when the field is not given again. -/
theorem admits_cons {key : κ} {v : ν} {entries : List (κ × ν)} (hkey : key ∈ V.fields) :
  V.Admits ((key, v) :: entries) ↔ (∀ w, (key, w) ∉ entries) ∧ V.Admits entries
  := by
  have hagain : key ∈ (entries.map Prod.fst).filter (· ∈ V.fields)
      ↔ ∃ w, (key, w) ∈ entries := by
    simp [hkey]
  constructor
  · rintro ⟨honce, hknown⟩
    rw [List.map_cons, List.filter_cons_of_pos (by simpa using hkey), List.nodup_cons,
      hagain, not_exists] at honce
    use honce.1, honce.2
    intro hdeny e he
    apply hknown hdeny e (List.mem_cons_of_mem _ he)
  · rintro ⟨hfresh, honce, hknown⟩
    constructor
    · rw [List.map_cons, List.filter_cons_of_pos (by simpa using hkey), List.nodup_cons,
        hagain, not_exists]
      exact ⟨hfresh, honce⟩
    · intro hdeny
      rw [List.forall_mem_cons]
      exact ⟨hkey, hknown hdeny⟩

namespace Fieldwise

/-- What is visited after an entry for a field decides the fields from the record the entry
leaves. -/
theorem decided_cons (h : V.Fieldwise slots) {p q : κ × Slot ν σ ε} (hp : p ∈ slots)
    (hq : q ∈ slots) {v : ν} {a : p.2.Value} (hread : p.2.read v = .ok a)
    {entries : List (κ × ν)} (hfresh : ∀ w, (p.1, w) ∉ entries) {s t : σ} :
  q.2.Decided q.1 ((p.1, v) :: entries) s t ↔ q.2.Decided q.1 entries (p.2.put s a) t
  := by
  by_cases hkey : p.1 = q.1
  · obtain rfl := h.slot_unique hp hq hkey
    constructor
    · intro hdecided
      constructor
      · intro w hw
        exact absurd hw (hfresh w)
      · intro _
        have hgiven := hdecided.given List.mem_cons_self
        rw [p.2.get_put]
        apply (Except.ok.inj (hread.symm.trans hgiven)).symm
    · intro hdecided
      have hget := hdecided.kept hfresh
      rw [p.2.get_put] at hget
      constructor
      · intro w hw
        obtain hhead | htail := List.mem_cons.mp hw
        · rw [(Prod.mk.inj hhead).2, hread, hget]
        · exact absurd htail (hfresh w)
      · intro hnone
        exact absurd List.mem_cons_self (hnone v)
  · apply Slot.Decided.congr
    · intro w
      simp [Ne.symm hkey]
    · rw [h.frame p hp q hq hkey]

/-- A visit comes to `t` exactly when the entries are well formed, none of them is for a field
seen before, and they decide every field of `t`. -/
theorem visit_seen_iff (h : V.Fieldwise slots) {entries : List (κ × ν)} :
  ∀ {seen : List κ} {s t : σ}, V.visit seen s entries = .ok t
    ↔ V.Admits entries ∧ (∀ e ∈ entries, e.1 ∈ V.fields → e.1 ∉ seen)
      ∧ ∀ p ∈ slots, p.2.Decided p.1 entries s t
  := by
  induction entries with
  | nil =>
      intro seen s t
      rw [visit, Except.ok.injEq]
      constructor
      · rintro rfl
        refine ⟨⟨List.nodup_nil, fun _ => List.forall_mem_nil _⟩, List.forall_mem_nil _, ?_⟩
        intro p _
        constructor
        · intro v hv
          cases hv
        · intro _
          rfl
      · rintro ⟨-, -, hdecided⟩
        apply h.ext
        intro p hp
        rw [(hdecided p hp).kept fun v => List.not_mem_nil]
  | cons entry entries ih =>
      obtain ⟨key, v⟩ := entry
      intro seen s t
      rw [visit, List.forall_mem_cons]
      split
      next hkey =>
        split
        next hseen =>
          simp only [reduceCtorEq, false_iff]
          rintro ⟨-, ⟨hunseen, -⟩, -⟩
          apply hunseen hkey hseen
        next hunseen =>
          rw [← h.fields] at hkey
          obtain ⟨p, hp, rfl⟩ := List.mem_map.mp hkey
          rw [h.fields] at hkey
          rw [h.set_eq p hp]
          cases hread : p.2.read v with
          | error e =>
              simp only [Except.map, reduceCtorEq, false_iff]
              rintro ⟨-, -, hdecided⟩
              cases hread.symm.trans ((hdecided p hp).given List.mem_cons_self)
          | ok a =>
              simp only [Except.map]
              rw [ih, admits_cons hkey]
              constructor
              · rintro ⟨hadmits, hrest, hdecided⟩
                have hfresh : ∀ w, (p.1, w) ∉ entries := by
                  intro w hw
                  apply hrest _ hw hkey List.mem_cons_self
                refine ⟨⟨hfresh, hadmits⟩, ⟨fun _ => hunseen, ?_⟩, ?_⟩
                · intro e he hfield hmem
                  apply hrest e he hfield (List.mem_cons_of_mem _ hmem)
                · intro q hq
                  apply (h.decided_cons hp hq hread hfresh).mpr (hdecided q hq)
              · rintro ⟨⟨hfresh, hadmits⟩, ⟨-, hrest⟩, hdecided⟩
                refine ⟨hadmits, ?_, ?_⟩
                · rintro ⟨other, w⟩ he hfield hmem
                  obtain rfl | hmem := List.mem_cons.mp hmem
                  · apply hfresh w he
                  · apply hrest _ he hfield hmem
                · intro q hq
                  apply (h.decided_cons hp hq hread hfresh).mp (hdecided q hq)
      next hkey =>
        split
        next hdeny =>
          simp only [reduceCtorEq, false_iff]
          rintro ⟨hadmits, -, -⟩
          apply hkey (hadmits.known hdeny _ List.mem_cons_self)
        next hdeny =>
          have hskip : ∀ p ∈ slots, p.2.Decided p.1 ((key, v) :: entries) s t
              ↔ p.2.Decided p.1 entries s t := by
            intro p hp
            have hne : p.1 ≠ key := by
              rintro rfl
              apply hkey
              rw [← h.fields]
              apply List.mem_map_of_mem hp
            apply Slot.Decided.congr
            · intro w
              simp [hne]
            · rfl
          rw [ih, admits_skip hkey (eq_false_of_ne_true hdeny), forall₂_congr hskip]
          constructor
          · rintro ⟨hadmits, hrest, hdecided⟩
            exact ⟨hadmits, ⟨fun hfield => absurd hfield hkey, hrest⟩, hdecided⟩
          · rintro ⟨hadmits, ⟨-, hrest⟩, hdecided⟩
            exact ⟨hadmits, hrest, hdecided⟩

/-- A visit comes to `t` exactly when the entries are well formed and decide every field of
`t`. -/
theorem visit_ok_iff (h : V.Fieldwise slots) {entries : List (κ × ν)} {s t : σ} :
  V.visit [] s entries = .ok t
    ↔ V.Admits entries ∧ ∀ p ∈ slots, p.2.Decided p.1 entries s t
  := by
  rw [h.visit_seen_iff]
  constructor
  · rintro ⟨hadmits, -, hdecided⟩
    exact ⟨hadmits, hdecided⟩
  · rintro ⟨hadmits, hdecided⟩
    exact ⟨hadmits, fun _ _ _ => List.not_mem_nil, hdecided⟩

end Fieldwise

end Visitor
