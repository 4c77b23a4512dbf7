import Mathlib.Data.List.Forall2
import Mathlib.Tactic

/-!
# Labels

`List.splitOn a` cuts a word into its labels, the parts between the occurrences of the
separator `a`.  Here we relate lists of labels to the words they come from: labels at the end of
a word are a word at its end that starts after a separator (`splitOn_suffix_iff`), and the first
label is a word at the beginning that ends before one (`splitOn_eq_cons`).  Cutting commutes
with maps that keep the separator apart from everything else (`splitOn_map`).
-/

universe u v

section Labels

variable {α : Type u} {β : Type v}

/-- A list ends with `ys`, up to `f`, when its last elements agree with those of `ys` one by
one. -/
theorem suffix_map_iff_zip {f : α → β} {xs ys : List α} :
  ys.map f <:+ xs.map f
    ↔ ys.length ≤ xs.length
      ∧ ∀ p ∈ (xs.drop (xs.length - ys.length)).zip ys, f p.1 = f p.2
  := by
  constructor
  · intro h
    have hlen : ys.length ≤ xs.length := by simpa using h.length_le
    refine ⟨hlen, ?_⟩
    rw [List.suffix_iff_eq_drop, List.length_map, List.length_map, ← List.map_drop] at h
    have hforall := List.forall₂_eq_eq_eq.symm ▸ h.symm
    rw [List.forall₂_map_left_iff, List.forall₂_map_right_iff] at hforall
    intro p hp
    apply (List.forall₂_iff_zip.mp hforall).2 hp
  · rintro ⟨hlen, hzip⟩
    rw [List.suffix_iff_eq_drop, List.length_map, List.length_map, ← List.map_drop]
    apply Eq.symm
    rw [← List.forall₂_eq_eq_eq, List.forall₂_map_left_iff, List.forall₂_map_right_iff,
      List.forall₂_iff_zip]
    constructor
    · rw [List.length_drop]
      omega
    · intro x y hxy
      apply hzip _ hxy

variable [DecidableEq α] [DecidableEq β]

/-- The labels of a word determine it. -/
theorem splitOn_injective (a : α) {xs ys : List α} (h : xs.splitOn a = ys.splitOn a) :
  xs = ys
  := by
  calc xs
      = [a].intercalate (xs.splitOn a) := (List.intercalate_splitOn a).symm
    _ = [a].intercalate (ys.splitOn a) := by rw [h]
    _ = ys := List.intercalate_splitOn a

/-- Cutting commutes with a map under which nothing else becomes the separator. -/
theorem splitOn_map {f : α → β} {a : α} (hf : ∀ x, f x = f a → x = a) (xs : List α) :
  (xs.map f).splitOn (f a) = (xs.splitOn a).map (List.map f)
  := by
  induction xs with
  | nil => rfl
  | cons x xs ih =>
      rw [List.map_cons, List.splitOn_cons_eq_if_modifyHead, List.splitOn_cons_eq_if_modifyHead,
        ih]
      by_cases hx : x = a
      · simp [hx]
      · obtain ⟨l, ls, hl⟩ := List.exists_cons_of_ne_nil (List.splitOn_ne_nil a xs)
        have hfx : ¬f x = f a := fun h => hx (hf x h)
        simp [hx, hfx, hl]

/-- The first label of a word is the whole word, or what comes before a separator.  Then the
other labels are those of what comes after it. -/
theorem splitOn_eq_cons {a : α} {xs w : List α} {ls : List (List α)}
    (h : xs.splitOn a = w :: ls) :
  (ls = [] ∧ xs = w) ∨ ∃ rest, xs = w ++ a :: rest ∧ ls = rest.splitOn a
  := by
  induction xs generalizing w with
  | nil =>
      rw [List.splitOn_nil, List.cons.injEq] at h
      exact .inl ⟨h.2.symm, h.1⟩
  | cons x xs ih =>
      rw [List.splitOn_cons_eq_if_modifyHead] at h
      split at h
      next hx =>
        rw [List.cons.injEq] at h
        right
        use xs
        rw [← h.1, ← h.2, eq_of_beq hx]
        exact ⟨rfl, rfl⟩
      next hx =>
        obtain ⟨l, ls', hl⟩ := List.exists_cons_of_ne_nil (List.splitOn_ne_nil a xs)
        rw [hl, List.modifyHead_cons, List.cons.injEq] at h
        obtain ⟨rfl, rfl⟩ := h
        rcases ih hl with ⟨hnil, hxs⟩ | ⟨rest, hxs, hls⟩
        · left
          rw [hnil, hxs]
          exact ⟨rfl, rfl⟩
        · right
          use rest
          rw [hxs, List.cons_append]
          exact ⟨rfl, hls⟩

/-- The labels of a word are parts of it. -/
theorem subset_of_mem_splitOn {a : α} {xs l : List α} (h : l ∈ xs.splitOn a) :
  l ⊆ xs
  := by
  obtain ⟨ls, ls', hls⟩ := List.append_of_mem h
  clear h
  induction ls generalizing xs with
  | nil =>
      rcases splitOn_eq_cons hls with ⟨-, rfl⟩ | ⟨rest, rfl, -⟩
      · apply List.Subset.refl
      · apply List.subset_append_left
  | cons w ls ih =>
      rcases splitOn_eq_cons hls with ⟨hnil, -⟩ | ⟨rest, rfl, hrest⟩
      · simp at hnil
      · intro x hx
        apply List.mem_append_right
        apply List.mem_cons_of_mem
        apply ih hrest.symm hx

/-- What is no separator is in a label. -/
theorem exists_mem_splitOn {a x : α} {xs : List α} (hx : x ∈ xs) (hne : x ≠ a) :
  ∃ l ∈ xs.splitOn a, x ∈ l
  := by
  obtain ⟨w, ls, hls⟩ := List.exists_cons_of_ne_nil (List.splitOn_ne_nil a xs)
  induction ls generalizing xs w with
  | nil =>
      rcases splitOn_eq_cons hls with ⟨-, rfl⟩ | ⟨rest, -, hrest⟩
      · use xs
        rw [hls]
        exact ⟨List.mem_singleton_self _, hx⟩
      · exact absurd hrest.symm (List.splitOn_ne_nil a rest)
  | cons w' ls ih =>
      rcases splitOn_eq_cons hls with ⟨hnil, -⟩ | ⟨rest, rfl, hrest⟩
      · cases hnil
      · rw [List.mem_append, List.mem_cons] at hx
        rw [hls]
        obtain hw | rfl | hmem := hx
        · exact ⟨w, List.mem_cons_self, hw⟩
        · exact absurd rfl hne
        · obtain ⟨l, hl, hxl⟩ := ih hmem w' hrest.symm
          rw [hrest]
          exact ⟨l, List.mem_cons_of_mem _ hl, hxl⟩

/-- The labels of one word are at the end of those of another when the words are the same, or
the other ends with a separator and the one. -/
theorem splitOn_suffix_iff {a : α} {xs ys : List α} :
  xs.splitOn a <:+ ys.splitOn a ↔ xs = ys ∨ a :: xs <:+ ys
  := by
  constructor
  · intro h
    obtain ⟨ls, hls⟩ := h
    -- the labels before those of `xs` are cut off the word one by one
    induction ls generalizing ys with
    | nil => exact .inl (splitOn_injective a hls)
    | cons w ls ih =>
        rw [List.cons_append] at hls
        rcases splitOn_eq_cons hls.symm with ⟨hnil, -⟩ | ⟨rest, rfl, hrest⟩
        · rw [List.append_eq_nil_iff] at hnil
          exact absurd hnil.2 (List.splitOn_ne_nil a xs)
        · right
          rcases ih hrest with rfl | hsuffix
          · apply List.suffix_append
          · apply hsuffix.trans
            apply (List.suffix_cons a rest).trans
            apply List.suffix_append
  · rintro (rfl | ⟨pre, rfl⟩)
    · apply List.suffix_refl
    · rw [List.splitOn_append_cons_self]
      apply List.suffix_append

end Labels
