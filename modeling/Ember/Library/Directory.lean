import Mathlib.Data.List.AList
import Mathlib.Tactic

/-!
# Directories of regular files

A directory binds names to file numbers and file numbers to contents.  The distinction
matters to a program that keeps a file open: an open handle is a file number, so a write
through it reaches the file under whatever name the file has by then, and creating a name
that exists truncates the file every other handle on it sees.

No two names are bound to the same number, and every bound number lies below `next`, from
which `create` takes the number of a new file.
-/

universe u

/-- A directory of regular files over the alphabet `β`. -/
structure Directory (β : Type u) where
  names : AList (fun _ : String => ℕ)
  contents : ℕ → List β
  next : ℕ
  lt_next : ∀ {n : String} {i : ℕ}, names.lookup n = some i → i < next
  inj : ∀ {n m : String} {i : ℕ}, names.lookup n = some i → names.lookup m = some i → n = m

namespace Directory

variable {β : Type u} (d : Directory β)

/-- The directory without files. -/
def empty : Directory β where
  names := ∅
  contents _ := []
  next := 0
  lt_next h := by simp at h
  inj h := by simp at h

/-- The number of the file a name is bound to. -/
def file (n : String) : Option ℕ := d.names.lookup n

/-- Whether a name is bound. -/
def has (n : String) : Bool := (d.file n).isSome

/-- The contents of the file a name is bound to. -/
def read (n : String) : Option (List β) := (d.file n).map d.contents

/-- The directory with the contents of the file `i` replaced. -/
def set (i : ℕ) (bs : List β) : Directory β :=
  { d with contents := Function.update d.contents i bs }

/-- Write `bs` at the start of the file `i`.  Whatever the file holds past the end of `bs`
stays. -/
def write (i : ℕ) (bs : List β) : Directory β :=
  d.set i (bs ++ (d.contents i).drop bs.length)

/-- Replace the contents of the file `n` is bound to, if it is. -/
def overwrite (n : String) (bs : List β) : Directory β :=
  match d.file n with
  | some i => d.set i bs
  | none => d

/-- Bind `n` to a new file without contents. -/
def bind (n : String) : Directory β where
  names := d.names.insert n d.next
  contents := Function.update d.contents d.next []
  next := d.next + 1
  lt_next {m i} h := by
    by_cases hm : m = n
    · subst hm
      rw [AList.lookup_insert] at h
      obtain rfl := Option.some.inj h
      omega
    · rw [AList.lookup_insert_ne hm] at h
      have := d.lt_next h
      omega
  inj {m m' i} h h' := by
    by_cases hm : m = n
    · by_cases hm' : m' = n
      · rw [hm, hm']
      · rw [hm, AList.lookup_insert] at h
        rw [AList.lookup_insert_ne hm'] at h'
        have := d.lt_next h'
        simp at h
        omega
    · rw [AList.lookup_insert_ne hm] at h
      by_cases hm' : m' = n
      · rw [hm', AList.lookup_insert] at h'
        have := d.lt_next h
        simp at h'
        omega
      · rw [AList.lookup_insert_ne hm'] at h'
        apply d.inj h h'

/-- Open `n` for writing from the start: an existing file is truncated, a missing one is
created.  The second component is the number of the file opened. -/
def create (n : String) : Directory β × ℕ :=
  match d.file n with
  | some i => (d.set i [], i)
  | none => (d.bind n, d.next)

/-- The bindings of `names` with the name `n` removed and `m` bound to `i`. -/
private def moved (n m : String) (i : ℕ) : AList (fun _ : String => ℕ) :=
  (d.names.erase n).insert m i

private theorem lookup_moved {n m a : String} {i j : ℕ}
    (h : (d.moved n m i).lookup a = some j) :
  (a = m ∧ j = i) ∨ (a ≠ m ∧ a ≠ n ∧ d.names.lookup a = some j)
  := by
  by_cases ha : a = m
  · subst ha
    rw [moved, AList.lookup_insert] at h
    left
    simpa using h.symm
  · right
    rw [moved, AList.lookup_insert_ne ha] at h
    have han : a ≠ n := by
      rintro rfl
      simp at h
    rw [AList.lookup_erase_ne han] at h
    exact ⟨ha, han, h⟩

/-- Move the file bound to `n` to the name `m`, replacing the binding of `m`, when `n` is
bound. -/
def rename (n m : String) : Option (Directory β) :=
  match hn : d.file n with
  | none => none
  | some i => some
    { names := d.moved n m i
      contents := d.contents
      next := d.next
      lt_next := by
        intro a j h
        rcases d.lookup_moved h with ⟨-, rfl⟩ | ⟨-, -, h'⟩
        · apply d.lt_next hn
        · apply d.lt_next h'
      inj := by
        intro a b j ha hb
        rcases d.lookup_moved ha with ⟨rfl, rfl⟩ | ⟨-, han, ha'⟩
        · rcases d.lookup_moved hb with ⟨rfl, -⟩ | ⟨-, hbn, hb'⟩
          · rfl
          · exact absurd (d.inj hb' hn) hbn
        · rcases d.lookup_moved hb with ⟨-, rfl⟩ | ⟨-, -, hb'⟩
          · exact absurd (d.inj ha' hn) han
          · apply d.inj ha' hb' }

/-! ### What the operations bind -/

@[simp]
theorem file_set (i : ℕ) (bs : List β) (n : String) :
  (d.set i bs).file n = d.file n
  := rfl

@[simp]
theorem file_write (i : ℕ) (bs : List β) (n : String) :
  (d.write i bs).file n = d.file n
  := rfl

@[simp]
theorem file_bind (n : String) :
  (d.bind n).file n = some d.next
  := AList.lookup_insert d.names

theorem file_bind_ne {n m : String} (hm : m ≠ n) :
  (d.bind n).file m = d.file m
  := AList.lookup_insert_ne hm

/-- The name opened by `create` is bound to the file opened. -/
theorem file_create (n : String) :
  (d.create n).1.file n = some (d.create n).2
  := by
  cases h : d.file n with
  | none => simp [create, h]
  | some i => simp [create, h]

/-- `create` keeps the binding of every other name. -/
theorem file_create_ne {n m : String} (hm : m ≠ n) :
  (d.create n).1.file m = d.file m
  := by
  cases h : d.file n with
  | none => simp only [create, h, d.file_bind_ne hm]
  | some i => simp [create, h]

/-- A successful `rename n m` moves the file of `n` to `m`. -/
theorem file_rename {d' : Directory β} {n m : String} (h : d.rename n m = some d') :
  d'.file m = d.file n
  := by
  unfold rename at h
  split at h
  · cases h
  · rename_i i hn
    obtain rfl := Option.some.inj h
    apply Eq.trans _ hn.symm
    apply AList.lookup_insert

/-- A `rename` of a bound name is successful. -/
theorem exists_rename {n : String} {i : ℕ} (h : d.file n = some i) (m : String) :
  ∃ d', d.rename n m = some d'
  := by
  unfold rename
  split
  next hn => cases hn.symm.trans h
  · exact ⟨_, rfl⟩

/-- A successful `rename n m` to another name leaves `n` unbound. -/
theorem file_rename_source {d' : Directory β} {n m : String} (h : d.rename n m = some d')
    (hne : n ≠ m) :
  d'.file n = none
  := by
  unfold rename at h
  split at h
  · cases h
  · obtain rfl := Option.some.inj h
    apply Eq.trans (AList.lookup_insert_ne hne)
    apply AList.lookup_erase

/-- `rename n m` keeps the binding of every name other than `n` and `m`. -/
theorem file_rename_ne {d' : Directory β} {n m a : String} (h : d.rename n m = some d')
    (hn : a ≠ n) (hm : a ≠ m) :
  d'.file a = d.file a
  := by
  unfold rename at h
  split at h
  · cases h
  · obtain rfl := Option.some.inj h
    apply Eq.trans (AList.lookup_insert_ne hm)
    apply AList.lookup_erase_ne hn

/-! ### What the operations leave in the files -/

theorem contents_write (i : ℕ) (bs : List β) :
  (d.write i bs).contents i = bs ++ (d.contents i).drop bs.length
  := by
  simp [write, set]

theorem contents_write_ne {i j : ℕ} (hj : j ≠ i) (bs : List β) :
  (d.write i bs).contents j = d.contents j
  := by
  simp [write, set, hj]

/-- The file opened by `create` has no contents. -/
theorem contents_create (n : String) :
  (d.create n).1.contents (d.create n).2 = []
  := by
  cases h : d.file n with
  | none => simp [create, h, bind]
  | some i => simp [create, h, set]

/-- `create` keeps the contents of every bound file other than the one it opens. -/
theorem contents_create_ne {n m : String} {j : ℕ} (hm : m ≠ n) (hj : d.file m = some j) :
  (d.create n).1.contents j = d.contents j
  := by
  cases h : d.file n with
  | none =>
      have hlt := d.lt_next hj
      simp only [create, h, bind]
      apply Function.update_of_ne
      omega
  | some i =>
      simp only [create, h, set]
      apply Function.update_of_ne
      rintro rfl
      apply hm (d.inj hj h)

theorem contents_rename {d' : Directory β} {n m : String} (h : d.rename n m = some d') :
  d'.contents = d.contents
  := by
  unfold rename at h
  split at h
  · cases h
  · obtain rfl := Option.some.inj h
    rfl

/-! ### What the operations leave to be read -/

theorem has_eq_read (n : String) :
  d.has n = (d.read n).isSome
  := by
  simp [has, read]

/-- `create n` changes what is read under `n` only. -/
theorem read_create_ne {n m : String} (hm : m ≠ n) :
  (d.create n).1.read m = d.read m
  := by
  rw [read, read, d.file_create_ne hm]
  cases hj : d.file m with
  | none => rfl
  | some j => simp [d.contents_create_ne hm hj]

/-- A write to the file of `n` changes what is read under `n` only. -/
theorem read_write_ne {n m : String} {i : ℕ} (hi : d.file n = some i) (hm : m ≠ n)
    (bs : List β) :
  (d.write i bs).read m = d.read m
  := by
  rw [read, read, file_write]
  cases hj : d.file m with
  | none => rfl
  | some j =>
      have hne : j ≠ i := by
        rintro rfl
        apply hm (d.inj hj hi)
      simp [d.contents_write_ne hne]

/-- A write to a file without contents leaves the bytes written. -/
theorem read_write {n : String} {i : ℕ} (hi : d.file n = some i) (h : d.contents i = [])
    (bs : List β) :
  (d.write i bs).read n = some bs
  := by
  rw [read, file_write, hi, Option.map_some, contents_write, h, List.drop_nil, List.append_nil]

/-- Overwriting the file of `n` changes what is read under `n` only. -/
theorem read_overwrite_ne {n m : String} (hm : m ≠ n) (bs : List β) :
  (d.overwrite n bs).read m = d.read m
  := by
  rw [overwrite]
  split
  next i hi =>
    rw [read, read, file_set]
    cases hj : d.file m with
    | none => rfl
    | some j =>
        have hne : j ≠ i := by
          rintro rfl
          apply hm (d.inj hj hi)
        simp [set, hne]
  · rfl

/-- A successful `rename n m` leaves under `m` what was read under `n`. -/
theorem read_rename {d' : Directory β} {n m : String} (h : d.rename n m = some d') :
  d'.read m = d.read n
  := by
  rw [read, read, d.file_rename h, d.contents_rename h]

/-- A successful `rename n m` changes what is read under `n` and `m` only. -/
theorem read_rename_ne {d' : Directory β} {n m a : String} (h : d.rename n m = some d')
    (hn : a ≠ n) (hm : a ≠ m) :
  d'.read a = d.read a
  := by
  rw [read, read, d.file_rename_ne h hn hm, d.contents_rename h]

end Directory
