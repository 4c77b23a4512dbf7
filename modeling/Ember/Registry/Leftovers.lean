import Ember.Registry.Crash

/-!
# What a failed put leaves behind

`ContentStore.put` creates a temporary file, and three calls that may fail stand between its
creation and the rename that takes it away.  Each of them returns its error at once, so the
temporary file stays in the root.

A `put` leaves no temporary file, and an error leaves the root as it was, exactly when the call
creates none, and none was there, or when all of its calls succeed and no other temporary file
was there (`put_tidy_iff`).
-/

namespace Ember

variable {κ : Type} (C : Crates κ)

namespace ContentStore

/-- No file of the root is temporary. -/
def Clean (dir : Directory UInt8) : Prop := ∀ name, isTmp name = true → dir.has name = false

/-- The outcome of a call on the root `dir` is tidy: no file of the root is temporary, and an
error leaves the files of the root and their contents as they were. -/
def Tidy (dir : Directory UInt8) (outcome : Directory UInt8 × Except Error String) : Prop :=
  Clean outcome.1 ∧ ∀ e, outcome.2 = .error e → ∀ name, outcome.1.read name = dir.read name

/-- The blob is found to be present. -/
def Found (faults : PutFaults) (dir : Directory UInt8) (blob : Bytes) : Prop :=
  faults.metadata = none ∧ dir.has (C.sha256Hex blob) = true

/-- The calls on the temporary file succeed.  A rename that does not replace an existing file
meets no such file. -/
structure PutSucceeds (P : Process) (faults : PutFaults) (dir : Directory UInt8) (blob : Bytes) :
    Prop where
  create : faults.create = none
  write : faults.write = none
  sync : faults.sync = none
  rename : faults.rename = none
  replaces : P.renameReplaces = true ∨ dir.has (C.sha256Hex blob) = false

/-- What a `put` can come to. -/
inductive PutOutcome (P : Process) (faults : PutFaults) (dir : Directory UInt8) (blob : Bytes) :
    Directory UInt8 × Except Error String → Prop
  | found (hfound : Found C faults dir blob) :
      PutOutcome P faults dir blob (dir, .ok (digest C blob))
  /-- The temporary file is not created. -/
  | uncreated {e : Error} (hfound : ¬Found C faults dir blob) (hcreate : faults.create ≠ none) :
      PutOutcome P faults dir blob (dir, .error e)
  /-- The call ends with the temporary file in the root. -/
  | left {dir' : Directory UInt8} {r : Except Error String} (hfound : ¬Found C faults dir blob)
      (hcreate : faults.create = none) (hfails : ¬PutSucceeds C P faults dir blob)
      (hleft : dir'.has (tmp P) = true) : PutOutcome P faults dir blob (dir', r)
  /-- The temporary file is renamed. -/
  | renamed {dir' : Directory UInt8} (hfound : ¬Found C faults dir blob)
      (hsucceeds : PutSucceeds C P faults dir blob)
      (hrename : ((dir.create (tmp P)).1.write (dir.create (tmp P)).2 blob).rename (tmp P)
        (C.sha256Hex blob) = some dir') :
      PutOutcome P faults dir blob (dir', .ok (digest C blob))

/-- The blob is found exactly when its path exists. -/
theorem pathExists_iff (faults : PutFaults) (dir : Directory UInt8) (blob : Bytes) :
  pathExists faults.metadata dir (C.sha256Hex blob) = true ↔ Found C faults dir blob
  := by
  rw [Found]
  cases faults.metadata with
  | none => simp [pathExists]
  | some f => simp [pathExists]

/-- Renaming a bound file succeeds, unless the target exists and is not replaced. -/
theorem fsRename_bound (P : Process) {dir : Directory UInt8} {source : String} {i : ℕ}
    (hsource : dir.file source = some i) (target : String) :
  ((P.renameReplaces = true ∨ dir.has target = false)
      ∧ ∃ dir', dir.rename source target = some dir'
        ∧ fsRename P none dir source target = (dir', .ok ()))
    ∨ (¬(P.renameReplaces = true ∨ dir.has target = false)
      ∧ fsRename P none dir source target = (dir, .error .alreadyExists))
  := by
  by_cases hreplaces : P.renameReplaces = true ∨ dir.has target = false
  · left
    obtain ⟨dir', hdir'⟩ := dir.exists_rename hsource target
    have hcond : (!P.renameReplaces && dir.has target) = false := by
      rcases hreplaces with h | h
      · rw [h, Bool.not_true, Bool.false_and]
      · rw [h, Bool.and_false]
    use hreplaces, dir', hdir'
    simp only [fsRename, hcond, Bool.false_eq_true, if_false]
    rw [hdir']
  · right
    use hreplaces
    have hcond : (!P.renameReplaces && dir.has target) = true := by simpa using hreplaces
    simp only [fsRename, hcond, if_true]

/-- Every `put` comes to one of these. -/
theorem put_outcome (P : Process) (faults : PutFaults) (dir : Directory UInt8) (blob : Bytes) :
  PutOutcome C P faults dir blob (put C P faults dir blob)
  := by
  have hne := ne_tmp (P := P) (C.sha256Hex_all blob)
  have hfile := dir.file_create (tmp P)
  -- once created, the temporary file is in the root until it is renamed
  have hhas : ∀ bytes, ((dir.create (tmp P)).1.write (dir.create (tmp P)).2 bytes).has (tmp P)
      = true := by
    intro bytes
    rw [Directory.has, Directory.file_write, hfile]
    rfl
  simp only [put, blobPath, sanitizeDigest_digest]
  split
  next hexists => exact .found ((pathExists_iff C faults dir blob).mp hexists)
  next hexists =>
    rw [pathExists_iff] at hexists
    cases hcreate : faults.create with
    | some f =>
        apply PutOutcome.uncreated hexists
        simp [hcreate]
    | none =>
        simp only [fileCreate]
        cases hwrite : faults.write with
        | some f =>
            apply PutOutcome.left hexists hcreate
            · intro hsucceeds
              cases hsucceeds.write.symm.trans hwrite
            · apply hhas
        | none =>
            simp only [writeAll]
            cases hsync : faults.sync with
            | some f =>
                apply PutOutcome.left hexists hcreate
                · intro hsucceeds
                  cases hsucceeds.sync.symm.trans hsync
                · apply hhas
            | none =>
                simp only [syncAll]
                cases hrename : faults.rename with
                | some f =>
                    apply PutOutcome.left hexists hcreate
                    · intro hsucceeds
                      cases hsucceeds.rename.symm.trans hrename
                    · apply hhas
                | none =>
                    have hthere : ∀ bytes, ((dir.create (tmp P)).1.write (dir.create (tmp P)).2
                        bytes).has (C.sha256Hex blob) = dir.has (C.sha256Hex blob) := by
                      intro bytes
                      rw [Directory.has, Directory.file_write, Directory.file_create_ne _ hne,
                        ← Directory.has]
                    obtain ⟨hreplaces, dir', hdir', hdone⟩ | ⟨hreplaces, hstays⟩ := fsRename_bound P
                      ((Directory.file_write _ _ blob _).trans hfile) (C.sha256Hex blob)
                    · rw [hthere] at hreplaces
                      simp only [hdone]
                      apply PutOutcome.renamed hexists _ hdir'
                      exact ⟨hcreate, hwrite, hsync, hrename, hreplaces⟩
                    · rw [hthere] at hreplaces
                      simp only [hstays]
                      apply PutOutcome.left hexists hcreate
                      · intro hsucceeds
                        apply hreplaces hsucceeds.replaces
                      · apply hhas

/-- After a `put` whose calls succeed no file of the root is temporary exactly when none was but
that of the process. -/
theorem clean_renamed {P : Process} {dir dir' : Directory UInt8} {blob : Bytes}
    (hrename : ((dir.create (tmp P)).1.write (dir.create (tmp P)).2 blob).rename (tmp P)
      (C.sha256Hex blob) = some dir') :
  Clean dir' ↔ ∀ name, isTmp name = true → dir.has name = true → name = tmp P
  := by
  have hne := ne_tmp (P := P) (C.sha256Hex_all blob)
  have hgone : dir'.has (tmp P) = false := by
    rw [Directory.has, Directory.file_rename_source _ hrename hne.symm]
    rfl
  have hkept : ∀ name, isTmp name = true → name ≠ tmp P → dir'.has name = dir.has name := by
    intro name hname hother
    have hblob : name ≠ C.sha256Hex blob := by
      rintro rfl
      rw [isTmp_of_hex (C.sha256Hex_all blob)] at hname
      cases hname
    rw [Directory.has, Directory.file_rename_ne _ hrename hother hblob, Directory.file_write,
      Directory.file_create_ne _ hother, ← Directory.has]
  constructor
  · intro hclean name hname hhas
    by_contra hother
    rw [← hkept name hname hother, hclean name hname] at hhas
    cases hhas
  · intro honly name hname
    obtain rfl | hother := eq_or_ne name (tmp P)
    · apply hgone
    · rw [hkept name hname hother, Bool.eq_false_iff]
      intro hhas
      apply hother (honly name hname hhas)

/-- A `put` is tidy, whatever the root holds and whichever of its calls fail, exactly in two
cases.  It finds the blob or cannot create the temporary file, and no file was temporary; or it
does not find the blob, all calls on the temporary file succeed, and no file was temporary but
that of the process itself. -/
theorem put_tidy_iff (P : Process) (faults : PutFaults) (dir : Directory UInt8) (blob : Bytes) :
  Tidy dir (put C P faults dir blob)
    ↔ ((Found C faults dir blob ∨ faults.create ≠ none) ∧ Clean dir)
      ∨ (¬Found C faults dir blob ∧ PutSucceeds C P faults dir blob
        ∧ ∀ name, isTmp name = true → dir.has name = true → name = tmp P)
  := by
  have h := put_outcome C P faults dir blob
  generalize put C P faults dir blob = outcome at h
  rw [Tidy]
  cases h with
  | found hfound => simp [hfound]
  | uncreated hfound hcreate =>
      have hfails : ¬PutSucceeds C P faults dir blob := fun hs => hcreate hs.create
      simp [hcreate, hfails]
  | left hfound hcreate hfails hleft =>
      have hdirty : ¬Clean _ := fun hclean => by
        rw [hclean _ (isTmp_tmp P)] at hleft
        cases hleft
      simp [hfound, hcreate, hfails, hdirty]
  | renamed hfound hsucceeds hrename =>
      simp [hfound, hsucceeds, hsucceeds.create, clean_renamed C hrename]

/-- When the sync fails, `put` returns the error and leaves the temporary file in a root that was
empty. -/
theorem put_leaves_tmp :
  let P : Process := { pid := 1, renameReplaces := true }
  let faults : PutFaults := { sync := some { reason := "No space left on device", done := 0 } }
  let outcome := put sampleCrates P faults Directory.empty [97]
  outcome.2 = .error (.io "No space left on device")
    ∧ outcome.1.read (tmp P) = some [97]
    ∧ Directory.empty.read (tmp P) = (none : Option Bytes)
    ∧ ¬Tidy Directory.empty outcome
  := by
  intro P faults outcome
  have hread : outcome.1.read (tmp P) = some [97] := by decide +kernel
  refine ⟨rfl, hread, rfl, ?_⟩
  rintro ⟨-, hsame⟩
  have h := hsame _ rfl (tmp P)
  rw [hread] at h
  cases h

end ContentStore

end Ember
