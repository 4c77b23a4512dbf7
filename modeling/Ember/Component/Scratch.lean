import Ember.Component.Linker

/-!
# The errors of the scratch storage

The contract of the scratch functions says when a write is refused and which error the guest
sees: `invalid-path` for absolute or empty paths, `quota-exceeded` when the write would exceed
the quota of the tenant.  `MemFs.write` encodes both refusals in the same error, and it compares
signed differences rather than totals.  Here we determine when the outcome is the one the
contract names, in every state the calls of the instances can lead to.
-/

namespace Ember

/-- Paths that a scratch file can have: nonempty and relative. -/
def ValidScratchPath (path : String) : Prop := path ≠ "" ∧ isAbsolute path = false

instance (path : String) : Decidable (ValidScratchPath path) :=
  inferInstanceAs (Decidable (_ ∧ _))

namespace MemFs

/-- The bytes in all files once the file at `path` holds `bytes`. -/
def bytesAfter (fs : MemFs) (path : String) (bytes : Bytes) : ℕ :=
  (fs.files.insert (components path) bytes).weight List.length

/-- The length of the file at a path, zero if there is none. -/
def lengthAt (fs : MemFs) (path : String) : ℕ := fs.files.weightAt List.length (components path)

/-- Writing `bytes` replaces the length of the file. -/
theorem bytesAfter_add (fs : MemFs) (path : String) (bytes : Bytes) :
  fs.bytesAfter path bytes + fs.lengthAt path = fs.storedBytes + bytes.length
  := fs.files.weight_insert List.length (components path) bytes

/-- When the counter is right and the buffer is a live allocation, the checks of a write pass
exactly when the path is valid and the file does not grow, or the bytes in all files are within
the quota as a signed integer. -/
theorem charge_isOk_iff {fs : MemFs} {path : String} {bytes : Bytes}
    (hused : fs.used = fs.storedBytes) (hfits : fs.storedBytes + bytes.length < 2 ^ 63) :
  (∃ accounting, fs.charge path bytes = .ok accounting)
    ↔ ValidScratchPath path
      ∧ (bytes.length ≤ fs.lengthAt path
        ∨ (fs.bytesAfter path bytes : ℤ) ≤ asI64 fs.quotaBytes)
  := by
  have hafter := fs.bytesAfter_add path bytes
  have hlength : fs.files.weightAt List.length (components path) = fs.lengthAt path := rfl
  rw [charge_eq path hused hfits, hlength]
  by_cases hpath : ValidScratchPath path
  · have hpath' : ¬(decide (path = "") || isAbsolute path) = true := by
      rw [Bool.or_eq_true, decide_eq_true_eq, hpath.2]
      simp [hpath.1]
    rw [if_neg hpath']
    dsimp only
    generalize asI64 fs.quotaBytes = quota
    split
    next hover =>
      simp only [reduceCtorEq, exists_false, false_iff]
      rintro ⟨-, h | h⟩
      all_goals omega
    next hover =>
      have hwithin : bytes.length ≤ fs.lengthAt path ∨ (fs.bytesAfter path bytes : ℤ) ≤ quota := by
        omega
      split
      all_goals simp [hpath, hwithin]
  · have hpath' : (decide (path = "") || isAbsolute path) = true := by
      by_contra hvalid
      rw [Bool.or_eq_true, decide_eq_true_eq, not_or, Bool.not_eq_true] at hvalid
      apply hpath hvalid
    rw [if_pos hpath']
    simp [hpath]

/-- A write succeeds exactly when its checks pass. -/
theorem write_ok_iff (fs : MemFs) (path : String) (bytes : Bytes) :
  (fs.write path bytes).2 = .ok () ↔ ∃ accounting, fs.charge path bytes = .ok accounting
  := by
  rw [write]
  cases fs.charge path bytes
  all_goals simp

/-- Every refusal of a write is the one error. -/
theorem charge_error {fs : MemFs} {path : String} {bytes : Bytes} {e : Error}
    (h : fs.charge path bytes = .error e) :
  ∃ detail, e = .limitExceeded detail
  := by
  rw [charge] at h
  split at h
  · exact ⟨_, (Except.error.inj h).symm⟩
  dsimp only at h
  split at h
  · exact ⟨_, (Except.error.inj h).symm⟩
  split at h
  all_goals cases h

end MemFs

namespace MemFsOk

-- a state that the calls on a new filesystem lead to, and a write in it
variable {quota : ℕ} {fs : MemFs} {log : List MemFsEvent} {path : String} {bytes : Bytes}

/-- A write succeeds exactly when the path is valid and the file does not grow, or the bytes in
all files are within the quota as a signed integer. -/
theorem write_ok_iff (hok : MemFsOk quota (fs, log)) (hfits : fs.Fits (.write path bytes)) :
  (fs.write path bytes).2 = .ok ()
    ↔ ValidScratchPath path
      ∧ (bytes.length ≤ fs.lengthAt path ∨ (fs.bytesAfter path bytes : ℤ) ≤ asI64 quota)
  := by
  obtain ⟨m, hrep, rfl⟩ := hok.refines
  rw [MemFs.write_ok_iff, MemFs.charge_isOk_iff hrep.used_eq hfits, hrep.quota]

/-- With a quota in the upper half of the range a write succeeds only when the file does not
grow. -/
theorem write_ok_iff_of_large (hok : MemFsOk quota (fs, log)) (hlo : 2 ^ 63 ≤ quota)
    (hhi : quota < 2 ^ 64) (hfits : fs.Fits (.write path bytes)) :
  (fs.write path bytes).2 = .ok ()
    ↔ ValidScratchPath path ∧ bytes.length ≤ fs.lengthAt path
  := by
  have hneg := asI64_neg hlo hhi
  rw [hok.write_ok_iff hfits]
  apply and_congr_right
  intro _
  omega

/-- With a quota in the lower half of the range a write succeeds exactly when the path is valid
and the bytes in all files are then within the quota. -/
theorem write_ok_iff_of_small (hok : MemFsOk quota (fs, log)) (hquota : quota < 2 ^ 63)
    (hfits : fs.Fits (.write path bytes)) :
  (fs.write path bytes).2 = .ok ()
    ↔ ValidScratchPath path ∧ fs.bytesAfter path bytes ≤ quota
  := by
  have hstored := hok.stored_le
  have hafter := fs.bytesAfter_add path bytes
  rw [hok.write_ok_iff hfits, asI64_of_lt hquota]
  apply and_congr_right
  intro _
  simp only at hstored
  omega

/-- A write is within the quota when the file does not grow, and whenever the quota is in the
upper half of the range. -/
theorem bytesAfter_le (hok : MemFsOk quota (fs, log)) (hfits : fs.Fits (.write path bytes))
    (h : 2 ^ 63 ≤ quota ∨ bytes.length ≤ fs.lengthAt path) :
  fs.bytesAfter path bytes ≤ quota
  := by
  have hstored := hok.stored_le
  have hafter := fs.bytesAfter_add path bytes
  simp only [MemFs.Fits] at hfits hstored
  omega

end MemFsOk

/-- After any calls on a filesystem with a quota of 64 bits: a write succeeds exactly when the
path is nonempty and relative and the bytes in all files are then within the quota, provided the
quota is below `2 ^ 63`, or the path is not valid, or the file does not grow.  Otherwise the
write is refused although it is within the quota. -/
theorem MemFs.write_within_iff {quota : ℕ} {calls : List MemFsCall} {fs : MemFs}
    {log : List MemFsEvent} {path : String} {bytes : Bytes} (hquota : quota < 2 ^ 64)
    (hfits : memFsMachine.Meets (fun s c => s.1.Fits c) (MemFs.new quota, []) calls)
    (hrun : memFsMachine.run (MemFs.new quota, []) calls = some (fs, log))
    (hbytes : fs.Fits (.write path bytes)) :
  ((fs.write path bytes).2 = .ok () ↔ ValidScratchPath path ∧ fs.bytesAfter path bytes ≤ quota)
    ↔ quota < 2 ^ 63 ∨ ¬ValidScratchPath path ∨ bytes.length ≤ fs.lengthAt path
  := by
  have hok : MemFsOk quota (fs, log) := MemFsOk.of_run hfits hrun
  by_cases hsmall : quota < 2 ^ 63
  · simp only [hok.write_ok_iff_of_small hsmall hbytes, hsmall, true_or]
  · have hlarge : 2 ^ 63 ≤ quota := not_lt.mp hsmall
    have hwithin := hok.bytesAfter_le hbytes (.inl hlarge)
    rw [hok.write_ok_iff_of_large hlarge hquota hbytes]
    by_cases hpath : ValidScratchPath path
    · simp only [hpath, hwithin, hsmall, true_and, and_true, not_true, false_or, iff_true]
    · simp [hpath]

/-- Two writes to one file, the second of which makes it shorter. -/
def overwriteCalls : List MemFsCall := [.write "a" [1, 2, 3], .write "a/." [7]]

/-- Under a quota of four bytes both writes fit. -/
theorem overwriteCalls_fit :
  memFsMachine.Meets (fun s c => s.1.Fits c) (MemFs.new 4, []) overwriteCalls
  := by
  refine ⟨by decide, ?_⟩
  rintro _ ⟨⟩
  exact ⟨by decide, fun _ _ => trivial⟩

/-- Under a quota of four bytes, of which a file takes one, another one of three bytes is written
and one of four bytes is not. -/
theorem MemFs.write_within_four :
  ∃ fs log, memFsMachine.run (MemFs.new 4, []) overwriteCalls = some (fs, log)
    ∧ (fs.write "b" [1, 2, 3]).2 = .ok ()
    ∧ ¬(fs.write "b" [1, 2, 3, 4]).2 = .ok ()
  := by
  refine ⟨_, _, rfl, ?_, ?_⟩
  · apply ((MemFs.write_within_iff (by decide) overwriteCalls_fit rfl (by decide)).mpr _).mpr
    · decide
    · exact .inl (by decide)
  · rw [(MemFs.write_within_iff (by decide) overwriteCalls_fit rfl (by decide)).mpr]
    · decide
    · exact .inl (by decide)

/-- Under a quota of `2 ^ 63` bytes, a file of a single byte is refused. -/
theorem MemFs.write_large_quota :
  memFsMachine.run (MemFs.new (2 ^ 63), []) [] = some (MemFs.new (2 ^ 63), [])
    ∧ (MemFs.new (2 ^ 63)).Fits (.write "a" [1])
    ∧ ¬(((MemFs.new (2 ^ 63)).write "a" [1]).2 = .ok ()
        ↔ ValidScratchPath "a" ∧ (MemFs.new (2 ^ 63)).bytesAfter "a" [1] ≤ 2 ^ 63)
  := by
  refine ⟨rfl, by decide, ?_⟩
  have hrefused : ¬((MemFs.new (2 ^ 63)).write "a" [1]).2 = .ok () := by
    rintro ⟨⟩
  intro h
  apply hrefused (h.mpr ⟨by decide, by decide⟩)

/-! ### What the guest sees -/

namespace HostCtx

/-- The outcome of `scratchWrite`: every refusal is reported as `quota-exceeded`. -/
theorem scratchWrite_eq (fs : MemFs) (path : String) (data : Bytes) :
  scratchWrite fs path data
    = ((fs.write path data).1,
        match (fs.write path data).2 with
        | .ok () => .ok ()
        | .error _ => .error .quotaExceeded)
  := by
  rw [scratchWrite, MemFs.write]
  cases hcharge : fs.charge path data with
  | ok accounting => rfl
  | error e =>
      obtain ⟨detail, rfl⟩ := MemFs.charge_error hcharge
      rfl

/-- The outcome of `scratchWrite` on `fs` is the one the contract of the scratch storage names,
for a tenant with the quota `quota`: `invalid-path` for empty and absolute paths,
`quota-exceeded` when the path is valid and the write would exceed the quota, and success
otherwise.  On either error no file and no count changes. -/
structure MeetsScratchContract (quota : ℕ) (fs : MemFs) (path : String) (data : Bytes) : Prop where
  invalidPath :
    (scratchWrite fs path data).2 = .error .invalidPath ↔ ¬ValidScratchPath path
  quotaExceeded :
    (scratchWrite fs path data).2 = .error .quotaExceeded
      ↔ ValidScratchPath path ∧ quota < fs.bytesAfter path data
  ok :
    (scratchWrite fs path data).2 = .ok ()
      ↔ ValidScratchPath path ∧ fs.bytesAfter path data ≤ quota
  unchanged : ∀ e, (scratchWrite fs path data).2 = .error e →
    scratchBytes (scratchWrite fs path data).1 = scratchBytes fs
      ∧ ∀ path', scratchRead (scratchWrite fs path data).1 path' = scratchRead fs path'

/-- A refused write changes nothing the guest can see. -/
theorem scratchWrite_unchanged {fs : MemFs} {path : String} {data : Bytes} {e : ScratchError}
    (h : (scratchWrite fs path data).2 = .error e) :
  (scratchWrite fs path data).1 = fs
  := by
  rw [scratchWrite_eq] at h ⊢
  cases hwrite : (fs.write path data).2 with
  | ok _ => simp [hwrite] at h
  | error e' => exact MemFs.write_error hwrite

/-- The contract is met when the path is valid and the write succeeds exactly when it is within
the quota. -/
theorem meetsScratchContract_of_valid {quota : ℕ} {fs : MemFs} {path : String} {data : Bytes}
    (hpath : ValidScratchPath path)
    (hwrite : (fs.write path data).2 = .ok () ↔ fs.bytesAfter path data ≤ quota) :
  MeetsScratchContract quota fs path data
  := by
  have hunchanged : ∀ e, (scratchWrite fs path data).2 = .error e →
      scratchBytes (scratchWrite fs path data).1 = scratchBytes fs
        ∧ ∀ path', scratchRead (scratchWrite fs path data).1 path' = scratchRead fs path' := by
    intro e he
    rw [scratchWrite_unchanged he]
    exact ⟨rfl, fun _ => rfl⟩
  cases houtcome : (fs.write path data).2 with
  | ok _ =>
      have hwithin := hwrite.mp houtcome
      refine ⟨?_, ?_, ?_, hunchanged⟩
      all_goals simp [scratchWrite_eq, houtcome, hpath, hwithin]
  | error e =>
      have hover : ¬fs.bytesAfter path data ≤ quota := by
        rw [← hwrite, houtcome]
        rintro ⟨⟩
      refine ⟨?_, ?_, ?_, hunchanged⟩
      all_goals simp [scratchWrite_eq, houtcome, hpath, hover, not_le.mp hover]

/-- After any calls on the scratch filesystem of a tenant, with a quota of 64 bits: the outcome
of a write is the one the contract names exactly when the path is nonempty and relative, and the
quota is below `2 ^ 63` or the file does not grow. -/
theorem scratchWrite_contract_iff {quota : ℕ} {calls : List MemFsCall} {fs : MemFs}
    {log : List MemFsEvent} {path : String} {data : Bytes} (hquota : quota < 2 ^ 64)
    (hfits : memFsMachine.Meets (fun s c => s.1.Fits c) (MemFs.new quota, []) calls)
    (hrun : memFsMachine.run (MemFs.new quota, []) calls = some (fs, log))
    (hdata : fs.Fits (.write path data)) :
  MeetsScratchContract quota fs path data
    ↔ ValidScratchPath path ∧ (quota < 2 ^ 63 ∨ data.length ≤ fs.lengthAt path)
  := by
  have hok : MemFsOk quota (fs, log) := MemFsOk.of_run hfits hrun
  constructor
  · intro hcontract
    have hpath : ValidScratchPath path := by
      by_contra hpath
      have hinvalid := hcontract.invalidPath.mpr hpath
      rw [scratchWrite_eq] at hinvalid
      cases houtcome : (fs.write path data).2
      all_goals simp [houtcome] at hinvalid
    refine ⟨hpath, ?_⟩
    by_contra hneither
    rw [not_or, not_lt] at hneither
    have hsuccess := hcontract.ok.mpr ⟨hpath, hok.bytesAfter_le hdata (.inl hneither.1)⟩
    rw [scratchWrite_eq] at hsuccess
    cases houtcome : (fs.write path data).2 with
    | error e => simp [houtcome] at hsuccess
    | ok _ =>
        apply hneither.2 ((hok.write_ok_iff_of_large hneither.1 hquota hdata).mp houtcome).2
  · rintro ⟨hpath, hcase⟩
    apply meetsScratchContract_of_valid hpath
    by_cases hsmall : quota < 2 ^ 63
    · rw [hok.write_ok_iff_of_small hsmall hdata, and_iff_right hpath]
    · have hgrows : data.length ≤ fs.lengthAt path := hcase.resolve_left hsmall
      rw [hok.write_ok_iff_of_large (not_lt.mp hsmall) hquota hdata]
      simp [hpath, hgrows, hok.bytesAfter_le hdata (.inr hgrows)]

/-- Under a quota of four bytes, of which a file takes one, the outcome of writing four bytes to
another file is the one the contract names. -/
theorem scratchWrite_contract_four :
  ∃ fs log, memFsMachine.run (MemFs.new 4, []) overwriteCalls = some (fs, log)
    ∧ MeetsScratchContract 4 fs "b" [1, 2, 3, 4]
  := by
  refine ⟨_, _, rfl, ?_⟩
  apply (scratchWrite_contract_iff (by decide) overwriteCalls_fit rfl (by decide)).mpr
  exact ⟨by decide, .inl (by decide)⟩

/-- A write to an absolute path is reported as `quota-exceeded`, on an empty filesystem. -/
theorem scratchWrite_absolute :
  memFsMachine.run (MemFs.new 4, []) [] = some (MemFs.new 4, [])
    ∧ (MemFs.new 4).Fits (.write "/etc/passwd" [1])
    ∧ (scratchWrite (MemFs.new 4) "/etc/passwd" [1]).2 = .error .quotaExceeded
    ∧ ¬MeetsScratchContract 4 (MemFs.new 4) "/etc/passwd" [1]
  := by
  refine ⟨rfl, by decide, rfl, ?_⟩
  intro hcontract
  have hinvalid := hcontract.invalidPath.mpr (by decide)
  revert hinvalid
  rintro ⟨⟩

end HostCtx

end Ember
