import Ember.Error
import Ember.Library.Machine
import Ember.Library.QuotaMap

/-!
# The scratch filesystem

`MemFs` is the byte-quota'd in-memory filesystem of a tenant: a map from paths to byte
strings under a mutex, and an atomic counter of the bytes held, which the operations keep up
by signed differences.  Paths are keys up to equality of their components.

We show that it refines a quota'd map (`QuotaMap`): whatever the calls of the instances that
share it, in the order in which they take the mutex, the counter is the number of bytes
stored and the files are those last written.
-/

namespace Ember

/-! ### Paths -/

/-- The components of a path, as `Path::components` gives them. -/
inductive PathComponent where
  | rootDir
  | curDir
  | parentDir
  | normal (name : String)
  deriving DecidableEq, Repr

/-- Whether a path starts at the root. -/
def isAbsolute (path : String) : Bool := path.toList.head? = some '/'

/-- The components of a path: repeated and trailing separators are dropped, and so are the
segments `.`, except at the start of a relative path. -/
def components (path : String) : List PathComponent :=
  let segments := path.toList.splitOn '/'
  let start :=
    if isAbsolute path then [.rootDir]
    else if segments.head? = some ['.'] then [.curDir]
    else []
  start ++ segments.filterMap fun s =>
    if s = [] || s = ['.'] then none
    else if s = ['.', '.'] then some .parentDir
    else some (.normal (String.ofList s))

/-- Paths are compared by components. -/
example : components "a//b/./c/" = components "a/b/c" := by decide

example : components "./a" ≠ components "a" := by decide

/-! ### Machine integers -/

/-- `as i64`, from an unsigned 64-bit integer. -/
def asI64 (n : ℕ) : ℤ := if n % 2 ^ 64 < 2 ^ 63 then n % 2 ^ 64 else n % 2 ^ 64 - 2 ^ 64

/-- `as u64`, from a signed 64-bit integer. -/
def asU64 (z : ℤ) : ℕ := (z % 2 ^ 64).toNat

/-- The value of a sum or difference of signed 64-bit integers, which wraps around. -/
def wrapI64 (z : ℤ) : ℤ := asI64 (asU64 z)

/-- The cast keeps the lengths of allocations. -/
theorem asI64_of_lt {n : ℕ} (h : n < 2 ^ 63) :
  asI64 n = n
  := by
  rw [asI64, if_pos (by omega)]
  omega

/-- The cast never increases a number. -/
theorem asI64_le (n : ℕ) :
  asI64 n ≤ n
  := by
  rw [asI64]
  split
  all_goals omega

/-- The cast of a number from the upper half of the range is negative. -/
theorem asI64_neg {n : ℕ} (hlo : 2 ^ 63 ≤ n) (hhi : n < 2 ^ 64) :
  asI64 n < 0
  := by
  rw [asI64, if_neg (by omega)]
  omega

/-- Sums and differences in the range of signed 64-bit integers do not wrap around. -/
theorem wrapI64_of_mem {z : ℤ} (hlo : -2 ^ 63 ≤ z) (hhi : z < 2 ^ 63) :
  wrapI64 z = z
  := by
  rw [wrapI64, asI64, asU64]
  split
  all_goals omega

/-- The cast keeps the numbers that are not negative. -/
theorem asU64_of_mem {z : ℤ} (hlo : 0 ≤ z) (hhi : z < 2 ^ 64) :
  (asU64 z : ℤ) = z
  := by
  rw [asU64]
  omega

/-! ### The filesystem -/

/-- A byte-quota'd in-memory filesystem. -/
structure MemFs where
  files : AList fun _ : List PathComponent => Bytes
  quotaBytes : ℕ
  used : ℕ

/-- What an operation does to the counter. -/
inductive Accounting where
  | fetchAdd (delta : ℕ)
  | fetchSub (delta : ℕ)
  deriving DecidableEq, Repr

/-- The counter after an operation on it.  It is a 64-bit counter and wraps around. -/
def Accounting.apply (used : ℕ) : Accounting → ℕ
  | .fetchAdd delta => (used + delta) % 2 ^ 64
  | .fetchSub delta => (used + 2 ^ 64 - delta) % 2 ^ 64

namespace MemFs

/-- An empty filesystem with the given quota. -/
def new (quotaBytes : ℕ) : MemFs := { files := ∅, quotaBytes, used := 0 }

/-- Bytes currently held. -/
def usedBytes (fs : MemFs) : ℕ := fs.used

/-- Whether a path has a file. -/
def «exists» (fs : MemFs) (path : String) : Bool := (fs.files.lookup (components path)).isSome

/-- The checks of `write` and what it then does to the counter. -/
def charge (fs : MemFs) (path : String) (bytes : Bytes) : Except Error Accounting :=
  if path = "" || isAbsolute path then
    .error (.limitExceeded s!"invalid scratch path `{path}`")
  else
    let prev := ((fs.files.lookup (components path)).map fun b => asI64 b.length).getD 0
    let next := asI64 bytes.length
    let delta := wrapI64 (next - prev)
    if delta > 0 ∧ wrapI64 (asI64 fs.used + delta) > asI64 fs.quotaBytes then
      let quota := fs.quotaBytes
      .error (.limitExceeded s!"memfs quota of {quota} bytes exceeded writing `{path}`")
    else if delta ≥ 0 then .ok (.fetchAdd (asU64 delta))
    else .ok (.fetchSub (asU64 (wrapI64 (-delta))))

/-- Overwrite or create the file at a path. -/
def write (fs : MemFs) (path : String) (bytes : Bytes) : MemFs × Except Error Unit :=
  match fs.charge path bytes with
  | .error e => (fs, .error e)
  | .ok accounting =>
      ({ fs with
          files := fs.files.insert (components path) bytes
          used := accounting.apply fs.used },
        .ok ())

/-- Read the file at a path, if present. -/
def read (fs : MemFs) (path : String) : Option Bytes := fs.files.lookup (components path)

/-- Remove the file at a path, returning its contents if it existed. -/
def remove (fs : MemFs) (path : String) : MemFs × Option Bytes :=
  match fs.files.lookup (components path) with
  | none => (fs, none)
  | some removed =>
      ({ fs with
          files := fs.files.erase (components path)
          used := (Accounting.fetchSub removed.length).apply fs.used },
        some removed)

/-- The number of bytes in all files. -/
def storedBytes (fs : MemFs) : ℕ := fs.files.weight List.length

end MemFs

/-! ### Calls and runs -/

/-- The calls on a scratch filesystem. -/
inductive MemFsCall where
  | write (path : String) (bytes : Bytes)
  | read (path : String)
  | exists (path : String)
  | remove (path : String)
  | usedBytes
  deriving DecidableEq, Repr

/-- What a call returns. -/
inductive MemFsReply where
  | wrote (outcome : Except Error Unit)
  | content (bytes : Option Bytes)
  | present (answer : Bool)
  | bytes (n : ℕ)

/-- A call together with what it returned. -/
structure MemFsEvent where
  call : MemFsCall
  reply : MemFsReply

namespace MemFs

/-- Execute a call. -/
def call (fs : MemFs) : MemFsCall → MemFs × MemFsReply
  | .write path bytes => ((fs.write path bytes).1, .wrote (fs.write path bytes).2)
  | .read path => (fs, .content (fs.read path))
  | .exists path => (fs, .present (fs.exists path))
  | .remove path => ((fs.remove path).1, .content (fs.remove path).2)
  | .usedBytes => (fs, .bytes fs.usedBytes)

/-- The stored bytes and the buffer of the caller are live allocations: together they are
fewer than `isize::MAX`. -/
def Fits (fs : MemFs) : MemFsCall → Prop
  | .write _ bytes => fs.storedBytes + bytes.length < 2 ^ 63
  | _ => True

instance (fs : MemFs) : ∀ c, Decidable (fs.Fits c)
  | .write _ bytes => inferInstanceAs (Decidable (fs.storedBytes + bytes.length < 2 ^ 63))
  | .read _ | .exists _ | .remove _ | .usedBytes => inferInstanceAs (Decidable True)

end MemFs

/-- A filesystem and the calls served so far, the latest first. -/
abbrev MemFsState := MemFs × List MemFsEvent

/-- The calls of the instances that share a filesystem, in the order they take the mutex. -/
def memFsMachine : Machine MemFsState MemFsCall where
  step := fun (fs, log) call =>
    some ((fs.call call).1, { call, reply := (fs.call call).2 } :: log)

/-- The bytes of the last successful write to a path with the components `key`, unless a
remove of it came later. -/
def lastWritten : List MemFsEvent → List PathComponent → Option Bytes
  | [], _ => none
  | { call := .write path bytes, reply := .wrote (.ok ()) } :: log, key =>
      if components path = key then some bytes else lastWritten log key
  | { call := .remove path, .. } :: log, key =>
      if components path = key then none else lastWritten log key
  | _ :: log, key => lastWritten log key

/-! ### The refinement -/

/-- The filesystem represents the quota'd map `m`. -/
structure MemFs.Represents (fs : MemFs)
    (m : QuotaMap (List PathComponent) Bytes List.length) : Prop where
  files : fs.files = m.map
  used : fs.used = m.total
  quota : fs.quotaBytes = m.quota

namespace MemFs

/-- A filesystem that represents a quota'd map counts the bytes it stores. -/
theorem Represents.used_eq {fs : MemFs} {m : QuotaMap (List PathComponent) Bytes List.length}
    (hrep : fs.Represents m) :
  fs.used = fs.storedBytes
  := by
  rw [hrep.used, storedBytes, hrep.files]
  rfl

/-- No file is longer than the counter says. -/
theorem Represents.length_le {fs : MemFs}
    {m : QuotaMap (List PathComponent) Bytes List.length} (hrep : fs.Represents m)
    {key : List PathComponent} {bytes : Bytes} (h : fs.files.lookup key = some bytes) :
  bytes.length ≤ fs.used
  := by
  rw [hrep.used]
  apply QuotaMap.size_le_total (k := key)
  rw [QuotaMap.get, ← hrep.files]
  apply h

/-- The length of the file that a write replaces, as a signed integer. -/
theorem prev_eq {fs : MemFs} (h : fs.storedBytes < 2 ^ 63) (key : List PathComponent) :
  ((fs.files.lookup key).map fun b => asI64 b.length).getD 0
    = fs.files.weightAt List.length key
  := by
  have hle : fs.files.weightAt List.length key ≤ fs.storedBytes :=
    fs.files.weightAt_le_weight List.length key
  cases hfile : fs.files.lookup key with
  | none => simp [AList.weightAt, hfile]
  | some b =>
      rw [AList.weightAt_of_lookup List.length hfile] at hle ⊢
      simp only [Option.map_some, Option.getD_some]
      apply asI64_of_lt
      omega

/-- When the counter is right and the buffer is a live allocation, the checks of a write compute
without overflow: only the cast of the quota can change a number. -/
theorem charge_eq {fs : MemFs} (path : String) {bytes : Bytes} (hused : fs.used = fs.storedBytes)
    (hfits : fs.storedBytes + bytes.length < 2 ^ 63) :
  fs.charge path bytes
    = if path = "" || isAbsolute path then
        .error (.limitExceeded s!"invalid scratch path `{path}`")
      else
        let delta : ℤ := bytes.length - fs.files.weightAt List.length (components path)
        if delta > 0 ∧ fs.used + delta > asI64 fs.quotaBytes then
          let quota := fs.quotaBytes
          .error (.limitExceeded s!"memfs quota of {quota} bytes exceeded writing `{path}`")
        else if delta ≥ 0 then .ok (.fetchAdd delta.toNat)
        else .ok (.fetchSub (-delta).toNat)
  := by
  have hle : fs.files.weightAt List.length (components path) ≤ fs.storedBytes :=
    fs.files.weightAt_le_weight List.length (components path)
  have hsmall : fs.storedBytes < 2 ^ 63 := by omega
  have hprev := prev_eq hsmall (components path)
  rw [charge]
  dsimp only
  rw [hprev, asI64_of_lt (n := bytes.length) (by omega), wrapI64_of_mem (by omega) (by omega),
    asI64_of_lt (n := fs.used) (by omega), wrapI64_of_mem (by omega) (by omega)]
  generalize fs.files.weightAt List.length (components path) = prev at hle ⊢
  split
  · rfl
  split
  · rfl
  split
  next hdelta =>
    have hcast := asU64_of_mem (z := (bytes.length : ℤ) - prev) (by omega) (by omega)
    congr 2
    omega
  next hdelta =>
    have hcast := asU64_of_mem (z := -((bytes.length : ℤ) - prev)) (by omega) (by omega)
    rw [wrapI64_of_mem (by omega) (by omega)]
    congr 2
    omega

/-- Under the same assumptions the counter moves by the difference between the new length and
the old one, does not pass the quota, and is never lowered below zero. -/
theorem charge_ok {fs : MemFs} {path : String} {bytes : Bytes} {accounting : Accounting}
    (hused : fs.used = fs.storedBytes) (hfits : fs.storedBytes + bytes.length < 2 ^ 63)
    (h : fs.charge path bytes = .ok accounting) :
  accounting.apply fs.used + fs.files.weightAt List.length (components path)
      = fs.used + bytes.length
    ∧ (fs.used ≤ fs.quotaBytes → accounting.apply fs.used ≤ fs.quotaBytes)
    ∧ ∀ d, accounting = .fetchSub d → d ≤ fs.used
  := by
  have hle : fs.files.weightAt List.length (components path) ≤ fs.storedBytes :=
    fs.files.weightAt_le_weight List.length (components path)
  have hquota := asI64_le fs.quotaBytes
  rw [charge_eq path hused hfits] at h
  generalize fs.files.weightAt List.length (components path) = prev at h hle ⊢
  split at h
  · cases h
  dsimp only at h
  split at h
  · cases h
  split at h
  · obtain rfl := Except.ok.inj h
    rw [Accounting.apply]
    refine ⟨by omega, by omega, ?_⟩
    rintro d ⟨⟩
  · obtain rfl := Except.ok.inj h
    rw [Accounting.apply]
    refine ⟨by omega, by omega, ?_⟩
    rintro d ⟨⟩
    omega

/-- A write that is refused changes nothing. -/
theorem write_error {fs : MemFs} {path : String} {bytes : Bytes} {e : Error}
    (h : (fs.write path bytes).2 = .error e) :
  (fs.write path bytes).1 = fs
  := by
  unfold write at h ⊢
  cases hcharge : fs.charge path bytes with
  | error e' => rfl
  | ok accounting => simp [hcharge] at h

/-- What a write does to the files: bind the path, or nothing. -/
theorem write_files (fs : MemFs) (path : String) (bytes : Bytes) :
  (fs.write path bytes).1.files
    = match (fs.write path bytes).2 with
      | .ok () => fs.files.insert (components path) bytes
      | .error _ => fs.files
  := by
  unfold write
  cases fs.charge path bytes
  all_goals rfl

/-- What a remove returns: the file at the path. -/
theorem remove_result (fs : MemFs) (path : String) :
  (fs.remove path).2 = fs.files.lookup (components path)
  := by
  rw [remove]
  cases fs.files.lookup (components path)
  all_goals rfl

/-- What a remove does to the files: unbind the path. -/
theorem remove_files (fs : MemFs) (path : String) (key : List PathComponent) :
  (fs.remove path).1.files.lookup key
    = if components path = key then none else fs.files.lookup key
  := by
  rw [remove]
  cases hfile : fs.files.lookup (components path) with
  | none =>
      obtain rfl | hne := eq_or_ne (components path) key
      · rw [if_pos rfl, hfile]
      · rw [if_neg hne]
  | some removed =>
      obtain rfl | hne := eq_or_ne (components path) key
      · rw [if_pos rfl]
        apply AList.lookup_erase
      · rw [if_neg hne]
        apply AList.lookup_erase_ne hne.symm

/-- A write takes the quota'd map one step. -/
theorem write_refines {fs : MemFs} {m : QuotaMap (List PathComponent) Bytes List.length}
    (hrep : fs.Represents m) {path : String} {bytes : Bytes}
    (hfits : fs.storedBytes + bytes.length < 2 ^ 63) :
  ∃ m', QuotaMap.Step m m' ∧ (fs.write path bytes).1.Represents m'
  := by
  have hstored : fs.used = fs.storedBytes := hrep.used_eq
  unfold write
  cases hcharge : fs.charge path bytes with
  | error e => exact ⟨m, .keep m, hrep⟩
  | ok accounting =>
      obtain ⟨hsum, hquota, -⟩ := charge_ok hstored hfits hcharge
      have hweight := fs.files.weight_insert List.length (components path) bytes
      have hused : accounting.apply fs.used
          = (fs.files.insert (components path) bytes).weight List.length := by
        rw [storedBytes] at hstored
        omega
      have hwithin : (m.map.insert (components path) bytes).weight List.length ≤ m.quota := by
        rw [← hrep.files, ← hused, ← hrep.quota]
        apply hquota
        rw [hrep.used, hrep.quota]
        apply m.within
      refine ⟨m.put (components path) bytes hwithin, .put .., ?_, ?_, hrep.quota⟩
      · simp only [QuotaMap.put, hrep.files]
      · simp only [hused, QuotaMap.total, QuotaMap.put, hrep.files]

/-- A remove takes the quota'd map one step. -/
theorem remove_refines {fs : MemFs} {m : QuotaMap (List PathComponent) Bytes List.length}
    (hrep : fs.Represents m) (hsmall : fs.used < 2 ^ 64) (path : String) :
  ∃ m', QuotaMap.Step m m' ∧ (fs.remove path).1.Represents m'
  := by
  unfold remove
  cases hfile : fs.files.lookup (components path) with
  | none => exact ⟨m, .keep m, hrep⟩
  | some removed =>
      have hweight := m.map.weight_erase List.length (components path)
      rw [hrep.files] at hfile
      rw [AList.weightAt_of_lookup List.length hfile] at hweight
      refine ⟨m.erase (components path), .erase .., ?_, ?_, hrep.quota⟩
      · simp only [QuotaMap.erase, hrep.files]
      · have hused := hrep.used
        simp only [Accounting.apply, QuotaMap.total, QuotaMap.erase] at hused ⊢
        omega

/-- Every call takes the quota'd map one step. -/
theorem call_refines {fs : MemFs} {m : QuotaMap (List PathComponent) Bytes List.length}
    (hrep : fs.Represents m) (hsmall : fs.used < 2 ^ 63) {c : MemFsCall} (hfits : fs.Fits c) :
  ∃ m', QuotaMap.Step m m' ∧ (fs.call c).1.Represents m'
  := by
  cases c with
  | write path bytes => exact write_refines hrep hfits
  | remove path => exact remove_refines hrep (by omega) path
  | read path => exact ⟨m, .keep m, hrep⟩
  | «exists» path => exact ⟨m, .keep m, hrep⟩
  | usedBytes => exact ⟨m, .keep m, hrep⟩

/-- What a call does to the files is what its event says. -/
theorem call_files {fs : MemFs} {log : List MemFsEvent}
    (hlog : ∀ key, fs.files.lookup key = lastWritten log key) (c : MemFsCall)
    (key : List PathComponent) :
  (fs.call c).1.files.lookup key
    = lastWritten ({ call := c, reply := (fs.call c).2 } :: log) key
  := by
  cases c with
  | write path bytes =>
      simp only [call, write_files]
      cases (fs.write path bytes).2 with
      | error e => exact hlog key
      | ok _ =>
          rw [lastWritten]
          obtain rfl | hne := eq_or_ne (components path) key
          · rw [if_pos rfl, AList.lookup_insert]
          · rw [if_neg hne, AList.lookup_insert_ne hne.symm, hlog]
  | remove path =>
      rw [call, remove_files, lastWritten, hlog]
  | read path => exact hlog key
  | «exists» path => exact hlog key
  | usedBytes => exact hlog key

/-- No call makes the counter pass the range of allocations. -/
theorem call_used_lt {fs : MemFs} {m : QuotaMap (List PathComponent) Bytes List.length}
    (hrep : fs.Represents m) (hsmall : fs.used < 2 ^ 63) {c : MemFsCall} (hfits : fs.Fits c) :
  (fs.call c).1.used < 2 ^ 63
  := by
  cases c with
  | write path bytes =>
      rw [call, write]
      cases hcharge : fs.charge path bytes with
      | error e => exact hsmall
      | ok accounting =>
          obtain ⟨hsum, -, -⟩ := charge_ok hrep.used_eq hfits hcharge
          have hfits' : fs.storedBytes + bytes.length < 2 ^ 63 := hfits
          have hused := hrep.used_eq
          simp only
          omega
  | remove path =>
      rw [call, remove]
      cases hfile : fs.files.lookup (components path) with
      | none => exact hsmall
      | some removed =>
          have hle : removed.length ≤ fs.used := hrep.length_le hfile
          simp only [Accounting.apply]
          omega
  | read path => exact hsmall
  | «exists» path => exact hsmall
  | usedBytes => exact hsmall

end MemFs

/-- The invariant of the runs: the filesystem represents a map with the configured quota, it
holds no more than can be allocated, and its files are those last written. -/
structure MemFsOk (quota : ℕ) (s : MemFsState) : Prop where
  refines : ∃ m, s.1.Represents m ∧ m.quota = quota
  small : s.1.used < 2 ^ 63
  log : ∀ key, s.1.files.lookup key = lastWritten s.2 key

/-- A new filesystem satisfies the invariant. -/
theorem MemFsOk.new (quota : ℕ) :
  MemFsOk quota (MemFs.new quota, [])
  := by
  constructor
  · exact ⟨QuotaMap.empty quota, ⟨rfl, rfl, rfl⟩, rfl⟩
  · apply Nat.two_pow_pos 63
  · intro key
    rfl

/-- Every call keeps the invariant. -/
theorem MemFsOk.step {quota : ℕ} {s t : MemFsState} {c : MemFsCall} (hs : MemFsOk quota s)
    (hfits : s.1.Fits c) (h : memFsMachine.step s c = some t) :
  MemFsOk quota t
  := by
  obtain ⟨m, hrep, hquota⟩ := hs.refines
  obtain rfl := Option.some.inj h
  constructor
  · obtain ⟨m', hstep, hrep'⟩ := MemFs.call_refines hrep hs.small hfits
    exact ⟨m', hrep', hstep.quota_eq.trans hquota⟩
  · apply MemFs.call_used_lt hrep hs.small hfits
  · apply MemFs.call_files hs.log c

/-- The invariant holds after any calls on a new filesystem. -/
theorem MemFsOk.of_run {quota : ℕ} {calls : List MemFsCall} {s : MemFsState}
    (hfits : memFsMachine.Meets (fun s c => s.1.Fits c) (MemFs.new quota, []) calls)
    (hrun : memFsMachine.run (MemFs.new quota, []) calls = some s) :
  MemFsOk quota s
  := by
  apply memFsMachine.run_induct _ (MemFsOk.new quota) hfits hrun
  intro s c t hs hc h
  apply hs.step hc h

/-- The files are within the quota. -/
theorem MemFsOk.stored_le {quota : ℕ} {s : MemFsState} (hok : MemFsOk quota s) :
  s.1.storedBytes ≤ quota
  := by
  obtain ⟨m, hrep, rfl⟩ := hok.refines
  rw [← hrep.used_eq, hrep.used]
  apply m.within

/-- The scratch filesystem refines a quota'd map.  After any calls, with any quota:
the counter is the number of bytes stored, and at most the quota;
the counter is never lowered by more than it holds;
a read returns the bytes of the last successful write to an equal path that was not removed
since, a remove returns them too, and `exists` tells whether there are any;
a write or a remove leaves all other files as they are;
a write that is refused changes nothing. -/
theorem memFs_refines {quota : ℕ} {calls : List MemFsCall} {fs : MemFs} {log : List MemFsEvent}
    (hfits : memFsMachine.Meets (fun s c => s.1.Fits c) (MemFs.new quota, []) calls)
    (hrun : memFsMachine.run (MemFs.new quota, []) calls = some (fs, log)) :
  (fs.usedBytes = fs.storedBytes ∧ fs.usedBytes ≤ quota)
    ∧ (∀ path bytes d, fs.Fits (.write path bytes) → fs.charge path bytes = .ok (.fetchSub d) →
        d ≤ fs.usedBytes)
    ∧ (∀ path removed, fs.read path = some removed → removed.length ≤ fs.usedBytes)
    ∧ (∀ path, fs.read path = lastWritten log (components path)
        ∧ (fs.remove path).2 = lastWritten log (components path)
        ∧ fs.exists path = (lastWritten log (components path)).isSome)
    ∧ (∀ path path' bytes, components path' ≠ components path →
        (fs.write path bytes).1.read path' = fs.read path'
          ∧ (fs.remove path).1.read path' = fs.read path')
    ∧ (∀ path bytes e, (fs.write path bytes).2 = .error e → (fs.write path bytes).1 = fs)
  := by
  have hok : MemFsOk quota (fs, log) := MemFsOk.of_run hfits hrun
  obtain ⟨m, hrep, -⟩ := hok.refines
  refine ⟨⟨hrep.used_eq, ?_⟩, ?_, ?_, ?_, ?_, ?_⟩
  · rw [MemFs.usedBytes, hrep.used_eq]
    apply hok.stored_le
  · intro path bytes d hwrite hcharge
    obtain ⟨-, -, hsub⟩ := MemFs.charge_ok hrep.used_eq hwrite hcharge
    apply hsub d rfl
  · intro path removed hread
    apply hrep.length_le hread
  · intro path
    have hlog : fs.files.lookup (components path) = lastWritten log (components path) :=
      hok.log (components path)
    rw [MemFs.remove_result, MemFs.exists, MemFs.read, hlog]
    exact ⟨rfl, rfl, rfl⟩
  · intro path path' bytes hne
    constructor
    · rw [MemFs.read, MemFs.write_files]
      cases (fs.write path bytes).2 with
      | error e => rfl
      | ok _ => exact AList.lookup_insert_ne hne
    · rw [MemFs.read, MemFs.remove_files, if_neg hne.symm]
      rfl
  · intro path bytes e he
    apply MemFs.write_error he

/-- Under a quota of four bytes, a file of three bytes is overwritten by one of a single byte
through another spelling of its path, and a file of four bytes is then refused. -/
theorem memFs_refines_overwrite :
  ∃ fs log,
    memFsMachine.run (MemFs.new 4, [])
        [.write "a" [1, 2, 3], .write "a/." [7], .write "b" [1, 2, 3, 4]] = some (fs, log)
      ∧ fs.usedBytes = 1
      ∧ fs.usedBytes = fs.storedBytes ∧ fs.usedBytes ≤ 4
      ∧ fs.read "a" = lastWritten log (components "a")
  := by
  have hfits : memFsMachine.Meets (fun s c => s.1.Fits c) (MemFs.new 4, [])
      [.write "a" [1, 2, 3], .write "a/." [7], .write "b" [1, 2, 3, 4]] := by
    refine ⟨by decide, ?_⟩
    rintro _ ⟨⟩
    refine ⟨by decide, ?_⟩
    rintro _ ⟨⟩
    exact ⟨by decide, fun _ _ => trivial⟩
  obtain ⟨⟨hused, hquota⟩, -, -, hread, -⟩ := memFs_refines hfits rfl
  exact ⟨_, _, rfl, rfl, hused, hquota, (hread "a").1⟩

end Ember
