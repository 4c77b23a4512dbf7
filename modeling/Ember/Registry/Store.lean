import Mathlib.Data.String.Basic
import Ember.Library.Directory
import Ember.Component.Loader

/-!
# The content store and the reload policy

`ContentStore` keeps component blobs in one directory, each under the hexadecimal text of
its SHA-256.  `put` writes a blob to a temporary file, syncs it and renames it onto its
name; `get` and `contains` look a digest up.  Every file-system call may meet a `Fault`, an
I/O error of the environment's choosing.

`HotReloadPolicy` decides when a refreshed digest replaces the active one.
-/

namespace Ember

variable {κ : Type} (C : Crates κ)

/-- An I/O error met by a file-system call: its text, and the number of bytes a failing
`write_all` had written by then. -/
structure Fault where
  reason : String
  done : ℕ
  deriving DecidableEq, Repr

/-- `std::io::Error`, as far as the store looks at it. -/
inductive IoError where
  | alreadyExists
  | notFound
  | other (reason : String)
  deriving DecidableEq, Repr

/-- The text of an I/O error. -/
def IoError.display : IoError → String
  | .alreadyExists => "File exists (os error 17)"
  | .notFound => "No such file or directory (os error 2)"
  | .other reason => reason

/-- The process a store runs in: its id, and whether `rename` replaces an existing file on
its platform. -/
structure Process where
  pid : ℕ
  renameReplaces : Bool
  deriving DecidableEq, Repr

/-- The content digest of `blob`. -/
def digest (blob : Bytes) : String := C.sha256Digest blob

/-- The file name of a digest, for digests of the form `sha256:` followed by 64 hexadecimal
digits. -/
def sanitizeDigest (digest : String) : Except Error String :=
  match stripPrefix "sha256:" digest with
  | none => .error (.componentNotFound s!"unsupported digest scheme in `{digest}`")
  | some hex =>
      if hex.utf8ByteSize ≠ 64 ∨ !hex.toList.all isAsciiHexdigit then
        .error (.componentNotFound s!"malformed sha256 digest `{digest}`")
      else .ok hex

/-- A hexadecimal digit takes one byte. -/
theorem utf8Size_of_isAsciiHexdigit {c : Char} (h : isAsciiHexdigit c = true) :
  c.utf8Size = 1
  := by
  rw [Char.utf8Size_eq_one_iff, UInt32.le_iff_toNat_le]
  simp only [isAsciiHexdigit, Bool.or_eq_true, Bool.and_eq_true, decide_eq_true_eq,
    Char.le_def, UInt32.le_iff_toNat_le] at h
  rcases h with (⟨-, h⟩ | ⟨-, h⟩) | ⟨-, h⟩
  all_goals apply le_trans h (by decide)

/-- A text of hexadecimal digits takes as many bytes as it has characters. -/
theorem utf8ByteSize_of_all_isAsciiHexdigit {s : String}
    (h : s.toList.all isAsciiHexdigit = true) :
  s.utf8ByteSize = s.toList.length
  := by
  have key : ∀ cs : List Char, cs.all isAsciiHexdigit = true →
      (String.ofList cs).utf8ByteSize = cs.length := by
    intro cs
    induction cs with
    | nil => simp
    | cons c cs ih =>
        intro hcs
        simp only [List.all_cons, Bool.and_eq_true] at hcs
        have hsize := ih hcs.2
        rw [String.utf8ByteSize_ofList] at hsize ⊢
        rw [String.utf8Len_cons, hsize, utf8Size_of_isAsciiHexdigit hcs.1, List.length_cons]
  have := key s.toList h
  rwa [String.ofList_toList] at this

/-- What is left after stripping a leading `p`, put back after `p`, is the whole text. -/
theorem stripPrefix_eq_some {p s r : String} :
  stripPrefix p s = some r ↔ s = p ++ r
  := by
  unfold stripPrefix
  rw [← String.toList_inj, String.toList_append]
  constructor
  · intro h
    split at h
    · rename_i hp
      obtain rfl := Option.some.inj h
      obtain ⟨t, ht⟩ := List.isPrefixOf_iff_prefix.mp hp
      rw [String.toList_ofList, ← ht, List.drop_left]
    · cases h
  · intro h
    have hp : p.toList.isPrefixOf s.toList = true := by
      rw [List.isPrefixOf_iff_prefix, h]
      apply List.prefix_append
    rw [if_pos hp, h, List.drop_left, String.ofList_toList]

/-- A digest has a file name exactly when it is `sha256:` followed by 64 hexadecimal
digits, and that name is those digits. -/
theorem sanitizeDigest_ok {d hex : String} :
  sanitizeDigest d = .ok hex
    ↔ d = "sha256:" ++ hex ∧ hex.toList.length = 64 ∧ hex.toList.all isAsciiHexdigit = true
  := by
  constructor
  · intro h
    unfold sanitizeDigest at h
    split at h
    · cases h
    · rename_i hex' hstrip
      split at h
      · cases h
      · rename_i hform
        obtain rfl := Except.ok.inj h
        simp only [ne_eq, Bool.not_eq_true', not_or, Decidable.not_not,
          Bool.not_eq_false] at hform
        use stripPrefix_eq_some.mp hstrip
        constructor
        · rw [← utf8ByteSize_of_all_isAsciiHexdigit hform.2, hform.1]
        · apply hform.2
  · rintro ⟨rfl, hlen, hall⟩
    have hsize : hex.utf8ByteSize = 64 := by
      rw [utf8ByteSize_of_all_isAsciiHexdigit hall, hlen]
    simp [sanitizeDigest, stripPrefix_eq_some.mpr rfl, hsize, hall]

/-- The blob of a byte string lives under the hexadecimal text of its SHA-256. -/
@[simp]
theorem sanitizeDigest_digest (blob : Bytes) :
  sanitizeDigest (digest C blob) = .ok (C.sha256Hex blob)
  := sanitizeDigest_ok.mpr ⟨rfl, C.length_sha256Hex blob, C.sha256Hex_all blob⟩

/-! ### File-system calls -/

/-- `Path::exists`: an error counts as absence. -/
def pathExists (fault : Option Fault) (dir : Directory UInt8) (name : String) : Bool :=
  match fault with
  | some _ => false
  | none => dir.has name

/-- `File::create`. -/
def fileCreate (fault : Option Fault) (dir : Directory UInt8) (name : String) :
    Directory UInt8 × Except IoError ℕ :=
  match fault with
  | some f => (dir, .error (.other f.reason))
  | none => ((dir.create name).1, .ok (dir.create name).2)

/-- `File::write_all` through a handle on `file` opened at its start. -/
def writeAll (fault : Option Fault) (dir : Directory UInt8) (file : ℕ) (blob : Bytes) :
    Directory UInt8 × Except IoError Unit :=
  match fault with
  | some f => (dir.write file (blob.take f.done), .error (.other f.reason))
  | none => (dir.write file blob, .ok ())

/-- `File::sync_all`. -/
def syncAll (fault : Option Fault) : Except IoError Unit :=
  match fault with
  | some f => .error (.other f.reason)
  | none => .ok ()

/-- `std::fs::rename`. -/
def fsRename (P : Process) (fault : Option Fault) (dir : Directory UInt8) (source target : String) :
    Directory UInt8 × Except IoError Unit :=
  match fault with
  | some f => (dir, .error (.other f.reason))
  | none =>
      if !P.renameReplaces && dir.has target then (dir, .error .alreadyExists)
      else
        match dir.rename source target with
        | none => (dir, .error .notFound)
        | some dir' => (dir', .ok ())

/-- The faults the file-system calls of one `put` meet. -/
structure PutFaults where
  metadata : Option Fault := none
  create : Option Fault := none
  write : Option Fault := none
  sync : Option Fault := none
  rename : Option Fault := none
  deriving DecidableEq, Repr

namespace ContentStore

/-- The name of the temporary file of a process. -/
def tmp (P : Process) : String := s!".tmp-{P.pid}"

/-- The name a digest's blob lives at. -/
def blobPath (digest : String) : Except Error String := sanitizeDigest digest

/-- Write `blob` into the store and return its content digest.  A digest that is present is
not written again. -/
def put (P : Process) (faults : PutFaults) (dir : Directory UInt8) (blob : Bytes) :
    Directory UInt8 × Except Error String :=
  match blobPath (digest C blob) with
  | .error e => (dir, .error e)
  | .ok path =>
      if pathExists faults.metadata dir path then (dir, .ok (digest C blob))
      else
        match fileCreate faults.create dir (tmp P) with
        | (dir, .error e) => (dir, .error (.io e.display))
        | (dir, .ok file) =>
            match writeAll faults.write dir file blob with
            | (dir, .error e) => (dir, .error (.io e.display))
            | (dir, .ok ()) =>
                match syncAll faults.sync with
                | .error e => (dir, .error (.io e.display))
                | .ok () =>
                    match fsRename P faults.rename dir (tmp P) path with
                    | (dir, .ok ()) => (dir, .ok (digest C blob))
                    | (dir, .error .alreadyExists) => (dir, .ok (digest C blob))
                    | (dir, .error e) => (dir, .error (.io e.display))

/-- The blob of `digest`. -/
def get (fault : Option Fault) (dir : Directory UInt8) (digest : String) : Except Error Bytes :=
  match blobPath digest with
  | .error e => .error e
  | .ok path =>
      match fault, dir.read path with
      | none, some bytes => .ok bytes
      | _, _ => .error (.componentNotFound digest)

/-- Whether `digest` is present. -/
def contains (fault : Option Fault) (dir : Directory UInt8) (digest : String) : Bool :=
  match blobPath digest with
  | .error _ => false
  | .ok path => pathExists fault dir path

/-- The total size of the files that are not temporary. -/
def diskUsage (fault : Option Fault) (dir : Directory UInt8) : Except Error ℕ :=
  match fault with
  | some f => .error (.io f.reason)
  | none => .ok
      ((dir.names.keys.filter fun n => !".tmp".toList.isPrefixOf n.toList).map fun n =>
        ((dir.read n).getD []).length).sum

end ContentStore

/-! ### What the calls of `put` establish -/

/-- What is found to exist does exist. -/
theorem has_of_pathExists {fault : Option Fault} {dir : Directory UInt8} {name : String}
    (h : pathExists fault dir name = true) :
  dir.has name = true
  := by
  cases fault with
  | some f => cases h
  | none => apply h

theorem fileCreate_ok {fault : Option Fault} {dir dir' : Directory UInt8} {name : String}
    {file : ℕ} (h : fileCreate fault dir name = (dir', .ok file)) :
  dir' = (dir.create name).1 ∧ file = (dir.create name).2
  := by
  cases fault with
  | some f => simp [fileCreate] at h
  | none =>
      simp only [fileCreate, Prod.mk.injEq, Except.ok.injEq] at h
      exact ⟨h.1.symm, h.2.symm⟩

theorem writeAll_ok {fault : Option Fault} {dir dir' : Directory UInt8} {file : ℕ}
    {blob : Bytes} (h : writeAll fault dir file blob = (dir', .ok ())) :
  dir' = dir.write file blob
  := by
  cases fault with
  | some f => simp [writeAll] at h
  | none =>
      simp only [writeAll, Prod.mk.injEq, and_true] at h
      apply h.symm

/-- A rename that returns moved the file; one that finds the target present, on a platform
that does not replace, left the directory as it was. -/
theorem fsRename_cases {P : Process} {fault : Option Fault} {dir dir' : Directory UInt8}
    {source target : String} {r : Except IoError Unit}
    (h : fsRename P fault dir source target = (dir', r)) :
  (r = .ok () ∧ dir.rename source target = some dir')
    ∨ (r = .error .alreadyExists ∧ dir' = dir ∧ dir.has target = true)
    ∨ (r ≠ .ok () ∧ r ≠ .error .alreadyExists ∧ dir' = dir)
  := by
  cases fault with
  | some f =>
      obtain ⟨rfl, rfl⟩ := Prod.mk.inj h
      simp
  | none =>
      simp only [fsRename] at h
      split at h
      · rename_i hcond
        obtain ⟨rfl, rfl⟩ := Prod.mk.inj h
        simp only [Bool.and_eq_true] at hcond
        simp [hcond.2]
      · split at h
        · obtain ⟨rfl, rfl⟩ := Prod.mk.inj h
          simp
        · rename_i dir'' hrename
          obtain ⟨rfl, rfl⟩ := Prod.mk.inj h
          simp [hrename]

namespace ContentStore

/-- The name of a temporary file is not a hexadecimal text. -/
theorem tmp_not_hex (P : Process) :
  (tmp P).toList.all isAsciiHexdigit = false
  := by
  have h : (tmp P).toList = '.' :: ("tmp-" ++ toString P.pid).toList := by
    rw [tmp, String.toList_append, String.toList_append]
    rfl
  rw [h, List.all_cons]
  rfl

/-- A hexadecimal name is not the name of a temporary file. -/
theorem ne_tmp {P : Process} {name : String} (h : name.toList.all isAsciiHexdigit = true) :
  name ≠ tmp P
  := by
  rintro rfl
  simp [tmp_not_hex] at h

/-- A digest with the file name `hex` is looked up by reading `hex`. -/
theorem get_ok {fault : Option Fault} {dir : Directory UInt8} {d hex : String} {bytes : Bytes}
    (hd : sanitizeDigest d = .ok hex) :
  get fault dir d = .ok bytes ↔ fault = none ∧ dir.read hex = some bytes
  := by
  simp only [get, blobPath, hd]
  split
  · simp_all
  · simp_all

/-- A digest with the file name `hex` is present when `hex` is bound. -/
theorem contains_eq {dir : Directory UInt8} {d hex : String} (hd : sanitizeDigest d = .ok hex) :
  contains none dir d = dir.has hex
  := by
  rw [contains, blobPath, hd]
  rfl

/-- A `put` that returns a digest returns the digest of the blob, and leaves the blob under it,
or what was there before. -/
theorem put_ok {P : Process} {faults : PutFaults} {dir dir' : Directory UInt8} {blob : Bytes}
    {d : String} (h : put C P faults dir blob = (dir', .ok d)) :
  d = digest C blob
    ∧ (dir'.read (C.sha256Hex blob) = some blob
      ∨ dir.has (C.sha256Hex blob) = true
        ∧ dir'.read (C.sha256Hex blob) = dir.read (C.sha256Hex blob))
  := by
  have hne := ne_tmp (P := P) (C.sha256Hex_all blob)
  simp only [put, blobPath, sanitizeDigest_digest] at h
  split at h
  · rename_i hexists
    obtain ⟨rfl, hd⟩ := Prod.mk.inj h
    use (Except.ok.inj hd).symm
    right
    exact ⟨has_of_pathExists hexists, rfl⟩
  · split at h
    · simp at h
    · rename_i dir₁ file hcreate
      obtain ⟨rfl, rfl⟩ := fileCreate_ok hcreate
      split at h
      · simp at h
      · rename_i dir₂ hwrite
        obtain rfl := writeAll_ok hwrite
        split at h
        · simp at h
        · have hfile := dir.file_create (tmp P)
          have hread := Directory.read_write _ hfile (dir.contents_create (tmp P)) blob
          split at h
          · rename_i dir₃ hrename
            obtain ⟨rfl, hd⟩ := Prod.mk.inj h
            use (Except.ok.inj hd).symm
            rcases fsRename_cases hrename with ⟨-, hmoved⟩ | ⟨hr, -⟩ | ⟨hr, -⟩
            · left
              rw [Directory.read_rename _ hmoved, hread]
            · cases hr
            · exact absurd rfl hr
          · rename_i dir₃ hrename
            obtain ⟨rfl, hd⟩ := Prod.mk.inj h
            use (Except.ok.inj hd).symm
            rcases fsRename_cases hrename with ⟨hr, -⟩ | ⟨-, rfl, hthere⟩ | ⟨-, hr, -⟩
            · cases hr
            · right
              constructor
              · rw [Directory.has, Directory.file_write, Directory.file_create_ne _ hne,
                  ← Directory.has] at hthere
                apply hthere
              · rw [Directory.read_write_ne _ hfile hne, Directory.read_create_ne _ hne]
            · exact absurd rfl hr
          · simp at h

end ContentStore

/-- When and how tenant components are re-resolved and swapped. -/
structure HotReloadPolicy where
  /-- How often the reload loop re-resolves references. -/
  pollInterval : Duration := .ofSecs 30
  /-- Minimum gap between two swaps of one tenant. -/
  debounce : Duration := .ofSecs 5
  /-- Refuse to activate an unpinned tag once a tenant has a pin. -/
  requirePinned : Bool := false
  /-- Consecutive pull failures before the tenant is parked. -/
  maxFailedPolls : ℕ := 3
  deriving DecidableEq, Repr

namespace HotReloadPolicy

/-- Whether switching from `prev` to `next` is worth doing. -/
def shouldReload (_policy : HotReloadPolicy) (prev : Option String) (next : String) : Bool :=
  match prev with
  | some prev => prev != next
  | none => true

/-- Whether `failures` consecutive failed polls exhaust the budget. -/
def exhausted (policy : HotReloadPolicy) (failures : ℕ) : Bool :=
  failures ≥ policy.maxFailedPolls

/-- A tenant is reloaded exactly when its digest changes. -/
theorem shouldReload_some (policy : HotReloadPolicy) (prev next : String) :
  policy.shouldReload (some prev) next = true ↔ prev ≠ next
  := by
  simp [shouldReload]

end HotReloadPolicy

end Ember
