import Ember.Registry.Puts

/-!
# Puts, crashes and restarts

One process after another runs on the root of a store, each making `put` calls one at a time.
Every file-system call may fail, and a process may crash between any two of them; the next one
starts with whatever the directory holds then.  What a crash leaves in the temporary files is
arbitrary: a file is synced before it is renamed, and under no other name is anything written.

The visible files of the root are a set of blobs, each under its own digest
(`ContentStore.blobs`).  Every operation of the store can be read off this set, and every step
leaves the set alone or adds the blob of the `put` in progress (`store_refines`).
-/

namespace Ember

variable {κ : Type} (C : Crates κ)

namespace ContentStore

/-- Whether `disk_usage` takes the name for that of a temporary file. -/
def isTmp (name : String) : Bool := ".tmp".toList.isPrefixOf name.toList

/-- The contents of the files that are not temporary. -/
def blobs (dir : Directory UInt8) : Finset Bytes :=
  ((dir.names.keys.filter fun n => !isTmp n).map fun n => (dir.read n).getD []).toFinset

/-- Every file that is not temporary holds content whose SHA-256 is its name. -/
def Visible (dir : Directory UInt8) : Prop :=
  ∀ name content, isTmp name = false → dir.read name = some content → C.sha256Hex content = name

/-- The operations on the directory are those on a set of blobs, looked up by digest. -/
structure Represents (dir : Directory UInt8) (stored : Finset Bytes) : Prop where
  contains : ∀ d, ContentStore.contains none dir d = true ↔ ∃ b ∈ stored, digest C b = d
  get : ∀ d b, ContentStore.get none dir d = .ok b ↔ b ∈ stored ∧ digest C b = d
  diskUsage : ContentStore.diskUsage none dir = .ok (∑ b ∈ stored, b.length)

/-! ### Names -/

theorem isTmp_tmp (P : Process) :
  isTmp (tmp P) = true
  := by
  rw [isTmp, List.isPrefixOf_iff_prefix, tmp, String.toList_append]
  use "-".toList ++ (toString P.pid).toList
  rfl

/-- A hexadecimal text is not the name of a temporary file. -/
theorem isTmp_of_hex {name : String} (h : name.toList.all isAsciiHexdigit = true) :
  isTmp name = false
  := by
  by_contra htmp
  rw [Bool.not_eq_false, isTmp, List.isPrefixOf_iff_prefix] at htmp
  obtain ⟨rest, hrest⟩ := htmp
  rw [← hrest, List.all_append, Bool.and_eq_true] at h
  exact absurd h.1 (by decide)

/-! ### The blobs of a directory -/

/-- A name is bound exactly when something is read under it. -/
theorem mem_keys_iff (dir : Directory UInt8) (name : String) :
  name ∈ dir.names.keys ↔ ∃ content, dir.read name = some content
  := by
  rw [← AList.mem_keys, ← AList.lookup_isSome, Option.isSome_iff_exists]
  constructor
  · rintro ⟨i, hi⟩
    use dir.contents i
    rw [Directory.read, Directory.file, hi, Option.map_some]
  · rintro ⟨content, hread⟩
    obtain ⟨i, hi, -⟩ := Option.map_eq_some_iff.mp hread
    use i, hi

/-- A blob of the directory is the content of a visible file. -/
theorem mem_blobs {dir : Directory UInt8} {b : Bytes} :
  b ∈ blobs dir ↔ ∃ name, isTmp name = false ∧ dir.read name = some b
  := by
  simp only [blobs, List.mem_toFinset, List.mem_map, List.mem_filter, mem_keys_iff,
    Bool.not_eq_true']
  constructor
  · rintro ⟨name, ⟨⟨content, hread⟩, htmp⟩, hb⟩
    use name, htmp
    rw [hread, Option.getD_some] at hb
    rw [hread, hb]
  · rintro ⟨name, htmp, hread⟩
    use name, ⟨⟨b, hread⟩, htmp⟩
    rw [hread, Option.getD_some]

/-- A blob of a visible directory is found under its own name. -/
theorem Visible.mem_blobs {dir : Directory UInt8} (h : Visible C dir) {b : Bytes} :
  b ∈ blobs dir ↔ dir.read (C.sha256Hex b) = some b
  := by
  rw [ContentStore.mem_blobs]
  constructor
  · rintro ⟨name, htmp, hread⟩
    rw [h name b htmp hread]
    apply hread
  · intro hread
    use C.sha256Hex b, isTmp_of_hex (C.sha256Hex_all b)

/-- A visible directory is its set of blobs. -/
theorem Visible.represents {dir : Directory UInt8} (h : Visible C dir) :
  Represents C dir (blobs dir)
  := by
  have hlookup : ∀ {hex b}, hex.toList.all isAsciiHexdigit = true → dir.read hex = some b →
      b ∈ blobs dir ∧ digest C b = "sha256:" ++ hex := by
    intro hex b hall hread
    have htmp := isTmp_of_hex hall
    constructor
    · apply ContentStore.mem_blobs.mpr ⟨hex, htmp, hread⟩
    · rw [← h hex b htmp hread]
      rfl
  constructor
  · intro d
    constructor
    · intro hcontains
      cases hhex : sanitizeDigest d with
      | error e => simp [ContentStore.contains, blobPath, hhex] at hcontains
      | ok hex =>
          rw [contains_eq hhex, Directory.has_eq_read, Option.isSome_iff_exists] at hcontains
          obtain ⟨b, hread⟩ := hcontains
          obtain ⟨rfl, -, hall⟩ := sanitizeDigest_ok.mp hhex
          use b
          apply hlookup hall hread
    · rintro ⟨b, hb, rfl⟩
      rw [contains_eq (sanitizeDigest_digest C b), Directory.has_eq_read, (h.mem_blobs C).mp hb]
      rfl
  · intro d b
    constructor
    · intro hget
      cases hhex : sanitizeDigest d with
      | error e => simp [ContentStore.get, blobPath, hhex] at hget
      | ok hex =>
          obtain ⟨-, hread⟩ := (get_ok hhex).mp hget
          obtain ⟨rfl, -, hall⟩ := sanitizeDigest_ok.mp hhex
          apply hlookup hall hread
    · rintro ⟨hb, rfl⟩
      apply (get_ok (sanitizeDigest_digest C b)).mpr
      exact ⟨rfl, (h.mem_blobs C).mp hb⟩
  · -- a blob is listed once, as its name is its SHA-256
    have hnodup : ((dir.names.keys.filter fun n => !isTmp n).map
        fun n => (dir.read n).getD []).Nodup := by
      apply List.Nodup.map_on _ (dir.names.keys_nodup.filter _)
      have hname : ∀ n ∈ dir.names.keys.filter fun n => !isTmp n,
          C.sha256Hex ((dir.read n).getD []) = n := by
        intro n hn
        obtain ⟨hkey, htmp⟩ := List.mem_filter.mp hn
        obtain ⟨content, hread⟩ := (mem_keys_iff dir n).mp hkey
        rw [hread, Option.getD_some]
        apply h n content (by simpa using htmp) hread
      intro n hn m hm heq
      rw [← hname n hn, ← hname m hm, heq]
    rw [ContentStore.diskUsage, blobs, List.sum_toFinset _ hnodup, List.map_map]
    rfl

end ContentStore

open ContentStore

/-! ### Runs with crashes -/

/-- The process that runs on the root, its `put` in progress, and the root.  The blobs put so far
with the results of the calls that returned, in any process, are kept for the statements about
the runs. -/
structure Writer where
  dir : Directory UInt8
  process : Process
  call : Option PutCall
  results : List (Bytes × Except Error String)

/-- A new call, a file-system step of the call in progress, or a crash: it leaves `left` in
temporary files, and `process` is started next. -/
inductive WriterAction where
  | call (blob : Bytes)
  | advance (fault : Option Fault)
  | crash (left : List (String × Bytes)) (process : Process)

namespace Writer

/-- The first process, on an empty root. -/
def init (process : Process) : Writer where
  dir := .empty
  process := process
  call := none
  results := []

/-- What a crash makes of the root: temporary files may hold anything. -/
def lose (dir : Directory UInt8) (left : List (String × Bytes)) : Directory UInt8 :=
  left.foldl (fun dir p => if isTmp p.1 then dir.overwrite p.1 p.2 else dir) dir

/-- One step. -/
def step (s : Writer) : WriterAction → Option Writer
  | .call blob =>
      match s.call with
      | none => some { s with call := some { blob, phase := .called } }
      | some _ => none
  | .advance fault =>
      match s.call with
      | none => none
      | some c =>
          let next := putStep C s.process fault s.dir c.blob c.phase
          match next.2 with
          | .returned result =>
              some { s with dir := next.1, call := none, results := (c.blob, result) :: s.results }
          | phase => some { s with dir := next.1, call := some { c with phase } }
  | .crash left process => some { s with dir := lose s.dir left, process, call := none }

end Writer

/-- The `put` calls of one process after another. -/
def writerMachine : Machine Writer WriterAction where
  step := Writer.step C

namespace Writer

/-- A crash changes temporary files only. -/
theorem read_lose (dir : Directory UInt8) (left : List (String × Bytes)) {name : String}
    (h : isTmp name = false) :
  (lose dir left).read name = dir.read name
  := by
  induction left generalizing dir with
  | nil => rfl
  | cons p left ih =>
      rw [lose, List.foldl_cons, ← lose, ih]
      split
      next htmp =>
        apply Directory.read_overwrite_ne
        rintro rfl
        rw [h] at htmp
        cases htmp
      · rfl

/-- What a step can do. -/
inductive Stepped (s : Writer) (a : WriterAction) : Writer → Prop
  | called {blob : Bytes} (ha : a = .call blob) :
      Stepped s a { s with call := some { blob, phase := .called } }
  /-- A step of the call in progress. -/
  | advanced {c : PutCall} {fault : Option Fault} {dir : Directory UInt8} {phase : PutPhase}
      (hcall : s.call = some c)
      (hnext : putStep C s.process fault s.dir c.blob c.phase = (dir, phase)) :
      Stepped s a { s with dir, call := some { c with phase } }
  /-- The step with which the call in progress returns. -/
  | returned {c : PutCall} {fault : Option Fault} {dir : Directory UInt8}
      {result : Except Error String} (hcall : s.call = some c)
      (hnext : putStep C s.process fault s.dir c.blob c.phase = (dir, .returned result)) :
      Stepped s a { s with dir, call := none, results := (c.blob, result) :: s.results }
  | crashed {left : List (String × Bytes)} {process : Process} :
      Stepped s a { s with dir := lose s.dir left, process, call := none }

/-- Every step does one of these. -/
theorem stepped {s t : Writer} {a : WriterAction} (h : s.step C a = some t) :
  s.Stepped C a t
  := by
  cases a with
  | call blob =>
      rw [step] at h
      split at h
      · obtain rfl := Option.some.inj h
        exact .called rfl
      · cases h
  | advance fault =>
      rw [step] at h
      split at h
      · cases h
      next c hcall =>
        dsimp only at h
        split at h
        next result hresult =>
          obtain rfl := Option.some.inj h
          exact .returned hcall (Prod.ext rfl hresult)
        next phase hphase =>
          obtain rfl := Option.some.inj h
          exact .advanced hcall rfl
  | crash left process =>
      obtain rfl := Option.some.inj h
      exact .crashed

end Writer

/-- The invariant of the runs: every visible file is a blob of `K` under its own name, the call in
progress puts a blob of `K` and has what it relies on, and the digests returned are those of
blobs of `K` and are bound. -/
structure WriterOk (K : Set Bytes) (s : Writer) : Prop where
  visible : Visible C s.dir
  blobs : ∀ b ∈ blobs s.dir, b ∈ K
  call : ∀ c, s.call = some c → c.blob ∈ K ∧ PhaseOk C s.process s.dir c.blob c.phase
  results : ∀ b d, (b, .ok d) ∈ s.results →
    b ∈ K ∧ d = digest C b ∧ s.dir.has (C.sha256Hex b) = true

namespace WriterOk

variable {K : Set Bytes} {s t : Writer} {a : WriterAction}

/-- An empty root satisfies the invariant. -/
theorem init (K : Set Bytes) (process : Process) :
  WriterOk C K (Writer.init process)
  := by
  have hempty : ∀ name content, (Writer.init process).dir.read name ≠ some content := by
    intro name content hread
    simp [Writer.init, Directory.read, Directory.file, Directory.empty] at hread
  constructor
  · intro name content _ hread
    exact absurd hread (hempty name content)
  · intro b hb
    obtain ⟨name, -, hread⟩ := mem_blobs.mp hb
    exact absurd hread (hempty name b)
  · rintro c ⟨⟩
  · rintro b d ⟨⟩

/-- What a step does to the visible files: it leaves them, or puts the blob of the call in progress
under its name. -/
theorem read_step (hs : WriterOk C K s) (h : s.Stepped C a t) {name : String}
    (hname : isTmp name = false) :
  t.dir.read name = s.dir.read name
    ∨ ∃ c, s.call = some c ∧ name = C.sha256Hex c.blob ∧ t.dir.read name = some c.blob
  := by
  have hne : name ≠ tmp s.process := by
    rintro rfl
    rw [isTmp_tmp] at hname
    cases hname
  have hput : ∀ {c : PutCall} {fault : Option Fault} {dir : Directory UInt8} {phase : PutPhase},
      s.call = some c → putStep C s.process fault s.dir c.blob c.phase = (dir, phase) →
      dir.read name = s.dir.read name
        ∨ ∃ c, s.call = some c ∧ name = C.sha256Hex c.blob ∧ dir.read name = some c.blob := by
    intro c fault dir phase hcall hnext
    obtain ⟨-, hwrote⟩ := putStep_ok C s.process fault (hs.call c hcall).2
    rw [hnext] at hwrote
    obtain hsame | hblob := hwrote name hne
    · left
      apply hsame
    · right
      use c, hcall
  cases h with
  | called _ =>
      left
      rfl
  | crashed =>
      left
      apply Writer.read_lose _ _ hname
  | advanced hcall hnext => apply hput hcall hnext
  | returned hcall hnext => apply hput hcall hnext

/-- No step removes a blob. -/
theorem has_step (hs : WriterOk C K s) (h : s.Stepped C a t) {b : Bytes}
    (hhas : s.dir.has (C.sha256Hex b) = true) :
  t.dir.has (C.sha256Hex b) = true
  := by
  rw [Directory.has_eq_read] at hhas ⊢
  obtain hsame | ⟨c, -, -, hblob⟩ := hs.read_step C h (isTmp_of_hex (C.sha256Hex_all b))
  · rw [hsame]
    apply hhas
  · rw [hblob]
    rfl

/-- Every step keeps the visible files in order. -/
theorem visible_step (hs : WriterOk C K s) (h : s.Stepped C a t) :
  Visible C t.dir ∧ ∀ b ∈ ContentStore.blobs t.dir, b ∈ K
  := by
  constructor
  · intro name content hname hread
    obtain hsame | ⟨c, -, rfl, hblob⟩ := hs.read_step C h hname
    · rw [hsame] at hread
      apply hs.visible name content hname hread
    · rw [hblob] at hread
      rw [Option.some.inj hread]
  · intro b hb
    obtain ⟨name, hname, hread⟩ := mem_blobs.mp hb
    obtain hsame | ⟨c, hcall, -, hblob⟩ := hs.read_step C h hname
    · rw [hsame] at hread
      apply hs.blobs b (mem_blobs.mpr ⟨name, hname, hread⟩)
    · rw [hblob] at hread
      rw [← Option.some.inj hread]
      apply (hs.call c hcall).1

/-- Every step keeps the invariant, when calls put blobs of `K`. -/
theorem step (hs : WriterOk C K s) (ha : ∀ blob, a = .call blob → blob ∈ K)
    (h : s.Stepped C a t) :
  WriterOk C K t
  := by
  obtain ⟨hvisible, hblobs⟩ := hs.visible_step C h
  have hkept : ∀ b d, (b, .ok d) ∈ s.results →
      b ∈ K ∧ d = digest C b ∧ t.dir.has (C.sha256Hex b) = true := by
    intro b d hmem
    obtain ⟨hb, hd, hhas⟩ := hs.results b d hmem
    exact ⟨hb, hd, hs.has_step C h hhas⟩
  constructor
  · apply hvisible
  · apply hblobs
  · cases h with
    | called hblob =>
        rintro c ⟨⟩
        exact ⟨ha _ hblob, trivial⟩
    | @advanced c fault dir phase hcall hnext =>
        rintro c' ⟨⟩
        obtain ⟨hK, hphase⟩ := hs.call c hcall
        obtain ⟨hphase', -⟩ := putStep_ok C s.process fault hphase
        rw [hnext] at hphase'
        exact ⟨hK, hphase'⟩
    | returned _ _ => rintro c ⟨⟩
    | crashed => rintro c ⟨⟩
  · cases h with
    | called _ => apply hkept
    | advanced _ _ => apply hkept
    | crashed => apply hkept
    | @returned c fault dir result hcall hnext =>
        intro b d hmem
        rcases List.mem_cons.mp hmem with heq | hmem
        · obtain ⟨rfl, rfl⟩ := Prod.mk.inj heq
          obtain ⟨hK, hphase⟩ := hs.call c hcall
          obtain ⟨hphase', -⟩ := putStep_ok C s.process fault hphase
          rw [hnext] at hphase'
          exact ⟨hK, hphase'⟩
        · apply hkept b d hmem

/-- Every step leaves the blobs alone, or adds the one of the call in progress. -/
theorem blobs_step (hs : WriterOk C K s) (hK : ∀ a ∈ K, ∀ b ∈ K, C.sha256 a = C.sha256 b → a = b)
    (h : s.Stepped C a t) :
  ContentStore.blobs t.dir = ContentStore.blobs s.dir
    ∨ ∃ c, s.call = some c
        ∧ ContentStore.blobs t.dir = insert c.blob (ContentStore.blobs s.dir)
  := by
  have ht := (hs.visible_step C h).1
  by_cases hall : ∀ name, isTmp name = false → t.dir.read name = s.dir.read name
  · left
    ext b
    rw [ht.mem_blobs C, hs.visible.mem_blobs C, hall _ (isTmp_of_hex (C.sha256Hex_all b))]
  · right
    push Not at hall
    obtain ⟨name, hname, hchanged⟩ := hall
    obtain ⟨c, hcall, rfl, hblob⟩ := (hs.read_step C h hname).resolve_left hchanged
    use c, hcall
    ext b
    rw [Finset.mem_insert, ht.mem_blobs C, hs.visible.mem_blobs C]
    obtain rfl | hne := eq_or_ne b c.blob
    · simp [hblob]
    · -- another blob has another name
      have hname : s.dir.read (C.sha256Hex b) = some b → C.sha256Hex b ≠ C.sha256Hex c.blob := by
        intro hread heq
        apply hne
        apply hK b _ c.blob (hs.call c hcall).1 (C.sha256_eq_of_sha256Hex heq)
        apply hs.blobs b ((hs.visible.mem_blobs C).mpr hread)
      constructor
      · intro hread
        right
        obtain hsame | ⟨c', hcall', -, hblob'⟩ :=
          hs.read_step C h (isTmp_of_hex (C.sha256Hex_all b))
        · rw [← hsame]
          apply hread
        · obtain rfl := Option.some.inj (hcall.symm.trans hcall')
          rw [hblob'] at hread
          exact absurd (Option.some.inj hread).symm hne
      · rintro (rfl | hread)
        · exact absurd rfl hne
        · obtain hsame | ⟨c', hcall', heq, -⟩ :=
            hs.read_step C h (isTmp_of_hex (C.sha256Hex_all b))
          · rw [hsame]
            apply hread
          · obtain rfl := Option.some.inj (hcall.symm.trans hcall')
            exact absurd heq (hname hread)

end WriterOk

/-- Take any run of `put` calls, one at a time, from an empty root, with faults and crashes at any
file-system step, and suppose that SHA-256 has no collision among the blobs put.
The root represents a set of blobs that were put, looked up by their digests; every step leaves
this set alone or adds the blob of the call in progress.
Every call that returned a digest returned its blob's, and from then on the digest is contained
and gives the blob.
Every file that is not temporary holds content whose SHA-256 is its name.
A text that is not `sha256:` followed by 64 hexadecimal digits is not contained and gives an
error. -/
theorem store_refines {process : Process} {actions : List WriterAction} {s : Writer}
    (hrun : (writerMachine C).run (Writer.init process) actions = some s)
    (hcollision : ∀ a b, .call a ∈ actions → .call b ∈ actions → C.sha256 a = C.sha256 b → a = b) :
  (Represents C s.dir (blobs s.dir) ∧ ∀ b ∈ blobs s.dir, .call b ∈ actions)
    ∧ (∀ a t, (writerMachine C).step s a = some t →
        blobs t.dir = blobs s.dir
          ∨ ∃ c, s.call = some c ∧ blobs t.dir = insert c.blob (blobs s.dir))
    ∧ (∀ b d, (b, .ok d) ∈ s.results →
        d = digest C b ∧ contains none s.dir d = true ∧ get none s.dir d = .ok b)
    ∧ (∀ name content, isTmp name = false → s.dir.read name = some content →
        C.sha256Hex content = name)
    ∧ ∀ d, (∀ hex, d = "sha256:" ++ hex →
          ¬(hex.toList.length = 64 ∧ hex.toList.all isAsciiHexdigit = true)) →
        ∀ fault, contains fault s.dir d = false ∧ ∃ e, get fault s.dir d = .error e
  := by
  have hK : ∀ a ∈ { b | .call b ∈ actions }, ∀ b ∈ { b | .call b ∈ actions },
      C.sha256 a = C.sha256 b → a = b := by
    intro a ha b hb
    apply hcollision a b ha hb
  have hs : WriterOk C { b | .call b ∈ actions } s := by
    apply (writerMachine C).run_induct (I := WriterOk C { b | .call b ∈ actions })
      (P := fun _ a => a ∈ actions) _ (WriterOk.init C _ process) _ hrun
    · intro s a t hs ha h
      apply hs.step C _ (Writer.stepped C h)
      rintro blob rfl
      apply ha
    · apply (writerMachine C).meets_of_forall_mem
      intro a ha
      apply ha
  have hrepresents := hs.visible.represents C
  refine ⟨⟨hrepresents, hs.blobs⟩, ?_, ?_, hs.visible, ?_⟩
  · intro a t h
    apply hs.blobs_step C hK (Writer.stepped C h)
  · intro b d hmem
    obtain ⟨hb, rfl, hhas⟩ := hs.results b d hmem
    use rfl
    rw [Directory.has_eq_read, Option.isSome_iff_exists] at hhas
    obtain ⟨content, hread⟩ := hhas
    have hname := isTmp_of_hex (C.sha256Hex_all b)
    have hcontent := hs.blobs content (mem_blobs.mpr ⟨_, hname, hread⟩)
    obtain rfl : content = b := by
      apply hK content hcontent b hb
      apply C.sha256_eq_of_sha256Hex (hs.visible _ content hname hread)
    have hmem := (hs.visible.mem_blobs C).mpr hread
    constructor
    · apply (hrepresents.contains _).mpr ⟨content, hmem, rfl⟩
    · apply (hrepresents.get _ _).mpr ⟨hmem, rfl⟩
  · intro d hmalformed
    cases hhex : sanitizeDigest d with
    | ok hex =>
        obtain ⟨hd, hform⟩ := sanitizeDigest_ok.mp hhex
        exact absurd hform (hmalformed hex hd)
    | error e =>
        intro fault
        constructor
        · rw [contains, blobPath, hhex]
        · use e
          rw [ContentStore.get, blobPath, hhex]

/-- A `put` of the text `a` that crashes while it writes, and one in the next process. -/
def crashedRun : List WriterAction :=
  [.call [97], .advance none, .advance none, .crash [(".tmp-1", [1, 2, 3])] ⟨2, true⟩, .call [97]]
    ++ List.replicate 5 (.advance none)

/-- The second `put` returns the digest of `a`, which gives `a`. -/
theorem store_refines_crashed :
  ∃ s, (writerMachine sampleCrates).run (Writer.init ⟨1, true⟩) crashedRun = some s
    ∧ s.dir.read ".tmp-1" = some [1, 2, 3]
    ∧ ([97], .ok (digest sampleCrates [97])) ∈ s.results
    ∧ ContentStore.get none s.dir (digest sampleCrates [97]) = .ok [97]
    ∧ blobs s.dir ⊆ {[97]}
  := by
  have hput : ∀ b, .call b ∈ crashedRun → b = [97] := by
    intro b hb
    simpa [crashedRun] using hb
  have hcollision : ∀ a b, .call a ∈ crashedRun → .call b ∈ crashedRun →
      sampleCrates.sha256 a = sampleCrates.sha256 b → a = b := by
    intro a b ha hb _
    rw [hput a ha, hput b hb]
  have hrun : ((writerMachine sampleCrates).run (Writer.init ⟨1, true⟩) crashedRun).map
      (fun s => (s.dir.read ".tmp-1", s.results))
      = some (some [1, 2, 3], [([97], .ok (digest sampleCrates [97]))]) := by
    rfl
  obtain ⟨s, hs, heq⟩ := Option.map_eq_some_iff.mp hrun
  obtain ⟨hleft, hreturned⟩ := Prod.mk.inj heq
  have hmem : ([97], .ok (digest sampleCrates [97])) ∈ s.results := by
    rw [hreturned]
    apply List.mem_singleton_self
  obtain ⟨⟨-, hblobs⟩, -, hresults, -⟩ := store_refines sampleCrates hs hcollision
  use s, hs, hleft, hmem, (hresults _ _ hmem).2.2
  intro b hb
  rw [Finset.mem_singleton]
  apply hput b (hblobs b hb)

end Ember
