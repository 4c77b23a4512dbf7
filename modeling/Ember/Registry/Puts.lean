import Ember.Library.Machine
import Ember.Registry.Store

/-!
# Concurrent puts

The `put` calls of one process on one root, interleaved at their file-system steps.  A call
checks for the blob, creates or truncates the temporary file, writes the blob, syncs and
renames; every other call may take steps in between.  All calls of a process share the name
of the temporary file.

While at most one call at a time is between creating the temporary file and renaming it,
every file with a hexadecimal name holds content with that SHA-256 (`puts_hashed`).
-/

namespace Ember

/-- Where a `put` stands between two file-system steps, with the local variables it still
needs: the name of its blob, and the file its handle is open on. -/
inductive PutPhase where
  | called
  | absent (path : String)
  | created (path : String) (file : ℕ)
  | written (path : String) (file : ℕ)
  | synced (path : String)
  | returned (result : Except Error String)
  deriving DecidableEq

/-- The call has created the temporary file and not yet renamed it. -/
def PutPhase.HoldsTmp : PutPhase → Prop
  | .created _ _ | .written _ _ | .synced _ => True
  | _ => False

/-- One `put` call. -/
structure PutCall where
  blob : Bytes
  phase : PutPhase

/-- The `put` calls of a process, numbered in the order they were made, and the directory
they run on. -/
structure Puts where
  dir : Directory UInt8
  started : ℕ
  calls : ℕ → PutCall

/-- A new call, or a file-system step of the call `i`. -/
inductive PutAction where
  | call (blob : Bytes)
  | advance (i : ℕ) (fault : Option Fault)

variable {κ : Type} (C : Crates κ) (P : Process)

namespace ContentStore

/-- The next file-system step of a `put`. -/
def putStep (fault : Option Fault) (dir : Directory UInt8) (blob : Bytes) :
    PutPhase → Directory UInt8 × PutPhase
  | .called =>
      match blobPath (digest C blob) with
      | .error e => (dir, .returned (.error e))
      | .ok path =>
          (dir,
            if pathExists fault dir path then .returned (.ok (digest C blob)) else .absent path)
  | .absent path =>
      match fileCreate fault dir (tmp P) with
      | (dir, .error e) => (dir, .returned (.error (.io e.display)))
      | (dir, .ok file) => (dir, .created path file)
  | .created path file =>
      match writeAll fault dir file blob with
      | (dir, .error e) => (dir, .returned (.error (.io e.display)))
      | (dir, .ok ()) => (dir, .written path file)
  | .written path _ =>
      match syncAll fault with
      | .error e => (dir, .returned (.error (.io e.display)))
      | .ok () => (dir, .synced path)
  | .synced path =>
      match fsRename P fault dir (tmp P) path with
      | (dir, .ok ()) => (dir, .returned (.ok (digest C blob)))
      | (dir, .error .alreadyExists) => (dir, .returned (.ok (digest C blob)))
      | (dir, .error e) => (dir, .returned (.error (.io e.display)))
  | .returned r => (dir, .returned r)

/-- The steps of one `put` taken without interruption, one for each fault. -/
def putAlone (blob : Bytes) (faults : List (Option Fault)) (s : Directory UInt8 × PutPhase) :
    Directory UInt8 × PutPhase :=
  faults.foldl (fun s fault => putStep C P fault s.1 blob s.2) s

/-- A `put` that returned takes no further step. -/
theorem putAlone_returned (blob : Bytes) (faults : List (Option Fault)) (dir : Directory UInt8)
    (r : Except Error String) :
  putAlone C P blob faults (dir, .returned r) = (dir, .returned r)
  := by
  induction faults with
  | nil => rfl
  | cons fault faults ih => apply ih

/-- A `put` whose steps are not interrupted returns what `put` returns. -/
theorem putAlone_eq (faults : PutFaults) (dir : Directory UInt8) (blob : Bytes) :
  putAlone C P blob
      [faults.metadata, faults.create, faults.write, faults.sync, faults.rename] (dir, .called)
    = ((put C P faults dir blob).1, .returned (put C P faults dir blob).2)
  := by
  rw [putAlone, List.foldl_cons, ← putAlone, putStep, put, blobPath, sanitizeDigest_digest]
  by_cases hexists : pathExists faults.metadata dir (C.sha256Hex blob) = true
  · simp only [hexists, if_true]
    apply putAlone_returned
  · simp only [hexists, Bool.false_eq_true, if_false]
    rw [putAlone, List.foldl_cons, ← putAlone, putStep]
    rcases fileCreate faults.create dir (tmp P) with ⟨dir₁, e | file⟩
    · apply putAlone_returned
    · rw [putAlone, List.foldl_cons, ← putAlone, putStep]
      dsimp only
      rcases writeAll faults.write dir₁ file blob with ⟨dir₂, e | ⟨⟩⟩
      · apply putAlone_returned
      · rw [putAlone, List.foldl_cons, ← putAlone, putStep]
        dsimp only
        rcases syncAll faults.sync with e | ⟨⟩
        · apply putAlone_returned
        · rw [putAlone, List.foldl_cons, ← putAlone, putStep]
          dsimp only
          rcases fsRename P faults.rename dir₂ (tmp P) (C.sha256Hex blob) with
            ⟨dir₃, (_ | _ | reason) | ⟨⟩⟩
          all_goals rfl

end ContentStore

open ContentStore

/-- No calls yet, on the directory `dir`. -/
def Puts.init (dir : Directory UInt8) : Puts where
  dir := dir
  started := 0
  calls _ := { blob := [], phase := .called }

/-- The interleavings of the steps of `put` calls. -/
def putMachine : Machine Puts PutAction where
  step s
    | .call blob => some
        { s with
          started := s.started + 1
          calls := Function.update s.calls s.started { blob, phase := .called } }
    | .advance i fault =>
        if i < s.started then
          let call := s.calls i
          let next := putStep C P fault s.dir call.blob call.phase
          some
            { s with
              dir := next.1
              calls := Function.update s.calls i { call with phase := next.2 } }
        else none

/-- The call about to create the temporary file does so while no other call holds it. -/
def Exclusive (s : Puts) : PutAction → Prop
  | .call _ => True
  | .advance i _ => ∀ path, (s.calls i).phase = .absent path →
      ∀ j < s.started, ¬ (s.calls j).phase.HoldsTmp

instance : DecidablePred PutPhase.HoldsTmp
  | .created _ _ | .written _ _ | .synced _ => .isTrue trivial
  | .called | .absent _ | .returned _ => .isFalse not_false

instance (s : Puts) : ∀ a, Decidable (Exclusive s a)
  | .call _ => .isTrue trivial
  | .advance i _ =>
      match h : (s.calls i).phase with
      | .absent _ =>
          decidable_of_iff (∀ j < s.started, ¬(s.calls j).phase.HoldsTmp) (by simp [Exclusive, h])
      | .called | .created _ _ | .written _ _ | .synced _ | .returned _ =>
          .isTrue (by simp [Exclusive, h])

/-- Every file with a hexadecimal name satisfies `Q` together with its content. -/
def Stored (Q : String → Bytes → Prop) (dir : Directory UInt8) : Prop :=
  ∀ (name : String) (content : Bytes), name.toList.all isAsciiHexdigit = true →
    dir.read name = some content → Q name content

/-- Every file with a hexadecimal name holds content whose SHA-256 is that name. -/
def Hashed (dir : Directory UInt8) : Prop :=
  Stored (fun name content => C.sha256Hex content = name) dir

/-! ### One step of one call -/

/-- What a call relies on between two steps: its path is the name of its blob, and the
temporary file holds what it has written.  After it returned a digest, the blob's name is
bound. -/
def PhaseOk (dir : Directory UInt8) (blob : Bytes) : PutPhase → Prop
  | .called => True
  | .absent path => path = C.sha256Hex blob
  | .created path file =>
      path = C.sha256Hex blob ∧ dir.file (tmp P) = some file ∧ dir.contents file = []
  | .written path _ | .synced path =>
      path = C.sha256Hex blob ∧ dir.read (tmp P) = some blob
  | .returned (.ok d) => d = digest C blob ∧ dir.has (C.sha256Hex blob) = true
  | .returned (.error _) => True

/-- What a step of a call does to the directory, apart from the temporary file: under every name
is what was there before, or the blob, if the name is its own. -/
def Wrote (blob : Bytes) (dir dir' : Directory UInt8) : Prop :=
  ∀ name, name ≠ tmp P →
    dir'.read name = dir.read name ∨ (name = C.sha256Hex blob ∧ dir'.read name = some blob)

/-- A directory after a step of a call, as every call may rely on: hexadecimal names stay
bound, and the files under them satisfy `Q` when they did before and the blob of the call
satisfies it under its own name. -/
structure Extends (blob : Bytes) (dir dir' : Directory UInt8) : Prop where
  has : ∀ name : String, name.toList.all isAsciiHexdigit = true → dir.has name = true →
    dir'.has name = true
  stored : ∀ Q : String → Bytes → Prop, Stored Q dir → Q (C.sha256Hex blob) blob → Stored Q dir'

/-- A step may leave the directory as it is. -/
theorem Wrote.refl (blob : Bytes) (dir : Directory UInt8) :
  Wrote C P blob dir dir
  := by
  intro name _
  left
  rfl

/-- A step may touch the temporary file only. -/
theorem Wrote.of_read_eq {blob : Bytes} {dir dir' : Directory UInt8}
    (h : ∀ name, name ≠ tmp P → dir'.read name = dir.read name) :
  Wrote C P blob dir dir'
  := by
  intro name hname
  left
  apply h name hname

/-- A step may rename the temporary file, which holds the blob, onto the blob's name. -/
theorem Wrote.of_rename {blob : Bytes} {dir dir' : Directory UInt8}
    (hread : dir.read (tmp P) = some blob)
    (h : dir.rename (tmp P) (C.sha256Hex blob) = some dir') :
  Wrote C P blob dir dir'
  := by
  intro name hname
  by_cases heq : name = C.sha256Hex blob
  · right
    use heq
    rw [heq, dir.read_rename h, hread]
  · left
    apply dir.read_rename_ne h hname heq

/-- A step extends the directory. -/
theorem Wrote.extends {blob : Bytes} {dir dir' : Directory UInt8} (h : Wrote C P blob dir dir') :
  Extends C blob dir dir'
  := by
  constructor
  · intro name hname hhas
    rw [Directory.has_eq_read] at hhas ⊢
    obtain hsame | ⟨-, hblob⟩ := h name (ne_tmp hname)
    · rw [hsame]
      apply hhas
    · rw [hblob]
      rfl
  · intro Q hstored hQ name content hname hcontent
    obtain hsame | ⟨rfl, hblob⟩ := h name (ne_tmp hname)
    · rw [hsame] at hcontent
      apply hstored name content hname hcontent
    · rw [hblob] at hcontent
      rw [← Option.some.inj hcontent]
      apply hQ

/-- A step of a call keeps what the call relies on and writes at most its blob. -/
theorem putStep_ok (fault : Option Fault) {dir : Directory UInt8} {blob : Bytes}
    {phase : PutPhase} (h : PhaseOk C P dir blob phase) :
  PhaseOk C P (putStep C P fault dir blob phase).1 blob (putStep C P fault dir blob phase).2
    ∧ Wrote C P blob dir (putStep C P fault dir blob phase).1
  := by
  cases phase with
  | called =>
      rw [putStep, blobPath, sanitizeDigest_digest]
      dsimp only
      constructor
      · split
        · rename_i hexists
          exact ⟨rfl, has_of_pathExists hexists⟩
        · rfl
      · apply Wrote.refl
  | absent path =>
      rw [putStep]
      rcases hcreate : fileCreate fault dir (tmp P) with ⟨dir', e | file⟩
      · cases fault with
        | none => simp [fileCreate] at hcreate
        | some f =>
            obtain ⟨rfl, -⟩ := Prod.mk.inj hcreate
            exact ⟨trivial, Wrote.refl C P blob dir⟩
      · obtain ⟨rfl, rfl⟩ := fileCreate_ok hcreate
        constructor
        · exact ⟨h, dir.file_create (tmp P), dir.contents_create (tmp P)⟩
        · apply Wrote.of_read_eq C P
          intro name hname
          apply dir.read_create_ne hname
  | created path file =>
      obtain ⟨hpath, hfile, hempty⟩ := h
      rw [putStep]
      rcases hwrite : writeAll fault dir file blob with ⟨dir', e | ⟨⟩⟩
      · cases fault with
        | none => simp [writeAll] at hwrite
        | some f =>
            obtain ⟨rfl, -⟩ := Prod.mk.inj hwrite
            use trivial
            apply Wrote.of_read_eq C P
            intro name hname
            apply dir.read_write_ne hfile hname
      · obtain rfl := writeAll_ok hwrite
        constructor
        · exact ⟨hpath, dir.read_write hfile hempty blob⟩
        · apply Wrote.of_read_eq C P
          intro name hname
          apply dir.read_write_ne hfile hname
  | written path file =>
      rw [putStep]
      rcases syncAll fault with e | ⟨⟩
      · exact ⟨trivial, Wrote.refl C P blob dir⟩
      · exact ⟨h, Wrote.refl C P blob dir⟩
  | synced path =>
      obtain ⟨rfl, hread⟩ := h
      rw [putStep]
      rcases hrename : fsRename P fault dir (tmp P) (C.sha256Hex blob) with ⟨dir', r⟩
      rcases fsRename_cases hrename with ⟨rfl, hmoved⟩ | ⟨rfl, rfl, hhas⟩ | ⟨hok, hexists, rfl⟩
      · constructor
        · use rfl
          rw [Directory.has_eq_read, dir.read_rename hmoved, hread]
          rfl
        · apply Wrote.of_rename C P hread hmoved
      · exact ⟨⟨rfl, hhas⟩, Wrote.refl C P blob dir'⟩
      · rcases r with (_ | _ | reason) | ⟨⟩
        · exact absurd rfl hexists
        · exact ⟨trivial, Wrote.refl C P blob dir'⟩
        · exact ⟨trivial, Wrote.refl C P blob dir'⟩
        · exact absurd rfl hok
  | returned r => exact ⟨h, Wrote.refl C P blob dir⟩

/-- A call that neither creates nor holds the temporary file leaves the directory as it is,
and does not come to hold the temporary file. -/
theorem putStep_quiet {fault : Option Fault} {dir : Directory UInt8} {blob : Bytes}
    {phase : PutPhase} (habsent : ∀ path, phase ≠ .absent path) (hholds : ¬ phase.HoldsTmp) :
  (putStep C P fault dir blob phase).1 = dir
    ∧ ¬ (putStep C P fault dir blob phase).2.HoldsTmp
  := by
  cases phase with
  | called =>
      rw [putStep, blobPath, sanitizeDigest_digest]
      dsimp only
      split
      · exact ⟨rfl, not_false⟩
      · exact ⟨rfl, not_false⟩
  | absent path => exact absurd rfl (habsent path)
  | created path file => exact absurd trivial hholds
  | written path file => exact absurd trivial hholds
  | synced path => exact absurd trivial hholds
  | returned r => exact ⟨rfl, not_false⟩

/-! ### All calls -/

/-- The state of the calls between two steps: the files with hexadecimal names satisfy `Q`,
every blob satisfies `Q` under its own name, every call has what it relies on, and at most
one call holds the temporary file. -/
structure PutsOk (Q : String → Bytes → Prop) (s : Puts) : Prop where
  stored : Stored Q s.dir
  blobs : ∀ i < s.started, Q (C.sha256Hex (s.calls i).blob) (s.calls i).blob
  phases : ∀ i < s.started, PhaseOk C P s.dir (s.calls i).blob (s.calls i).phase
  single : ∀ i < s.started, ∀ j < s.started, (s.calls i).phase.HoldsTmp →
    (s.calls j).phase.HoldsTmp → i = j

theorem PutsOk.init {Q : String → Bytes → Prop} {dir : Directory UInt8} (h : Stored Q dir) :
  PutsOk C P Q (Puts.init dir)
  := by
  constructor
  · apply h
  all_goals
    intro i hi
    exact absurd hi (Nat.not_lt_zero i)

/-- What a call that does not hold the temporary file relies on survives an extension of the
directory. -/
theorem PhaseOk.of_extends {dir dir' : Directory UInt8} {blob blob' : Bytes} {phase : PutPhase}
    (h : PhaseOk C P dir blob phase) (hholds : ¬ phase.HoldsTmp)
    (hdir : Extends C blob' dir dir') :
  PhaseOk C P dir' blob phase
  := by
  cases phase with
  | called => trivial
  | absent path => apply h
  | created path file => exact absurd trivial hholds
  | written path file => exact absurd trivial hholds
  | synced path => exact absurd trivial hholds
  | returned r =>
      cases r with
      | error e => trivial
      | ok d =>
          use h.1
          apply hdir.has _ (C.sha256Hex_all blob) h.2

/-- A step of the call `i` taken while no other call holds the temporary file, or that leaves
the directory as it is and holds nothing after it, keeps the state of the calls. -/
theorem PutsOk.advance {Q : String → Bytes → Prop} {s : Puts} (h : PutsOk C P Q s) {i : ℕ}
    (hi : i < s.started) (fault : Option Fault)
    (hother : (∀ j < s.started, j ≠ i → ¬ (s.calls j).phase.HoldsTmp)
      ∨ ((putStep C P fault s.dir (s.calls i).blob (s.calls i).phase).1 = s.dir
        ∧ ¬ (putStep C P fault s.dir (s.calls i).blob (s.calls i).phase).2.HoldsTmp)) :
  PutsOk C P Q
    { s with
      dir := (putStep C P fault s.dir (s.calls i).blob (s.calls i).phase).1
      calls := Function.update s.calls i
        { s.calls i with
          phase := (putStep C P fault s.dir (s.calls i).blob (s.calls i).phase).2 } }
  := by
  obtain ⟨hphase, hwrote⟩ := putStep_ok C P fault (h.phases i hi)
  have hdir := hwrote.extends C P
  constructor
  · apply hdir.stored Q h.stored (h.blobs i hi)
  · intro j hj
    by_cases hji : j = i
    · subst hji
      simp only [Function.update_self]
      apply h.blobs j hj
    · simp only [Function.update_of_ne hji]
      apply h.blobs j hj
  · intro j hj
    by_cases hji : j = i
    · subst hji
      simp only [Function.update_self]
      apply hphase
    · simp only [Function.update_of_ne hji]
      rcases hother with hfree | ⟨hsame, -⟩
      · apply (h.phases j hj).of_extends C P (hfree j hj hji) hdir
      · rw [hsame]
        apply h.phases j hj
  · intro j hj k hk hholdsj hholdsk
    by_cases hji : j = i
    · by_cases hki : k = i
      · rw [hji, hki]
      · subst hji
        simp only [Function.update_self] at hholdsj
        simp only [Function.update_of_ne hki] at hholdsk
        rcases hother with hfree | ⟨-, hnone⟩
        · exact absurd hholdsk (hfree k hk hki)
        · exact absurd hholdsj hnone
    · simp only [Function.update_of_ne hji] at hholdsj
      by_cases hki : k = i
      · subst hki
        simp only [Function.update_self] at hholdsk
        rcases hother with hfree | ⟨-, hnone⟩
        · exact absurd hholdsj (hfree j hj hji)
        · exact absurd hholdsk hnone
      · simp only [Function.update_of_ne hki] at hholdsk
        apply h.single j hj k hk hholdsj hholdsk

/-- A new call keeps the state of the calls. -/
theorem PutsOk.call {Q : String → Bytes → Prop} {s : Puts} (h : PutsOk C P Q s) {blob : Bytes}
    (hQ : Q (C.sha256Hex blob) blob) :
  PutsOk C P Q
    { s with
      started := s.started + 1
      calls := Function.update s.calls s.started { blob, phase := .called } }
  := by
  -- the calls below `s.started` are as they were, the new one is `called`
  have hcall : ∀ i < s.started + 1,
      Function.update s.calls s.started { blob, phase := .called } i = { blob, phase := .called }
        ∨ i < s.started
          ∧ Function.update s.calls s.started { blob, phase := .called } i = s.calls i := by
    intro i hi
    by_cases his : i = s.started
    · left
      rw [his, Function.update_self]
    · right
      use by omega
      rw [Function.update_of_ne his]
  constructor
  · apply h.stored
  · intro i hi
    rcases hcall i hi with hnew | ⟨hlt, hold⟩
    · simp only [hnew]
      apply hQ
    · simp only [hold]
      apply h.blobs i hlt
  · intro i hi
    rcases hcall i hi with hnew | ⟨hlt, hold⟩
    · simp only [hnew]
      trivial
    · simp only [hold]
      apply h.phases i hlt
  · intro i hi j hj hholdsi hholdsj
    rcases hcall i hi with hnew | ⟨hlt, hold⟩
    · simp only [hnew] at hholdsi
      exact absurd hholdsi not_false
    · rcases hcall j hj with hnew' | ⟨hlt', hold'⟩
      · simp only [hnew'] at hholdsj
        exact absurd hholdsj not_false
      · simp only [hold] at hholdsi
        simp only [hold'] at hholdsj
        apply h.single i hlt j hlt' hholdsi hholdsj

/-- A step that meets `Exclusive` keeps the state of the calls. -/
theorem PutsOk.step {Q : String → Bytes → Prop} {s t : Puts} {a : PutAction}
    (h : PutsOk C P Q s) (hexcl : Exclusive s a)
    (hQ : ∀ blob, a = .call blob → Q (C.sha256Hex blob) blob)
    (hstep : (putMachine C P).step s a = some t) :
  PutsOk C P Q t
  := by
  cases a with
  | call blob =>
      obtain rfl := Option.some.inj hstep
      apply h.call C P (hQ blob rfl)
  | advance i fault =>
      simp only [putMachine] at hstep
      split at hstep
      · rename_i hi
        obtain rfl := Option.some.inj hstep
        apply h.advance C P hi fault
        by_cases hholds : (s.calls i).phase.HoldsTmp
        · left
          intro j hj hji hholdsj
          apply hji (h.single j hj i hi hholdsj hholds)
        · by_cases habsent : ∃ path, (s.calls i).phase = .absent path
          · obtain ⟨path, hpath⟩ := habsent
            left
            intro j hj _
            apply hexcl path hpath j hj
          · right
            apply putStep_quiet C P _ hholds
            intro path hpath
            apply habsent ⟨path, hpath⟩
      · cases hstep

/-- In every run in which a call creates the temporary file only while no other call holds
it, every file with a hexadecimal name holds content whose SHA-256 is that name, when this
was so at the start.  When SHA-256 has no collision among the blobs put and the contents
found at the start, every call that returned a digest returned its blob's, under which the
blob is found. -/
theorem puts_hashed {dir : Directory UInt8} {acts : List PutAction} {s : Puts}
    (hdir : Hashed C dir) (hexcl : (putMachine C P).Meets Exclusive (Puts.init dir) acts)
    (hrun : (putMachine C P).run (Puts.init dir) acts = some s) :
  Hashed C s.dir
    ∧ ∀ K : Set Bytes, (∀ a ∈ K, ∀ b ∈ K, C.sha256 a = C.sha256 b → a = b) →
      Stored (fun _ content => content ∈ K) dir → (∀ blob, .call blob ∈ acts → blob ∈ K) →
      ∀ i < s.started, ∀ d, (s.calls i).phase = .returned (.ok d) →
        d = digest C (s.calls i).blob ∧ ContentStore.get none s.dir d = .ok (s.calls i).blob
  := by
  -- both parts are the invariant `PutsOk`, for two choices of `Q`
  have key : ∀ Q : String → Bytes → Prop, Stored Q dir →
      (∀ blob, .call blob ∈ acts → Q (C.sha256Hex blob) blob) → PutsOk C P Q s := by
    intro Q hQ hblobs
    apply (putMachine C P).run_induct (I := PutsOk C P Q) _ (PutsOk.init C P hQ)
      (Machine.Meets.and _ (Q := fun a => ∀ blob, a = .call blob → Q (C.sha256Hex blob) blob)
        hexcl _) hrun
    · rintro s a t hs ⟨hexcl, hblob⟩ hstep
      apply hs.step C P hexcl hblob hstep
    · rintro a ha blob rfl
      apply hblobs blob ha
  constructor
  · apply (key _ hdir (fun _ _ => rfl)).stored
  · intro K hK hstart hblobs i hi d hd
    have hok := key (fun name content => C.sha256Hex content = name ∧ content ∈ K)
      (fun name content hname hread =>
        ⟨hdir name content hname hread, hstart name content hname hread⟩)
      (fun blob hblob => ⟨rfl, hblobs blob hblob⟩)
    have hphase := hok.phases i hi
    rw [hd] at hphase
    obtain ⟨rfl, hhas⟩ := hphase
    use rfl
    rw [Directory.has_eq_read] at hhas
    obtain ⟨content, hread⟩ := Option.isSome_iff_exists.mp hhas
    obtain ⟨hhex, hcontent⟩ := hok.stored _ content (C.sha256Hex_all _) hread
    have hblob := (hok.blobs i hi).2
    apply (get_ok (sanitizeDigest_digest C _)).mpr
    rw [hread, hK content hcontent _ hblob (C.sha256_eq_of_sha256Hex hhex)]
    exact ⟨rfl, rfl⟩

/-- Two calls for the texts `a` and `b`.  Both find that their blob is absent, and then the second
one waits for the first one to return before it creates the temporary file. -/
def turnsRun : List PutAction :=
  [.call [97], .call [98], .advance 0 none, .advance 1 none]
    ++ List.replicate 4 (.advance 0 none) ++ List.replicate 4 (.advance 1 none)

/-- A call creates the temporary file when the other one does not hold it. -/
theorem turnsRun_exclusive :
  (putMachine sampleCrates ⟨1, true⟩).Meets Exclusive (Puts.init .empty) turnsRun
  := by
  decide +kernel

/-- Two `put` calls that take turns, step by step: each blob is found under its digest. -/
theorem puts_hashed_turns :
  ∃ s, (putMachine sampleCrates ⟨1, true⟩).run (Puts.init .empty) turnsRun = some s
    ∧ Hashed sampleCrates s.dir
    ∧ ContentStore.get none s.dir (digest sampleCrates [97]) = .ok [97]
    ∧ ContentStore.get none s.dir (digest sampleCrates [98]) = .ok [98]
  := by
  have hrun : ((putMachine sampleCrates ⟨1, true⟩).run (Puts.init .empty) turnsRun).map
      (fun s => (s.started, (s.calls 0).blob, (s.calls 0).phase, (s.calls 1).blob,
        (s.calls 1).phase))
      = some (2, [97], .returned (.ok (digest sampleCrates [97])), [98],
        .returned (.ok (digest sampleCrates [98]))) := by
    decide +kernel
  obtain ⟨s, hs, heq⟩ := Option.map_eq_some_iff.mp hrun
  simp only [Prod.mk.injEq] at heq
  obtain ⟨hstarted, hblob, hphase, hblob', hphase'⟩ := heq
  have hempty : ∀ Q, Stored Q (.empty : Directory UInt8) := by
    intro Q name content _ hread
    simp [Directory.read, Directory.file, Directory.empty] at hread
  have hcollision : ∀ a ∈ ({[97], [98]} : Set Bytes), ∀ b ∈ ({[97], [98]} : Set Bytes),
      sampleCrates.sha256 a = sampleCrates.sha256 b → a = b := by
    rintro a (rfl | rfl) b (rfl | rfl) hsame
    · rfl
    · revert hsame
      decide
    · revert hsame
      decide
    · rfl
  have hblobs : ∀ blob, .call blob ∈ turnsRun → blob ∈ ({[97], [98]} : Set Bytes) := by
    intro blob hcall
    simpa [turnsRun] using hcall
  obtain ⟨hhashed, hget⟩ := puts_hashed sampleCrates ⟨1, true⟩ (hempty _) turnsRun_exclusive hs
  have hfound := hget _ hcollision (hempty _) hblobs
  refine ⟨s, hs, hhashed, ?_, ?_⟩
  · rw [← hblob]
    apply (hfound 0 (by omega) _ (hblob ▸ hphase)).2
  · rw [← hblob']
    apply (hfound 1 (by omega) _ (hblob' ▸ hphase')).2

/-- Two interleaved puts of the texts `a` and `b` into an empty root: the second truncates
the temporary file between the first one's sync and rename, and the first one returns the
digest of `a` with an empty file under it. -/
theorem puts_interleaved_not_hashed :
  ∃ s, (putMachine sampleCrates ⟨1, true⟩).run (Puts.init .empty)
      [.call [97], .call [98], .advance 0 none, .advance 1 none, .advance 0 none,
        .advance 0 none, .advance 0 none, .advance 1 none, .advance 0 none] = some s
    ∧ (s.calls 0).phase = .returned (.ok (digest sampleCrates [97]))
    ∧ ContentStore.get none s.dir (digest sampleCrates [97]) = .ok []
    ∧ ¬ Hashed sampleCrates s.dir
  := by
  refine ⟨_, rfl, rfl, rfl, fun h => ?_⟩
  have hname := h (sampleCrates.sha256Hex [97]) [] (by decide) rfl
  revert hname
  decide

end Ember
