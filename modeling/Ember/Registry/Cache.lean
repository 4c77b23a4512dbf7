import Ember.Registry.Pin
import Ember.Registry.Puts

/-!
# The cache over many pulls

The pulls of one process share the cache directory: what one pull puts there the next one
finds.  We follow the directory through any sequence of pulls, whatever the registry answers to
them and whichever calls on the file system fail, other than the look-up whether a layer is
present.  When that one fails, the registry is asked again for a blob that the cache holds.

When every blob in the cache is what its name says at the start, this stays so.  Then every
artifact has the digest it is recorded under, and a digest that was pulled once is never asked
of the registry again: from then on its blob comes out of the cache (`pulls_cached`).
-/

namespace Ember

variable {κ : Type} (C : Crates κ)

namespace ContentStore

/-- One step after the other writes at most the blob. -/
theorem putAlone_wrote (P : Process) {blob : Bytes} (faults : List (Option Fault))
    {s : Directory UInt8 × PutPhase} (h : PhaseOk C P s.1 blob s.2) :
  Wrote C P blob s.1 (putAlone C P blob faults s).1
  := by
  induction faults generalizing s with
  | nil => apply Wrote.refl
  | cons fault faults ih =>
      obtain ⟨hphase, hfirst⟩ := putStep_ok C P fault h
      have hrest := ih hphase
      intro name hname
      rw [putAlone, List.foldl_cons, ← putAlone]
      obtain hsame | hblob := hrest name hname
      · rw [hsame]
        apply hfirst name hname
      · right
        apply hblob

/-- A `put` writes at most its blob, and uses the temporary file of its process. -/
theorem put_wrote (P : Process) (faults : PutFaults) (dir : Directory UInt8) (blob : Bytes) :
  Wrote C P blob dir (put C P faults dir blob).1
  := by
  have hcalled : PhaseOk C P dir blob .called := trivial
  have h := putAlone_wrote C P
    [faults.metadata, faults.create, faults.write, faults.sync, faults.rename]
    (s := (dir, .called)) hcalled
  rw [putAlone_eq] at h
  apply h

end ContentStore

namespace OciClient

variable (config : OciClientConfig)

/-- The digest whose blob a fetch asks of the registry, if it gets there and the cache does not
hold the blob. -/
def requested (up : Upstream) (reference : String) : Option String :=
  (layerDigest C config up reference).filter fun d => !ContentStore.contains none up.dir d

/-- Making a layer present leaves the cache as it is, or writes at most a blob with its digest. -/
theorem ensurePresent_dir (up : Upstream) (resolved : OciReference) (d : String) :
  (ensurePresent C up resolved d).1 = up.dir
    ∨ ∃ blob, ContentStore.contains none up.dir d = false ∧ digestOf C blob = d
        ∧ Wrote C up.process blob up.dir (ensurePresent C up resolved d).1
  := by
  rw [ensurePresent]
  cases hpresent : ContentStore.contains none up.dir d with
  | true => exact .inl rfl
  | false =>
      simp only [Bool.false_eq_true, if_false]
      cases hblob : up.blob resolved d with
      | error e => exact .inl rfl
      | ok blob =>
          dsimp only
          cases hverify : verifyDigest C blob d with
          | error e => exact .inl rfl
          | ok _ =>
              right
              refine ⟨blob, trivial, (verifyDigest_ok C).mp hverify, ?_⟩
              have hput := ContentStore.put_wrote C up.process up.put up.dir blob
              rcases heq : ContentStore.put C up.process up.put up.dir blob with ⟨dir, e | d⟩
              · rw [heq] at hput
                apply hput
              · rw [heq] at hput
                apply hput

/-- A fetch leaves the cache as it is, or writes at most a verified blob that it asked of the
registry. -/
theorem fetchComponent_dir (up : Upstream) (reference : String) :
  (fetchComponent C config up reference).1 = up.dir
    ∨ ∃ blob, requested C config up reference = some (digestOf C blob)
        ∧ Wrote C up.process blob up.dir (fetchComponent C config up reference).1
  := by
  rw [requested, fetchComponent, layerDigest]
  cases hresolved : resolve C config reference with
  | error e => exact .inl rfl
  | ok resolved =>
      simp only [pullManifest]
      cases hmanifest : up.manifest resolved with
      | error e => exact .inl rfl
      | ok manifest =>
          dsimp only
          cases hlayer : manifest.layers.head? with
          | none => exact .inl rfl
          | some layer =>
              have hdir := ensurePresent_dir C up resolved layer.digest
              dsimp only
              rcases hpresent : ensurePresent C up resolved layer.digest with ⟨dir, e | ⟨⟩⟩
              all_goals
                rw [hpresent] at hdir
                obtain hsame | ⟨blob, habsent, hdigest, hwrote⟩ := hdir
                · left
                  apply hsame
                · right
                  use blob
                  constructor
                  · simp [habsent, hdigest]
                  · apply hwrote

/-- A fetch that gives an artifact leaves its blob in the cache, and read it there. -/
theorem fetchComponent_present {up : Upstream} {reference : String} {loaded : Loaded}
    (h : (fetchComponent C config up reference).2 = .ok loaded) :
  layerDigest C config up reference = some loaded.digest
    ∧ ContentStore.get up.get (fetchComponent C config up reference).1 loaded.digest
        = .ok loaded.bytes
  := by
  have hfetch := h
  obtain ⟨resolved, d, dir, hresolved, hlayer, hdir, hload⟩ := (fetchComponent_ok C config).mp h
  obtain ⟨loaded', hget, -, hdigest⟩ := (loadLayer_ok C).mp hload
  obtain rfl : loaded.digest = d := by
    rw [hdigest]
  use hlayer
  have hsame : (fetchComponent C config up reference).1 = dir := by
    simp only [layerDigest, hresolved] at hlayer
    cases hmanifest : up.manifest resolved with
    | error e => simp [hmanifest] at hlayer
    | ok manifest =>
        simp only [hmanifest, Option.map_eq_some_iff] at hlayer
        obtain ⟨layer, hhead, hlayer⟩ := hlayer
        rw [← hlayer] at hdir
        simp only [fetchComponent, hresolved, pullManifest, hmanifest, hhead, hdir]
  rw [hsame]
  apply hget

/-- When the cache holds the layer, the registry is not asked for a blob. -/
theorem fetchComponent_offline {up : Upstream} {reference d : String}
    (hlayer : layerDigest C config up reference = some d)
    (hpresent : ContentStore.contains none up.dir d = true)
    (blob : OciReference → String → Except String Bytes) :
  fetchComponent C config { up with blob } reference = fetchComponent C config up reference
  := by
  simp only [layerDigest] at hlayer
  simp only [fetchComponent]
  cases hresolved : resolve C config reference with
  | error e => rfl
  | ok resolved =>
      simp only [hresolved] at hlayer
      simp only [pullManifest]
      cases hmanifest : up.manifest resolved with
      | error e => rfl
      | ok manifest =>
          simp only [hmanifest, Option.map_eq_some_iff] at hlayer
          obtain ⟨layer, hhead, rfl⟩ := hlayer
          simp only [hhead, ensurePresent, hpresent, if_true, loadLayer]

end OciClient

/-! ### Pulls in a row -/

/-- A pull: what it meets besides the cache, and its arguments. -/
structure PullCall where
  upstream : Upstream
  reference : String
  pin : Option String

/-- A pull that was made: its arguments, the digest whose blob it asked of the registry, and its
result. -/
structure PullEvent where
  reference : String
  pin : Option String
  requested : Option String
  result : Except Error Loaded

/-- The cache directory and the pulls made so far, the latest first. -/
structure Cache where
  dir : Directory UInt8
  log : List PullEvent

/-- What the pull meets, the cache included. -/
def Cache.upstream (s : Cache) (call : PullCall) : Upstream := { call.upstream with dir := s.dir }

/-- The pulls of one process, one after the other. -/
def cacheMachine (config : OciClientConfig) : Machine Cache PullCall where
  step s call :=
    let pull := Registry.pull C config (s.upstream call) call.reference call.pin
    some
      { dir := pull.1
        log :=
          { reference := call.reference
            pin := call.pin
            requested := OciClient.requested C config (s.upstream call) call.reference
            result := pull.2 } :: s.log }

namespace Registry

variable {config : OciClientConfig} {up : Upstream} {reference : String} {pin : Option String}

/-- A pin does not change what a pull does to the cache. -/
theorem pull_dir :
  (pull C config up reference pin).1 = (OciClient.fetchComponent C config up reference).1
  := by
  rw [pull]
  rcases OciClient.fetchComponent C config up reference with ⟨dir, e | loaded⟩
  · rfl
  · cases pin with
    | none => rfl
    | some p =>
        dsimp only
        cases verifyDigest C loaded.bytes p
        · rfl
        · rfl

/-- An artifact that is pulled was fetched.  Under a pin its bytes have the digest of the pin,
which is what it is recorded under; and without one it is recorded under the digest of the
layer. -/
theorem pull_fetched {loaded : Loaded} (h : (pull C config up reference pin).2 = .ok loaded) :
  ∃ fetched, (OciClient.fetchComponent C config up reference).2 = .ok fetched
    ∧ fetched.bytes = loaded.bytes
    ∧ (∀ p, pin = some p → loaded.digest = p ∧ digestOf C loaded.bytes = p)
    ∧ (pin = none → loaded.digest = fetched.digest)
  := by
  rw [pull] at h
  rcases hfetch : OciClient.fetchComponent C config up reference with ⟨dir, e | fetched⟩
  · simp [hfetch] at h
  · use fetched, rfl
    simp only [hfetch] at h
    cases pin with
    | none =>
        obtain rfl := Except.ok.inj h
        simp
    | some p =>
        dsimp only at h
        cases hverify : verifyDigest C fetched.bytes p with
        | error e => simp [hverify] at h
        | ok _ =>
            simp only [hverify, Except.ok.injEq] at h
            obtain rfl := h
            simp [(verifyDigest_ok C).mp hverify]

/-- When the cache holds the layer, a pull does not ask the registry for a blob. -/
theorem pull_offline {d : String}
    (hlayer : OciClient.layerDigest C config up reference = some d)
    (hpresent : ContentStore.contains none up.dir d = true)
    (blob : OciReference → String → Except String Bytes) :
  pull C config { up with blob } reference pin = pull C config up reference pin
  := by
  rw [pull, pull, OciClient.fetchComponent_offline C config hlayer hpresent blob]

end Registry

namespace ContentStore

/-- A blob that can be read is present. -/
theorem contains_of_get {fault : Option Fault} {dir : Directory UInt8} {d : String}
    {bytes : Bytes} (h : get fault dir d = .ok bytes) :
  contains none dir d = true
  := by
  cases hhex : sanitizeDigest d with
  | error e => simp [get, blobPath, hhex] at h
  | ok hex =>
      obtain ⟨-, hread⟩ := (get_ok hhex).mp h
      rw [contains_eq hhex, Directory.has_eq_read, hread]
      rfl

/-- A digest that is present stays so when a blob is written. -/
theorem contains_of_wrote {P : Process} {blob : Bytes} {dir dir' : Directory UInt8}
    (h : Wrote C P blob dir dir') {d : String} (hd : contains none dir d = true) :
  contains none dir' d = true
  := by
  cases hhex : sanitizeDigest d with
  | error e => simp [contains, blobPath, hhex] at hd
  | ok hex =>
      rw [contains_eq hhex] at hd ⊢
      apply (h.extends C P).has hex (sanitizeDigest_ok.mp hhex).2.2 hd

/-- A blob that is read out of a store whose blobs are what their names say has the digest it is
read under. -/
theorem digestOf_of_get {fault : Option Fault} {dir : Directory UInt8} (hdir : Hashed C dir)
    {d : String} {bytes : Bytes} (h : get fault dir d = .ok bytes) :
  digestOf C bytes = d
  := by
  cases hhex : sanitizeDigest d with
  | error e => simp [get, blobPath, hhex] at h
  | ok hex =>
      obtain ⟨rfl, -, hall⟩ := sanitizeDigest_ok.mp hhex
      obtain ⟨-, hread⟩ := (get_ok hhex).mp h
      obtain rfl := hdir hex bytes hall hread
      rfl

end ContentStore

namespace Registry

variable {config : OciClientConfig} {up : Upstream} {reference : String} {pin : Option String}

/-- A pull leaves the cache as it is, or writes a blob that it did not hold. -/
theorem pull_wrote (config : OciClientConfig) (up : Upstream) (reference : String)
    (pin : Option String) :
  (pull C config up reference pin).1 = up.dir
    ∨ ∃ blob, ContentStore.contains none up.dir (digestOf C blob) = false
        ∧ Wrote C up.process blob up.dir (pull C config up reference pin).1
  := by
  rw [pull_dir]
  obtain hsame | ⟨blob, hrequested, hwrote⟩ := OciClient.fetchComponent_dir C config up reference
  · left
    apply hsame
  · right
    use blob
    rw [OciClient.requested, Option.filter_eq_some_iff] at hrequested
    constructor
    · simpa using hrequested.2
    · apply hwrote

/-- A pull keeps the blobs of the cache what their names say. -/
theorem pull_hashed (hdir : Hashed C up.dir) :
  Hashed C (pull C config up reference pin).1
  := by
  obtain hsame | ⟨blob, -, hwrote⟩ := pull_wrote C config up reference pin
  · rw [hsame]
    apply hdir
  · apply (hwrote.extends C _).stored _ hdir rfl

/-- A pull keeps every blob that can be read. -/
theorem pull_get {d : String} {bytes : Bytes} (h : ContentStore.get none up.dir d = .ok bytes) :
  ContentStore.get none (pull C config up reference pin).1 d = .ok bytes
  := by
  obtain hsame | ⟨blob, habsent, hwrote⟩ := pull_wrote C config up reference pin
  · rw [hsame]
    apply h
  · cases hhex : sanitizeDigest d with
    | error e => simp [ContentStore.get, ContentStore.blobPath, hhex] at h
    | ok hex =>
        obtain ⟨-, hread⟩ := (ContentStore.get_ok hhex).mp h
        apply (ContentStore.get_ok hhex).mpr
        use rfl
        obtain hsame | ⟨rfl, -⟩ := hwrote hex (ContentStore.ne_tmp (sanitizeDigest_ok.mp hhex).2.2)
        · rw [hsame, hread]
        · have hdigest : sanitizeDigest (digestOf C blob) = .ok (C.sha256Hex blob) :=
            sanitizeDigest_digest C blob
          rw [ContentStore.contains_eq hdigest, Directory.has_eq_read, hread] at habsent
          cases habsent

/-- Out of a cache whose blobs are what their names say, an artifact is pulled with the digest it is
recorded under, its pin if there is one, and the cache holds it under that digest. -/
theorem pull_stored (hdir : Hashed C up.dir) {loaded : Loaded}
    (h : (pull C config up reference pin).2 = .ok loaded) :
  digestOf C loaded.bytes = loaded.digest ∧ (∀ p, pin = some p → loaded.digest = p)
    ∧ ContentStore.get none (pull C config up reference pin).1 loaded.digest = .ok loaded.bytes
  := by
  obtain ⟨fetched, hfetch, hbytes, hpinned, hunpinned⟩ := pull_fetched C h
  obtain ⟨-, hget⟩ := OciClient.fetchComponent_present C config hfetch
  rw [← pull_dir C] at hget
  have hdigest := ContentStore.digestOf_of_get C (pull_hashed C hdir) hget
  have hsame : loaded.digest = fetched.digest := by
    cases hpin : pin with
    | none => apply hunpinned hpin
    | some p =>
        obtain ⟨hp, hp'⟩ := hpinned p hpin
        rw [hp, ← hdigest, hbytes, hp']
  refine ⟨?_, fun p hp => (hpinned p hp).1, ?_⟩
  · rw [hsame, ← hbytes]
    apply hdigest
  · cases hhex : sanitizeDigest fetched.digest with
    | error e => simp [ContentStore.get, ContentStore.blobPath, hhex] at hget
    | ok hex =>
        rw [hsame]
        apply (ContentStore.get_ok hhex).mpr
        use rfl
        rw [← hbytes]
        apply ((ContentStore.get_ok hhex).mp hget).2

end Registry

/-! ### What the pulls keep -/

namespace Cache

/-- What the pulls keep: the blobs in the cache are what their names say, every artifact pulled has
the digest it is recorded under and is in the cache, and the digest of an artifact that was pulled
is not asked of the registry later. -/
structure Sound (s : Cache) : Prop where
  hashed : Hashed C s.dir
  digest : ∀ e ∈ s.log, ∀ loaded, e.result = .ok loaded →
    digestOf C loaded.bytes = loaded.digest ∧ ∀ p, e.pin = some p → loaded.digest = p
  present : ∀ e ∈ s.log, ∀ loaded, e.result = .ok loaded →
    ContentStore.contains none s.dir loaded.digest = true
  once : ∀ newer e older loaded, s.log = newer ++ e :: older → e.result = .ok loaded →
    ∀ e' ∈ newer, e'.requested ≠ some loaded.digest

/-- Every pull keeps the cache sound. -/
theorem Sound.step {config : OciClientConfig} {s t : Cache} {call : PullCall} (hs : s.Sound C)
    (h : (cacheMachine C config).step s call = some t) :
  t.Sound C
  := by
  obtain rfl := Option.some.inj h
  have hkept : ∀ d, ContentStore.contains none s.dir d = true → ContentStore.contains none
      (Registry.pull C config (s.upstream call) call.reference call.pin).1 d = true := by
    intro d hd
    obtain hsame | ⟨blob, -, hwrote⟩ :=
      Registry.pull_wrote C config (s.upstream call) call.reference call.pin
    · rw [hsame]
      apply hd
    · apply ContentStore.contains_of_wrote C hwrote hd
  constructor
  · apply Registry.pull_hashed C hs.hashed
  · intro e he loaded hloaded
    obtain rfl | he := List.mem_cons.mp he
    · obtain ⟨hdigest, hpin, -⟩ := Registry.pull_stored C hs.hashed hloaded
      exact ⟨hdigest, hpin⟩
    · apply hs.digest e he loaded hloaded
  · intro e he loaded hloaded
    obtain rfl | he := List.mem_cons.mp he
    · obtain ⟨-, -, hget⟩ := Registry.pull_stored C hs.hashed hloaded
      apply ContentStore.contains_of_get hget
    · apply hkept
      apply hs.present e he loaded hloaded
  · intro newer e older loaded hlog hloaded e' he'
    cases newer with
    | nil => cases he'
    | cons first newer =>
        obtain ⟨rfl, hrest⟩ := List.cons.inj hlog
        obtain rfl | he' := List.mem_cons.mp he'
        · -- what this pull asked for was not in the cache, unlike what was pulled before
          intro hrequested
          have hpresent := hs.present e (by rw [hrest]; simp) loaded hloaded
          rw [OciClient.requested, Option.filter_eq_some_iff] at hrequested
          have habsent := hrequested.2
          rw [show (s.upstream call).dir = s.dir from rfl, hpresent] at habsent
          cases habsent
        · apply hs.once newer e older loaded hrest hloaded e' he'

end Cache

/-- Take any sequence of pulls through one cache, under any references and pins, whatever the
registry answers and whichever calls on the file system fail, other than the look-up whether a
layer is present, from a cache whose blobs are what their names say.  This stays so, and every
artifact pulled has the digest it is recorded under, its pin if there is one.  Once an artifact
was pulled, its digest is never asked of the registry again, and a pull of a reference that
resolves to it comes to the same with and without a registry that serves blobs.  And the pulls
change no file but those named by a digest and the temporary file of the process. -/
theorem pulls_cached {config : OciClientConfig} {dir : Directory UInt8} (hdir : Hashed C dir)
    {calls : List PullCall} {s : Cache}
    (hrun : (cacheMachine C config).run { dir, log := [] } calls = some s) :
  Hashed C s.dir
    ∧ (∀ e ∈ s.log, ∀ loaded, e.result = .ok loaded →
        digestOf C loaded.bytes = loaded.digest ∧ ∀ p, e.pin = some p → loaded.digest = p)
    ∧ (∀ newer e older loaded, s.log = newer ++ e :: older → e.result = .ok loaded →
        (∀ e' ∈ newer, e'.requested ≠ some loaded.digest)
          ∧ ∀ (call : PullCall) blob,
              OciClient.layerDigest C config (s.upstream call) call.reference = some loaded.digest →
              Registry.pull C config { s.upstream call with blob } call.reference call.pin
                = Registry.pull C config (s.upstream call) call.reference call.pin)
    ∧ ∀ name : String, name.toList.all isAsciiHexdigit = false →
        (∀ call ∈ calls, name ≠ ContentStore.tmp call.upstream.process) →
        s.dir.read name = dir.read name
  := by
  have hs : s.Sound C := by
    apply (cacheMachine C config).run_invariant _ _ hrun
    · intro s call t hs h
      apply hs.step C h
    · constructor
      · apply hdir
      · rintro e ⟨⟩
      · rintro e ⟨⟩
      · intro newer e older loaded hlog
        cases newer
        · cases hlog
        · cases hlog
  refine ⟨hs.hashed, hs.digest, ?_, ?_⟩
  · intro newer e older loaded hlog hloaded
    use hs.once newer e older loaded hlog hloaded
    intro call blob hlayer
    apply Registry.pull_offline C hlayer
    apply hs.present e _ loaded hloaded
    rw [hlog]
    simp
  · intro name hname htmp
    apply (cacheMachine C config).run_induct (I := fun s => s.dir.read name = dir.read name)
      (P := fun _ call => name ≠ ContentStore.tmp call.upstream.process) _ rfl _ hrun
    · intro s call t hs hcall h
      obtain rfl := Option.some.inj h
      dsimp only
      obtain hsame | ⟨blob, -, hwrote⟩ :=
        Registry.pull_wrote C config (s.upstream call) call.reference call.pin
      · rw [hsame]
        apply hs
      · obtain hread | ⟨rfl, -⟩ := hwrote name hcall
        · rw [hread]
          apply hs
        · rw [C.sha256Hex_all] at hname
          cases hname
    · apply (cacheMachine C config).meets_of_forall_mem htmp

/-- Two pulls of one tag through a cache that is empty at the start.  By the second one the registry
serves no blobs any more. -/
def cachedPulls : List PullCall :=
  [⟨Registry.pinnedUpstream handlerComponent, "ghcr.io/acme/echo:latest", none⟩,
    ⟨{ Registry.pinnedUpstream handlerComponent with blob := fun _ _ => .error "unavailable" },
      "ghcr.io/acme/echo:latest", none⟩]

/-- Both pulls give the component, and the second one does not ask for its blob. -/
theorem pulls_cached_twice :
  ∃ s first second loaded,
    (cacheMachine sampleCrates {}).run { dir := .empty, log := [] } cachedPulls = some s
    ∧ s.log = [second, first]
    ∧ first.result = .ok loaded
    ∧ second.result.isOk
    ∧ digestOf sampleCrates loaded.bytes = loaded.digest
    ∧ second.requested ≠ some loaded.digest
  := by
  have hempty : Hashed sampleCrates (.empty : Directory UInt8) := by
    intro name content _ hread
    simp [Directory.read, Directory.file, Directory.empty] at hread
  -- evaluate the run once, and read the rest off its result
  have hok : ((cacheMachine sampleCrates {}).run { dir := .empty, log := [] } cachedPulls).any
      (fun s => s.log.length == 2 && s.log.all (·.result.isOk)) = true := by
    decide +kernel
  cases hrun : (cacheMachine sampleCrates {}).run { dir := .empty, log := [] } cachedPulls with
  | none => simp [hrun] at hok
  | some s =>
      simp only [hrun, Option.any_some, Bool.and_eq_true, beq_iff_eq, List.all_eq_true] at hok
      obtain ⟨hlength, hresults⟩ := hok
      obtain ⟨second, first, hlog⟩ := List.length_eq_two.mp hlength
      obtain ⟨-, hdigest, honce, -⟩ := pulls_cached sampleCrates hempty hrun
      have hfirst : first ∈ s.log := by
        simp [hlog]
      have hsecond : second ∈ s.log := by
        simp [hlog]
      obtain ⟨loaded, hloaded⟩ : ∃ loaded, first.result = .ok loaded := by
        have hisOk := hresults first hfirst
        cases hresult : first.result with
        | error e => simp [hresult, Except.isOk, Except.toBool] at hisOk
        | ok loaded => exact ⟨loaded, rfl⟩
      refine ⟨s, first, second, loaded, rfl, hlog, hloaded, hresults second hsecond,
        (hdigest first hfirst loaded hloaded).1, ?_⟩
      apply (honce [second] first [] loaded hlog hloaded).1
      apply List.mem_singleton_self

end Ember
