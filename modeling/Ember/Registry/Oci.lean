import Ember.Registry.Store

/-!
# Pulling components

`OciClient.fetchComponent` resolves a reference to a manifest, takes the digest of its first
layer, pulls the layer into the content store when it is absent there, and loads the
component from the store.  `Registry.pull` applies an optional pin to what was fetched.

A pull meets an `Upstream`: whatever the registry answers, the directory the store finds, and
the faults of the file-system calls, except that the look-up whether the layer is present meets
none.  The directory outlives the process and is shared with other programs, so every pull meets
one of its own.

A fetched artifact has the digest of its bytes exactly when the store did not hold a
different, valid component under the digest of the layer (`fetchComponent_digest_iff`).
-/

namespace Ember

variable {κ : Type} (C : Crates κ)

/-- Client configuration for one registry endpoint. -/
structure OciClientConfig where
  endpoint : String := "ghcr.io"
  insecure : Bool := false
  cacheDir : String := "registry-cache"
  manifestCacheTtl : Duration := .ofSecs 60
  deriving DecidableEq, Repr

/-- A layer of a manifest. -/
structure OciLayer where
  digest : String
  deriving DecidableEq, Repr

/-- An image manifest. -/
structure OciManifest where
  layers : List OciLayer
  deriving DecidableEq, Repr

/-- What a pull meets outside the process: the answers of the registry, the cache directory,
the process the store runs in, and the faults of the file-system calls that write and read the
layer.  The look-up before them meets no fault. -/
structure Upstream where
  manifest : OciReference → Except String OciManifest
  blob : OciReference → String → Except String Bytes
  dir : Directory UInt8
  process : Process
  put : PutFaults
  get : Option Fault

/-- `digest_of`, as `verify_digest` computes it. -/
def Oci.digestOf (bytes : Bytes) : String := C.sha256Digest bytes

/-- Verify that `bytes` match a digest. -/
def verifyDigest (bytes : Bytes) (expected : String) : Except Error Unit :=
  let computed := Oci.digestOf C bytes
  if computed ≠ expected then .error (.digestMismatch expected computed) else .ok ()

/-- Validate that `s` is a well-formed digest text. -/
def parseDigest (s : String) : Except Error Unit :=
  match stripPrefix "sha256:" s with
  | none => .error (.config s!"digest `{s}` must use the sha256 scheme")
  | some hex =>
      if hex.utf8ByteSize ≠ 64 ∨ !hex.toList.all isAsciiHexdigit then
        .error (.config s!"malformed sha256 digest `{s}`")
      else .ok ()

namespace OciClient

variable (config : OciClientConfig)

/-- Resolve a reference.  One without `/` is prefixed with the configured endpoint. -/
def resolve (reference : String) : Except Error OciReference :=
  let qualified :=
    if reference.toList.contains '/' then reference else s!"{config.endpoint}/{reference}"
  match C.reference qualified with
  | .error e => .error (.oci s!"invalid reference `{reference}`: {e}")
  | .ok r => .ok r

/-- Pull the manifest of a reference. -/
def pullManifest (up : Upstream) (reference : OciReference) : Except Error OciManifest :=
  match up.manifest reference with
  | .error e =>
      let whole := reference.whole
      .error (.oci s!"pull manifest `{whole}`: {e}")
  | .ok manifest => .ok manifest

/-- Make the layer `digest` present in the store: when it is absent, pull it, verify it and
put it. -/
def ensurePresent (up : Upstream) (resolved : OciReference) (digest : String) :
    Directory UInt8 × Except Error Unit :=
  if ContentStore.contains none up.dir digest then (up.dir, .ok ())
  else
    match up.blob resolved digest with
    | .error e => (up.dir, .error (.oci s!"pull blob {digest}: {e}"))
    | .ok blob =>
        match verifyDigest C blob digest with
        | .error e => (up.dir, .error e)
        | .ok () =>
            match ContentStore.put C up.process up.put up.dir blob with
            | (dir, .error e) => (dir, .error e)
            | (dir, .ok _) => (dir, .ok ())

/-- Load the component the store holds for the layer `digest`, and record that digest. -/
def loadLayer (up : Upstream) (dir : Directory UInt8) (reference digest : String) :
    Except Error Loaded :=
  match ContentStore.get up.get dir digest with
  | .error e => .error e
  | .ok bytes =>
      match Loaded.fromBytes C reference bytes with
      | .error e => .error e
      | .ok loaded => .ok { loaded with digest }

/-- Pull a component by reference.  The first component is the cache directory after the
pull. -/
def fetchComponent (up : Upstream) (reference : String) :
    Directory UInt8 × Except Error Loaded :=
  match resolve C config reference with
  | .error e => (up.dir, .error e)
  | .ok resolved =>
      match pullManifest up resolved with
      | .error e => (up.dir, .error e)
      | .ok manifest =>
          match manifest.layers.head? with
          | none => (up.dir, .error (.oci s!"manifest for `{reference}` has no layers"))
          | some layer =>
              match ensurePresent C up resolved layer.digest with
              | (dir, .error e) => (dir, .error e)
              | (dir, .ok ()) => (dir, loadLayer C up dir reference layer.digest)

/-- The digest of the layer a reference currently resolves to. -/
def layerDigest (up : Upstream) (reference : String) : Option String :=
  match resolve C config reference with
  | .error _ => none
  | .ok resolved =>
      match up.manifest resolved with
      | .error _ => none
      | .ok manifest => manifest.layers.head?.map (·.digest)

end OciClient

/-- Pull `reference`, applying an optional pin. -/
def Registry.pull (config : OciClientConfig) (up : Upstream) (reference : String)
    (pin : Option String) : Directory UInt8 × Except Error Loaded :=
  match OciClient.fetchComponent C config up reference with
  | (dir, .error e) => (dir, .error e)
  | (dir, .ok loaded) =>
      match pin with
      | none => (dir, .ok loaded)
      | some pin =>
          match verifyDigest C loaded.bytes pin with
          | .error e => (dir, .error e)
          | .ok () => (dir, .ok { loaded with digest := pin })

/-! ### What verification and fetching establish -/

/-- Bytes match a digest exactly when it is their digest. -/
theorem verifyDigest_ok {bytes : Bytes} {expected : String} :
  verifyDigest C bytes expected = .ok () ↔ digestOf C bytes = expected
  := by
  simp only [verifyDigest, Oci.digestOf, digestOf]
  by_cases h : C.sha256Digest bytes = expected
  · simp [h]
  · simp [h]

namespace OciClient

variable (config : OciClientConfig)

/-- A fetch that reaches the store gives what the store gives for the layer; one that does
not gives no artifact. -/
theorem fetchComponent_ok {up : Upstream} {reference : String} {loaded : Loaded} :
  (fetchComponent C config up reference).2 = .ok loaded
    ↔ ∃ resolved d dir, resolve C config reference = .ok resolved
      ∧ layerDigest C config up reference = some d
      ∧ ensurePresent C up resolved d = (dir, .ok ())
      ∧ loadLayer C up dir reference d = .ok loaded
  := by
  cases hresolved : resolve C config reference with
  | error e => simp [fetchComponent, hresolved]
  | ok resolved =>
      cases hmanifest : up.manifest resolved with
      | error e => simp [fetchComponent, layerDigest, hresolved, pullManifest, hmanifest]
      | ok manifest =>
          cases hlayer : manifest.layers.head? with
          | none => simp [fetchComponent, layerDigest, hresolved, pullManifest, hmanifest, hlayer]
          | some layer =>
              rcases hpresent : ensurePresent C up resolved layer.digest with ⟨dir, e | ⟨⟩⟩
              · simp [fetchComponent, layerDigest, hresolved, pullManifest, hmanifest, hlayer,
                  hpresent]
              · simp [fetchComponent, layerDigest, hresolved, pullManifest, hmanifest, hlayer,
                  hpresent]

/-- An artifact loaded from the store holds the bytes the store gave, loaded as a component,
and carries the digest asked for. -/
theorem loadLayer_ok {up : Upstream} {dir : Directory UInt8} {reference d : String}
    {loaded : Loaded} :
  loadLayer C up dir reference d = .ok loaded
    ↔ ∃ loaded', ContentStore.get up.get dir d = .ok loaded.bytes
      ∧ Loaded.fromBytes C reference loaded.bytes = .ok loaded'
      ∧ loaded = { loaded' with digest := d }
  := by
  constructor
  · intro h
    unfold loadLayer at h
    split at h
    · cases h
    · rename_i bytes hbytes
      split at h
      · cases h
      · rename_i loaded' hloaded
        obtain rfl := Except.ok.inj h
        obtain ⟨-, -, hsame, -⟩ := Loaded.fromBytes_ok C hloaded
        use loaded'
        simp only [hsame]
        exact ⟨hbytes, hloaded, trivial⟩
  · rintro ⟨loaded', hbytes, hloaded, h⟩
    simp only [loadLayer, hbytes, hloaded]
    rw [← h]

/-- The store gives the pulled and verified bytes for a layer that was absent. -/
theorem digestOf_of_absent {up : Upstream} {resolved : OciReference} {d : String}
    {dir : Directory UInt8} {bytes : Bytes} (habsent : ContentStore.contains none up.dir d = false)
    (hdir : ensurePresent C up resolved d = (dir, .ok ()))
    (hbytes : ContentStore.get up.get dir d = .ok bytes) :
  digestOf C bytes = d
  := by
  simp only [ensurePresent, habsent, Bool.false_eq_true, if_false] at hdir
  split at hdir
  · simp at hdir
  · rename_i blob hblob
    split at hdir
    · simp at hdir
    · rename_i hverify
      obtain rfl := (verifyDigest_ok C).mp hverify
      split at hdir
      · simp at hdir
      · rename_i dir' d' hput
        obtain ⟨rfl, -⟩ := Prod.mk.inj hdir
        have hhex := sanitizeDigest_digest C blob
        have hnot := (ContentStore.contains_eq hhex).symm.trans habsent
        obtain ⟨-, hget⟩ := (ContentStore.get_ok hhex).mp hbytes
        obtain ⟨-, hread | ⟨hhas, -⟩⟩ := ContentStore.put_ok C hput
        · rw [hread] at hget
          rw [Option.some.inj hget]
        · rw [hnot] at hhas
          cases hhas

/-- A readable cached component is fetched as it is, under the digest of the layer. -/
theorem fetchComponent_cached {up : Upstream} {reference d : String} {cached : Bytes}
    {loaded : Loaded} (hlayer : layerDigest C config up reference = some d)
    (hcached : ContentStore.get up.get up.dir d = .ok cached)
    (hloaded : Loaded.fromBytes C reference cached = .ok loaded) :
  (fetchComponent C config up reference).2 = .ok { loaded with digest := d }
  := by
  obtain ⟨resolved, hresolved⟩ : ∃ resolved, resolve C config reference = .ok resolved := by
    cases hr : resolve C config reference with
    | error e => simp [layerDigest, hr] at hlayer
    | ok resolved => exact ⟨resolved, rfl⟩
  have hpresent : ContentStore.contains none up.dir d = true := by
    cases hhex : sanitizeDigest d with
    | error e => simp [ContentStore.get, ContentStore.blobPath, hhex] at hcached
    | ok hex =>
        obtain ⟨-, hread⟩ := (ContentStore.get_ok hhex).mp hcached
        rw [ContentStore.contains_eq hhex, Directory.has_eq_read, hread]
        rfl
  obtain ⟨-, -, hbytes, -⟩ := Loaded.fromBytes_ok C hloaded
  apply (fetchComponent_ok C config).mpr
  refine ⟨resolved, d, up.dir, hresolved, hlayer, by simp [ensurePresent, hpresent], ?_⟩
  apply (loadLayer_ok C).mpr
  exact ⟨loaded, by rwa [hbytes], by rwa [hbytes], rfl⟩

/-- A fetched artifact carries the digest of the layer.  Its bytes are what the cache held under
this digest, or they have it. -/
theorem fetchComponent_bytes {up : Upstream} {reference : String} {loaded : Loaded}
    (hfetch : (fetchComponent C config up reference).2 = .ok loaded) :
  layerDigest C config up reference = some loaded.digest
    ∧ (Loaded.fromBytes C reference loaded.bytes).isOk
    ∧ (ContentStore.get up.get up.dir loaded.digest = .ok loaded.bytes
      ∨ digestOf C loaded.bytes = loaded.digest)
  := by
  obtain ⟨resolved, d, dir, -, hlayer, hdir, hload⟩ := (fetchComponent_ok C config).mp hfetch
  obtain ⟨loaded', hget, hloaded, hdigest⟩ := (loadLayer_ok C).mp hload
  obtain rfl : loaded.digest = d := by
    rw [hdigest]
  use hlayer
  constructor
  · rw [hloaded]
    rfl
  · cases hpresent : ContentStore.contains none up.dir loaded.digest with
    | false =>
        right
        apply digestOf_of_absent C hpresent hdir hget
    | true =>
        left
        obtain rfl : up.dir = dir := by
          simpa [ensurePresent, hpresent] using hdir
        apply hget

/-- The bytes of a fetched artifact have its digest exactly when the cache did not hold,
under the digest of the layer the reference resolves to, the readable bytes of a valid
component with another digest. -/
theorem fetchComponent_digest_iff (up : Upstream) (reference : String) :
  (∀ loaded, (fetchComponent C config up reference).2 = .ok loaded →
      digestOf C loaded.bytes = loaded.digest)
    ↔ ∀ d cached, layerDigest C config up reference = some d →
        ContentStore.get up.get up.dir d = .ok cached →
        (Loaded.fromBytes C reference cached).isOk → digestOf C cached = d
  := by
  constructor
  · intro h d cached hlayer hcached hvalid
    cases hloaded : Loaded.fromBytes C reference cached with
    | error e => simp [hloaded, Except.isOk, Except.toBool] at hvalid
    | ok loaded =>
        obtain ⟨-, -, hbytes, -⟩ := Loaded.fromBytes_ok C hloaded
        have hdigest := h _ (fetchComponent_cached C config hlayer hcached hloaded)
        rwa [hbytes] at hdigest
  · intro h loaded hfetch
    obtain ⟨hlayer, hvalid, hcached | hdigest⟩ := fetchComponent_bytes C config hfetch
    · apply h loaded.digest loaded.bytes hlayer hcached hvalid
    · apply hdigest

/-- A registry whose tag resolves to `handlerComponent`, with a cache that holds
`emptyComponent` under the digest of `handlerComponent`. -/
def tamperedUpstream : Upstream where
  manifest _ := .ok { layers := [{ digest := digestOf sampleCrates handlerComponent }] }
  blob _ _ := .ok handlerComponent
  dir :=
    (Directory.empty.create (sampleCrates.sha256Hex handlerComponent)).1.write 0 emptyComponent
  process := { pid := 1, renameReplaces := true }
  put := {}
  get := none

/-- A fetch through the tampered cache gives the bytes of one component with the digest of
another. -/
theorem fetchComponent_tampered :
  ∃ loaded,
    (fetchComponent sampleCrates {} tamperedUpstream "ghcr.io/acme/echo:latest").2 = .ok loaded
      ∧ loaded.bytes = emptyComponent
      ∧ loaded.digest = digestOf sampleCrates handlerComponent
      ∧ digestOf sampleCrates loaded.bytes ≠ loaded.digest
  := by
  refine ⟨_, rfl, rfl, rfl, ?_⟩
  decide

end OciClient

end Ember
