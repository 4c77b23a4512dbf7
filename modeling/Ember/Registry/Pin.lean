import Ember.Registry.Oci

/-!
# Pins

A pin is checked against the artifact that the reference resolves to.  While the reference
resolves to the pinned layer, the cached blob of the pin is what a pull gives.  When the tag
has moved to another layer the pull fails, although the cache still holds the pinned blob
(`pull_cached_pin_iff`): the pin refuses artifacts, and does not select one.
-/

namespace Ember

variable {κ : Type} (C : Crates κ)

namespace Registry

open OciClient

variable {config : OciClientConfig} {up : Upstream} {reference p : String}

/-- What a pull under a pin makes of a fetched artifact. -/
theorem pull_of_fetch {loaded : Loaded}
    (hfetch : (fetchComponent C config up reference).2 = .ok loaded) :
  (pull C config up reference (some p)).2
    = if digestOf C loaded.bytes = p then .ok { loaded with digest := p }
      else .error (.digestMismatch p (digestOf C loaded.bytes))
  := by
  rcases heq : fetchComponent C config up reference with ⟨dir, r⟩
  rw [heq] at hfetch
  obtain rfl : r = .ok loaded := hfetch
  rw [pull, heq]
  simp only [verifyDigest, Oci.digestOf, digestOf]
  by_cases h : C.sha256Digest loaded.bytes = p
  · simp [h]
  · simp [h]

/-- An artifact pulled under a pin was fetched, and its bytes have the digest of the pin. -/
theorem fetch_of_pull {loaded : Loaded}
    (hpull : (pull C config up reference (some p)).2 = .ok loaded) :
  ∃ fetched, (fetchComponent C config up reference).2 = .ok fetched
    ∧ fetched.bytes = loaded.bytes ∧ digestOf C loaded.bytes = p
  := by
  rcases heq : fetchComponent C config up reference with ⟨dir, e | fetched⟩
  · simp [pull, heq] at hpull
  · use fetched, rfl
    have hfetch : (fetchComponent C config up reference).2 = .ok fetched := by
      rw [heq]
    rw [pull_of_fetch C hfetch] at hpull
    split at hpull
    next hdigest =>
      obtain rfl := Except.ok.inj hpull
      exact ⟨rfl, hdigest⟩
    · cases hpull

/-- Let the cache hold the pinned blob intact, a valid component.  The pull gives this blob under
the pin exactly when the cache holds it under the digest of the first layer that the reference
resolves to, which is the pin unless the cache holds the blob under a wrong name. -/
theorem pull_cached_pin_iff {blob : Bytes}
    (hcached : ContentStore.get up.get up.dir p = .ok blob) (hintact : digestOf C blob = p)
    (hvalid : (Loaded.fromBytes C reference blob).isOk) :
  (∃ loaded, (pull C config up reference (some p)).2 = .ok loaded
      ∧ loaded.bytes = blob ∧ loaded.digest = p)
    ↔ ∃ d, layerDigest C config up reference = some d
        ∧ ContentStore.get up.get up.dir d = .ok blob
  := by
  constructor
  · rintro ⟨loaded, hpull, rfl, -⟩
    obtain ⟨fetched, hfetch, hbytes, hdigest⟩ := fetch_of_pull C hpull
    rw [← hbytes] at hcached hdigest ⊢
    obtain ⟨hlayer, -, hheld | hlayerDigest⟩ := fetchComponent_bytes C config hfetch
    · use fetched.digest, hlayer, hheld
    · use fetched.digest, hlayer
      rw [← hlayerDigest, hdigest]
      apply hcached
  · rintro ⟨d, hlayer, hheld⟩
    cases hloaded : Loaded.fromBytes C reference blob with
    | error e => simp [hloaded, Except.isOk, Except.toBool] at hvalid
    | ok loaded =>
        obtain ⟨-, -, hbytes, -⟩ := Loaded.fromBytes_ok C hloaded
        have hfetch := fetchComponent_cached C config hlayer hheld hloaded
        rw [pull_of_fetch C hfetch, if_pos (by rwa [hbytes])]
        exact ⟨_, rfl, hbytes, rfl⟩

/-- A registry whose tag resolves to `component`, with a cache that holds
`handlerComponent`. -/
def pinnedUpstream (component : Bytes) : Upstream where
  manifest _ := .ok { layers := [{ digest := digestOf sampleCrates component }] }
  blob _ _ := .ok component
  dir :=
    (Directory.empty.create (sampleCrates.sha256Hex handlerComponent)).1.write 0 handlerComponent
  process := { pid := 1, renameReplaces := true }
  put := {}
  get := none

/-- While the tag resolves to the pinned layer, the pull gives the pinned blob. -/
theorem pull_cached_pin_same :
  ∃ loaded,
    (pull sampleCrates {} (pinnedUpstream handlerComponent) "ghcr.io/acme/echo:latest"
        (some (digestOf sampleCrates handlerComponent))).2 = .ok loaded
      ∧ loaded.bytes = handlerComponent
      ∧ loaded.digest = digestOf sampleCrates handlerComponent
  := by
  apply (pull_cached_pin_iff sampleCrates _ rfl _).mpr
  · use digestOf sampleCrates handlerComponent, rfl
    decide +kernel
  · decide +kernel
  · decide +kernel

/-- The pinned blob is in the cache, intact and a valid component, and the manifest can be
pulled, but the tag has moved: the pull fails. -/
theorem pull_moved_tag :
  let up := pinnedUpstream emptyComponent
  let p := digestOf sampleCrates handlerComponent
  (∃ manifest resolved, resolve sampleCrates {} "ghcr.io/acme/echo:latest" = .ok resolved
      ∧ up.manifest resolved = .ok manifest)
    ∧ ContentStore.get up.get up.dir p = .ok handlerComponent
    ∧ (Loaded.fromBytes sampleCrates "ghcr.io/acme/echo:latest" handlerComponent).isOk
    ∧ (pull sampleCrates {} up "ghcr.io/acme/echo:latest" (some p)).2
      = .error (.digestMismatch p (digestOf sampleCrates emptyComponent))
  := by
  refine ⟨⟨_, _, rfl, rfl⟩, ?_, ?_, ?_⟩
  · decide +kernel
  · decide +kernel
  · decide +kernel

end Registry

end Ember
