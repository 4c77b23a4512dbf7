import Ember.Registry.Oci

/-!
# Which registry a reference is resolved at

A reference names a registry when the part before its first `/` looks like a host.  The OCI
library looks at that part, while `OciClient.resolve` only asks whether there is a `/` at all.
So the two disagree on a reference of several segments that names no registry: it is used as it
is, and the library reads it as one of `docker.io` (`resolve_registry_iff`).
-/

namespace Ember

/-- The text looks like the host of a registry. -/
def isRegistryHost (s : List Char) : Bool :=
  s.contains '.' || s.contains ':' || s = "localhost".toList

/-- The registry a reference names: the part before its first `/`, when that looks like a host. -/
def namedRegistry (reference : String) : Option String :=
  let host := reference.toList.takeWhile (· ≠ '/')
  if reference.toList.contains '/' && isRegistryHost host then some (String.ofList host) else none

/-- The endpoint is a registry host. -/
def IsEndpoint (endpoint : String) : Prop :=
  '/' ∉ endpoint.toList ∧ isRegistryHost endpoint.toList = true

instance (endpoint : String) : Decidable (IsEndpoint endpoint) :=
  inferInstanceAs (Decidable (_ ∧ _))

/-- The parser of the OCI library takes the registry that a reference names, and else
`docker.io`. -/
def ParsesRegistry (parse : String → Except String OciReference) : Prop :=
  ∀ s r, parse s = .ok r → r.registry = (namedRegistry s).getD "docker.io"

/-- A reference without `/` names no registry. -/
theorem namedRegistry_of_not_mem {reference : String} (h : '/' ∉ reference.toList) :
  namedRegistry reference = none
  := by
  simp [namedRegistry, h]

/-- A reference at an endpoint names the endpoint. -/
theorem namedRegistry_qualified {endpoint : String} (h : IsEndpoint endpoint)
    (reference : String) :
  namedRegistry s!"{endpoint}/{reference}" = some endpoint
  := by
  have htext : (s!"{endpoint}/{reference}").toList
      = endpoint.toList ++ '/' :: reference.toList := by
    simp [toString]
  have hhost : (endpoint.toList ++ '/' :: reference.toList).takeWhile (· ≠ '/')
      = endpoint.toList := by
    rw [List.takeWhile_append_of_pos]
    · simp
    · intro c hc
      simp only [ne_eq, decide_eq_true_eq]
      rintro rfl
      apply h.1 hc
  rw [namedRegistry, htext, hhost]
  simp [h.2]

namespace OciClient

variable {κ : Type} (C : Crates κ) (config : OciClientConfig)

/-- A reference is resolved exactly when the library accepts its qualified form. -/
theorem resolve_ok {reference : String} {r : OciReference} :
  resolve C config reference = .ok r
    ↔ C.reference
        (if '/' ∈ reference.toList then reference else s!"{config.endpoint}/{reference}") = .ok r
  := by
  simp only [resolve, List.contains_iff_mem]
  split
  next e he => simp [he]
  next r' hr => simp [hr]

/-- For an endpoint that is a registry host: whatever a reference is resolved to is at the
registry that the reference names, and at the endpoint if it names none, exactly when the
reference has no `/`, or names a registry, or the library rejects it, or the endpoint is the
registry that the library takes by itself. -/
theorem resolve_registry_iff (hparse : ParsesRegistry C.reference)
    (hendpoint : IsEndpoint config.endpoint) (reference : String) :
  (∀ r, resolve C config reference = .ok r →
      r.registry = (namedRegistry reference).getD config.endpoint)
    ↔ '/' ∉ reference.toList ∨ (∃ host, namedRegistry reference = some host)
      ∨ config.endpoint = "docker.io" ∨ ∀ r, C.reference reference ≠ .ok r
  := by
  simp only [resolve_ok]
  by_cases hslash : '/' ∈ reference.toList
  · simp only [hslash, if_true, not_true, false_or]
    cases hnamed : namedRegistry reference with
    | some host =>
        simp only [Option.getD_some, Option.some.injEq, exists_eq', true_or, iff_true]
        intro r hr
        rw [hparse reference r hr, hnamed, Option.getD_some]
    | none =>
        simp only [Option.getD_none, reduceCtorEq, exists_false, false_or]
        constructor
        · intro h
          by_contra hnot
          rw [not_or, not_forall] at hnot
          obtain ⟨hdocker, r, hr⟩ := hnot
          rw [not_not] at hr
          apply hdocker
          rw [← h r hr, hparse reference r hr, hnamed, Option.getD_none]
        · rintro (hdocker | hnone) r hr
          · rw [hparse reference r hr, hnamed, Option.getD_none, hdocker]
          · exact absurd hr (hnone r)
  · simp only [hslash, if_false, not_false_eq_true, true_or, iff_true]
    intro r hr
    rw [namedRegistry_of_not_mem hslash, Option.getD_none, hparse _ r hr,
      namedRegistry_qualified hendpoint, Option.getD_some]

/-- The parser of the OCI library, on well-formed references without tag and digest. -/
def sampleParse (s : String) : Except String OciReference :=
  .ok
    { registry := (namedRegistry s).getD "docker.io"
      repository :=
        match namedRegistry s with
        | some _ => String.ofList ((s.toList.dropWhile (· ≠ '/')).drop 1)
        | none => if '/' ∈ s.toList then s else s!"library/{s}"
      tag := some "latest"
      digest := none }

theorem parsesRegistry_sampleParse :
  ParsesRegistry sampleParse
  := by
  intro s r hr
  rw [← Except.ok.inj hr]

/-- The reference `echo` is resolved at the endpoint. -/
theorem resolve_registry_bare :
  ∃ r, resolve { sampleCrates with reference := sampleParse } {} "echo" = .ok r
    ∧ r.registry = "ghcr.io"
  := by
  refine ⟨_, rfl, ?_⟩
  apply (resolve_registry_iff { sampleCrates with reference := sampleParse } {}
    parsesRegistry_sampleParse (by decide) "echo").mpr
  · left
    decide
  · rfl

/-- The reference `acme/echo` names no registry, and is resolved at `docker.io`. -/
theorem resolve_registry_unqualified :
  ∃ r, resolve { sampleCrates with reference := sampleParse } {} "acme/echo" = .ok r
    ∧ namedRegistry "acme/echo" = none
    ∧ r.registry = "docker.io"
    ∧ r.registry ≠ (namedRegistry "acme/echo").getD ({} : OciClientConfig).endpoint
  := by
  refine ⟨_, rfl, by decide, by decide, by decide⟩

end OciClient

end Ember
