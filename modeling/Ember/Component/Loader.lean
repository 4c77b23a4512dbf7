import Ember.Crates

/-!
# Component artifacts

A `Loaded` artifact is a component binary that passed structural validation, with the
metadata derived from its bytes.  `contractViolations` and `ensureContract` check that its
export names satisfy the guest contract.
-/

namespace Ember

/-- The world id a component must target to be scheduled. -/
def emberWorld : String := "ember-guest"

/-- The exported interface a component uses to receive requests. -/
def handlerInterface : String := "ember-handler"

/-- A validated component artifact. -/
structure Loaded where
  /-- Human-readable origin: a file path or an OCI reference. -/
  source : String
  bytes : Bytes
  /-- Content digest. -/
  digest : String
  size : ℕ
  /-- The world id embedded in the component. -/
  worldId : Option String
  exports : List String
  deriving DecidableEq, Repr

/-- `str::strip_prefix`. -/
def stripPrefix (p s : String) : Option String :=
  if p.toList.isPrefixOf s.toList then some (String.ofList (s.toList.drop p.toList.length))
  else none

/-- `str::contains`, for a string pattern. -/
def containsStr (s p : String) : Bool :=
  decide (p.toList <:+: s.toList)

variable {κ : Type} (C : Crates κ)

/-- The content digest of `bytes`. -/
def digestOf (bytes : Bytes) : String := C.sha256Digest bytes

namespace Loaded

/-- The world id among the export names: the first one of the form `#<world-id>`. -/
def worldOf (exports : List String) : Option String :=
  exports.findSome? (stripPrefix "#")

/-- Validate `bytes` as a component and derive the metadata. -/
def fromBytes (source : String) (bytes : Bytes) : Except Error Loaded :=
  match C.validateAll bytes with
  | .error e => .error (.validation e)
  | .ok () =>
      match C.exports bytes with
      | .error e => .error (.invalidComponent source e)
      | .ok exports => .ok
          { source
            bytes
            digest := digestOf C bytes
            size := bytes.length
            worldId := worldOf exports
            exports }

/-- Load and validate a component artifact from disk, where `read` is `std::fs::read`. -/
def fromPath (read : String → Except String Bytes) (path : String) : Except Error Loaded :=
  match read path with
  | .error e => .error (.invalidComponent path e)
  | .ok bytes => fromBytes C path bytes

end Loaded

/-- What is missing from `exports`, or `none` when they satisfy the guest contract. -/
def contractViolations (exports : List String) : Option String :=
  let hasWorld := exports.any fun e => e == emberWorld || e == s!"#{emberWorld}"
  let hasInterface := exports.any fun e =>
    e == handlerInterface || e == "handler" || containsStr e ":runtime/handler"
  if hasWorld || hasInterface then none
  else
    let names := ", ".intercalate exports
    let seen := if exports.isEmpty then "no exports at all" else s!"only: {names}"
    some s!"artifact exports {seen}; expected interface `{handlerInterface}` or world `{emberWorld}`"

/-- Ensure that a loaded artifact satisfies the guest contract. -/
def ensureContract (loaded : Loaded) : Except Error Unit :=
  match contractViolations loaded.exports with
  | none => .ok ()
  | some reason => .error (.contract reason)

/-! ### What a successful load establishes -/

/-- An artifact loaded from `bytes` holds these bytes, their digest and their exports, and
the bytes passed validation. -/
theorem Loaded.fromBytes_ok {source : String} {bytes : Bytes} {l : Loaded}
    (h : fromBytes C source bytes = .ok l) :
  C.validateAll bytes = .ok () ∧ C.exports bytes = .ok l.exports ∧ l.bytes = bytes
    ∧ l.digest = digestOf C bytes ∧ l.source = source ∧ l.size = bytes.length
    ∧ l.worldId = worldOf l.exports
  := by
  unfold fromBytes at h
  split at h
  · cases h
  · rename_i hvalid
    split at h
    · cases h
    · rename_i exports hexports
      obtain rfl := Except.ok.inj h
      and_intros
      · apply hvalid
      · apply hexports
      all_goals rfl

/-- The contract check passes exactly when there is no violation. -/
theorem ensureContract_ok {loaded : Loaded} :
  ensureContract loaded = .ok () ↔ contractViolations loaded.exports = none
  := by
  unfold ensureContract
  cases contractViolations loaded.exports with
  | none => simp
  | some reason => simp

end Ember
