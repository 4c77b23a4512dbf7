import Mathlib.Tactic

/-!
# The error taxonomy

`Error` is the one error type that crosses the module boundaries of the runtime.  The errors
of other crates it wraps (`wasmtime::Error`, `http::Error`, `std::io::Error`) are kept as
their texts.  `Error.status` is the HTTP status an ingress failure is surfaced as.
-/

namespace Ember

/-- Byte strings. -/
abbrev Bytes := List UInt8

/-- Durations, in nanoseconds. -/
abbrev Duration := ℕ

/-- Readings of the monotonic clock, in nanoseconds from its origin. -/
abbrev Instant := ℕ

/-- The number of nanoseconds in a second. -/
def Duration.ofSecs (n : ℕ) : Duration := n * 1000000000

/-- The errors of the runtime. -/
inductive Error where
  | config (detail : String)
  | invalidComponent (path reason : String)
  | contract (detail : String)
  | componentNotFound (detail : String)
  | tenantNotFound (detail : String)
  | registry (detail : String)
  | oci (detail : String)
  | wasm (detail : String)
  | validation (detail : String)
  | http (detail : String)
  | io (detail : String)
  | digestMismatch (expected computed : String)
  | limitExceeded (detail : String)
  | shutdown
  deriving DecidableEq, Repr

/-- The text of an error. -/
def Error.display : Error → String
  | .config e => s!"configuration error: {e}"
  | .invalidComponent path reason => s!"invalid component artifact `{path}`: {reason}"
  | .contract e => s!"component contract violated: {e}"
  | .componentNotFound e => s!"component not found: {e}"
  | .tenantNotFound e => s!"tenant not found: {e}"
  | .registry e => s!"registry error: {e}"
  | .oci e => s!"oci distribution error: {e}"
  | .wasm e => s!"wasmtime error: {e}"
  | .validation e => s!"validation error: {e}"
  | .http e => s!"http error: {e}"
  | .io e => s!"i/o error: {e}"
  | .digestMismatch expected computed =>
      s!"digest mismatch: expected {expected}, computed {computed}"
  | .limitExceeded e => s!"sandbox limit exceeded: {e}"
  | .shutdown => "shutdown requested"

/-- The HTTP status an error is surfaced as. -/
def Error.status : Error → ℕ
  | .config _ => 500
  | .invalidComponent _ _ | .contract _ => 400
  | .componentNotFound _ | .tenantNotFound _ => 404
  | .registry _ | .oci _ | .wasm _ | .validation _ => 500
  | .http _ => 400
  | .io _ => 500
  | .digestMismatch _ _ => 409
  | .limitExceeded _ => 429
  | .shutdown => 503

/-- Every error is surfaced as a client or a server error. -/
theorem Error.status_mem (e : Error) :
  400 ≤ e.status ∧ e.status < 600
  := by
  cases e
  all_goals simp [status]

/-- Two fallible steps in sequence give a value exactly when the first gives a value from
which the second gives it. -/
theorem Except.andThen_ok {α β : Type} {first : Except Error α} {second : α → Except Error β}
    {b : β} :
  first >>= second = .ok b ↔ ∃ a, first = .ok a ∧ second a = .ok b
  := by
  constructor
  · intro h
    cases first with
    | error e => cases h
    | ok a => exact ⟨a, rfl, h⟩
  · rintro ⟨a, rfl, h⟩
    exact h

/-- The value of a fallible step, if it gives one. -/
theorem Except.toOption_eq_some {ε α : Type} {step : Except ε α} {a : α} :
  step.toOption = some a ↔ step = .ok a
  := by
  cases step with
  | error e => simp [Except.toOption]
  | ok b => simp [Except.toOption]

end Ember
