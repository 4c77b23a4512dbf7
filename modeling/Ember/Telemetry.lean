import Ember.Error

/-!
# Metrics

The metric updates the runtime emits.  An update names the metric and carries its labels, as
the macros of the `metrics` crate do.
-/

namespace Ember

/-- The labels of a metric. -/
abbrev Labels := List (String × String)

/-- An update of a metric. -/
inductive MetricUpdate where
  | histogram (name : String) (value : ℕ) (labels : Labels)
  | counter (name : String) (increment : ℕ) (labels : Labels)
  | gauge (name : String) (value : ℕ) (labels : Labels)
  deriving DecidableEq, Repr

namespace Telemetry

/-- Record the outcome of an invocation. -/
def recordInvoke (digest : String) (duration : Duration) (status : ℕ) : List MetricUpdate :=
  [.histogram "ember.invoke.duration_us" (duration / 1000) [("digest", digest)],
    .counter "ember.invoke.total" 1 [("digest", digest), ("status", toString status)]]
    ++ (if status ≥ 500 then [.counter "ember.invoke.errors" 1 [("digest", digest)]] else [])

/-- Record that a tenant was parked. -/
def recordParked (tenant : String) (failures : ℕ) : List MetricUpdate :=
  [.counter "ember.reload.parked" 1 [("tenant", tenant), ("failures", toString failures)]]

/-- Record that a tenant switched to a component digest. -/
def recordReload (tenant : String) («from» : Option String) («to» : String) : List MetricUpdate :=
  [.counter "ember.reload.total" 1
      [("tenant", tenant), ("from", «from».getD "none"), ("to", «to»)],
    .gauge "ember.tenant.active_digests" 1 [("tenant", tenant), ("digest", «to»)]]

end Telemetry

end Ember
