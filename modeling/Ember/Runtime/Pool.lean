import Ember.Component.Linker

/-!
# Instance pools

A tenant keeps a bounded queue of prepared instances.  `InstancePool.scan` is the loop of
`acquire` that looks for an instance of the wanted digest, and `InstancePool.release` returns
an instance to the queue.

Instances are numbered in the order they are created.  The number stands for the identity a
value has in the source by being moved and never copied.
-/

namespace Ember

/-- A `wasmtime` store: the context of the guest, the epoch in which the deadline was set, and
the deadline. -/
structure Store where
  data : HostCtx
  armedAt : ℕ
  epochDeadline : ℕ

/-- Arm a new store in the epoch `epoch`: `set_epoch_deadline` counts from the current epoch. -/
def Store.new (data : HostCtx) (epoch : ℕ) : Store where
  data := data
  armedAt := epoch
  epochDeadline := epoch + max data.sandbox.limits.maxEpochDelta 1

/-- A prepared instance.  The guest is bound to the compiled component it was instantiated
from. -/
structure Prepared (κ : Type) where
  id : ℕ
  digest : String
  store : Store
  guest : κ

/-- The pool of prepared instances of a tenant. -/
structure InstancePool (κ : Type) where
  queue : List (Prepared κ)
  cap : ℕ

namespace InstancePool

variable {κ : Type}

/-- An empty pool for at most `cap` instances. -/
def new (cap : ℕ) : InstancePool κ := { queue := [], cap := max cap 1 }

/-- The loop of `acquire`: pop instances off the front until one has the digest.  Those of
another digest are dropped. -/
def scan (digest : String) : List (Prepared κ) → Option (Prepared κ) × List (Prepared κ)
  | [] => (none, [])
  | p :: queue => if p.digest = digest then (some p, queue) else scan digest queue

/-- Return a used instance to the queue if there is room. -/
def release (pool : InstancePool κ) (p : Prepared κ) : InstancePool κ :=
  if pool.queue.length < pool.cap then { pool with queue := pool.queue ++ [p] } else pool

/-- The scan finds an instance of the wanted digest, and leaves what follows it. -/
theorem scan_some {digest : String} {queue rest : List (Prepared κ)} {p : Prepared κ}
    (h : scan digest queue = (some p, rest)) :
  p.digest = digest ∧ (p :: rest) <:+ queue
  := by
  induction queue with
  | nil => simp [scan] at h
  | cons q queue ih =>
      rw [scan] at h
      split at h
      next hdigest =>
        obtain ⟨hp, rfl⟩ := Prod.mk.inj h
        obtain rfl := Option.some.inj hp
        exact ⟨hdigest, List.suffix_rfl⟩
      · obtain ⟨hdigest, hsuffix⟩ := ih h
        exact ⟨hdigest, hsuffix.trans (List.suffix_cons q queue)⟩

/-- A scan that finds nothing empties the queue. -/
theorem scan_none {digest : String} {queue rest : List (Prepared κ)}
    (h : scan digest queue = (none, rest)) :
  rest = []
  := by
  induction queue with
  | nil => exact (Prod.mk.inj h).2.symm
  | cons q queue ih =>
      rw [scan] at h
      split at h
      · simp at h
      · apply ih h

/-- A release appends the instance or leaves the queue as it is. -/
theorem release_queue (pool : InstancePool κ) (p : Prepared κ) :
  (pool.release p).cap = pool.cap
    ∧ ((pool.queue.length < pool.cap ∧ (pool.release p).queue = pool.queue ++ [p])
        ∨ (pool.release p).queue = pool.queue)
  := by
  rw [release]
  split
  next h => exact ⟨rfl, .inl ⟨h, rfl⟩⟩
  · exact ⟨rfl, .inr rfl⟩

end InstancePool

end Ember
