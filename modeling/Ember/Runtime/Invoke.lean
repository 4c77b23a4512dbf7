import Ember.Library.Lending
import Ember.Runtime.Reload

/-!
# Invocations of a tenant

`invoke` delivers a request to the active component of a tenant: it loads the active
snapshot, acquires an instance, calls it under the wall-clock budget, and releases it on
success.  Invocations of one tenant run concurrently with each other, with swaps of the
component and with the epoch ticker.

An invocation is a sequence of phases, and every step of the machine takes one invocation to
its next phase; between two steps anything may happen elsewhere.  The mutex of the pool is
held across the instantiation of a new instance, as the guard lives until `acquire` returns.
An invocation can be cancelled wherever the source awaits.
-/

namespace Ember

variable {κ : Type} (C : Crates κ)

/-- How an invocation ends. -/
inductive InvokeOutcome where
  | response (r : HttpResponse)
  | failed (e : Error)
  | cancelled
  | panicked (panic : Panic)

/-- What an invocation carries from `acquire` on: the snapshot it loaded, the request of the
guest, and the epoch in which it entered `acquire`. -/
structure Invocation (κ : Type) where
  active : ActiveComponent κ
  request : Request
  entered : ℕ

/-- The phases of an invocation. -/
inductive Phase (κ : Type) where
  | idle
  /-- The active snapshot is loaded. -/
  | loaded (active : ActiveComponent κ) (request : HttpRequest)
  /-- In `acquire`, waiting for the mutex. -/
  | waiting (inv : Invocation κ) (ctx : HostCtx)
  /-- In `acquire`, holding the mutex: the queue had no instance of the digest. -/
  | building (inv : Invocation κ) (ctx : HostCtx)
  /-- In `acquire`, holding the mutex: the store is armed and the guest is instantiated. -/
  | instantiating (inv : Invocation κ) (p : Prepared κ)
  /-- The guest is running. -/
  | calling (inv : Invocation κ) (p : Prepared κ)
  /-- The guest has answered, and `release` waits for the mutex. -/
  | releasing (inv : Invocation κ) (p : Prepared κ) (resp : Response)
  | finished (outcome : InvokeOutcome)

namespace Phase

/-- The snapshot an invocation works with. -/
def snapshot : Phase κ → Option (ActiveComponent κ)
  | .idle | .finished _ => none
  | .loaded active _ => some active
  | .waiting inv _ | .building inv _ | .instantiating inv _ | .calling inv _
  | .releasing inv _ _ => some inv.active

/-- The context an invocation has built and not yet used. -/
def ctx : Phase κ → Option (Invocation κ × HostCtx)
  | .waiting inv ctx | .building inv ctx => some (inv, ctx)
  | _ => none

/-- An invocation that holds an instance, and the instance. -/
def serving : Phase κ → Option (Invocation κ × Prepared κ)
  | .instantiating inv p | .calling inv p | .releasing inv p _ => some (inv, p)
  | _ => none

/-- The invocation is in the part of `acquire` that holds the mutex of the pool. -/
def locks : Phase κ → Bool
  | .building _ _ | .instantiating _ _ => true
  | _ => false

/-- The instance an invocation holds. -/
def held (phase : Phase κ) : Option (Prepared κ) := phase.serving.map Prod.snd

end Phase

/-- A tenant with its invocations: the epoch of the engine, the invocation that holds the
mutex of the pool, the phase of every invocation, and the metric updates emitted.  The number
of the next instance, the instances dropped by an invocation and the generations that have
been active are kept for the statements about the runs. -/
structure Invocations (κ : Type) where
  tenant : Tenant κ
  epoch : ℕ
  mutex : Option ℕ
  calls : ℕ → Phase κ
  metrics : List MetricUpdate
  nextInstance : ℕ
  retired : List ℕ
  generations : List (ActiveComponent κ)

/-- What the guest call under its timeout comes to. -/
inductive CallResult where
  | response (resp : Response)
  | trapped (e : String)
  | elapsed

/-- The steps of the machine. -/
inductive InvokeAction where
  /-- The engine increments its epoch. -/
  | tick
  /-- The reload loop swaps the component. -/
  | swap (loaded : Loaded) (env : PollEnv)
  /-- Invocation `i` loads the active snapshot. -/
  | load (i : ℕ) (request : HttpRequest)
  /-- Invocation `i` converts the request, builds its context and enters `acquire`. -/
  | enter (i : ℕ) (host : HostDirs)
  /-- Invocation `i` gets the mutex in `acquire` and scans the queue. -/
  | lock (i : ℕ)
  /-- Invocation `i` creates a store and sets its deadline. -/
  | arm (i : ℕ)
  /-- The instantiation of invocation `i` is over. -/
  | instantiated (i : ℕ) (outcome : Except String Unit)
  /-- The guest call of invocation `i` is over. -/
  | answered (i : ℕ) (result : CallResult)
  /-- Invocation `i` gets the mutex in `release`, and returns. -/
  | release (i : ℕ) (elapsed : Duration)
  /-- Invocation `i` is cancelled. -/
  | cancel (i : ℕ)

namespace Invocations

/-- A tenant without invocations. -/
def init (tenant : Tenant κ) : Invocations κ where
  tenant := tenant
  epoch := 0
  mutex := none
  calls _ := .idle
  metrics := []
  nextInstance := 0
  retired := []
  generations := [tenant.active]

/-- Invocation `i` is now in the phase `phase`. -/
def set (s : Invocations κ) (i : ℕ) (phase : Phase κ) : Invocations κ :=
  { s with calls := Function.update s.calls i phase }

/-- The queue of the pool is now `queue`. -/
def setQueue (s : Invocations κ) (queue : List (Prepared κ)) : Invocations κ :=
  { s with tenant := { s.tenant with pool := { s.tenant.pool with queue } } }

/-- The mutex of the pool is now held by `mutex`. -/
def setMutex (s : Invocations κ) (mutex : Option ℕ) : Invocations κ := { s with mutex }

/-- Note that an invocation has dropped an instance. -/
def retire (s : Invocations κ) (p : Prepared κ) : Invocations κ :=
  { s with retired := p.id :: s.retired }

/-- Release an instance into the pool; it is dropped when there is no room. -/
def release (s : Invocations κ) (p : Prepared κ) : Invocations κ :=
  { s with
    tenant := { s.tenant with pool := s.tenant.pool.release p }
    retired :=
      if s.tenant.pool.queue.length < s.tenant.pool.cap then s.retired else p.id :: s.retired }

/-- Record an invocation that was answered. -/
def record (s : Invocations κ) (inv : Invocation κ) (elapsed : Duration) (status : ℕ) :
    Invocations κ :=
  { s with
    tenant := { s.tenant with invocations := s.tenant.invocations + 1 }
    metrics := s.metrics ++ Telemetry.recordInvoke inv.active.digest elapsed status }

/-- The instance an invocation builds when it found none. -/
def fresh (s : Invocations κ) (inv : Invocation κ) (ctx : HostCtx) : Prepared κ where
  id := s.nextInstance
  digest := inv.active.loaded.digest
  store := Store.new ctx s.epoch
  guest := inv.active.compiled

/-- The error of an invocation that exceeded its wall-clock budget. -/
def elapsedError (s : Invocations κ) : Error :=
  let name := s.tenant.id.name
  let budget := s.tenant.sandbox.limits.maxWallDuration / 1000000
  .limitExceeded s!"tenant `{name}` exceeded its {budget}ms wall-clock budget"

/-- One step. -/
def step (s : Invocations κ) : InvokeAction → Option (Invocations κ)
  | .tick => some { s with epoch := s.epoch + 1 }
  | .swap loaded env =>
      match s.tenant.swap C loaded env with
      | .error _ => some s
      | .ok (tenant, events) =>
          some
            { s with
              tenant
              metrics := s.metrics ++ events
              generations := tenant.active :: s.generations }
  | .load i request =>
      match s.calls i with
      | .idle => some (s.set i (.loaded s.tenant.active request))
      | _ => none
  | .enter i host =>
      match s.calls i with
      | .loaded active request =>
          match Request.tryFrom request with
          | .error e => some (s.set i (.finished (.failed e)))
          | .ok request =>
              match HostCtx.new host s.tenant.sandbox s.tenant.bridge with
              | .error e => some (s.set i (.finished (.failed e)))
              | .ok ctx => some (s.set i (.waiting { active, request, entered := s.epoch } ctx))
      | _ => none
  | .lock i =>
      match s.calls i, s.mutex with
      | .waiting inv ctx, none =>
          match InstancePool.scan inv.active.loaded.digest s.tenant.pool.queue with
          | (some p, queue) => some ((s.setQueue queue).set i (.calling inv p))
          | (none, queue) =>
              some (((s.setQueue queue).setMutex (some i)).set i (.building inv ctx))
      | _, _ => none
  | .arm i =>
      match s.calls i with
      | .building inv ctx =>
          some
            ({ s with nextInstance := s.nextInstance + 1 }.set i
              (.instantiating inv (s.fresh inv ctx)))
      | _ => none
  | .instantiated i outcome =>
      match s.calls i with
      | .instantiating inv p =>
          match outcome with
          | .ok () => some ((s.setMutex none).set i (.calling inv p))
          | .error e => some (((s.setMutex none).retire p).set i (.finished (.failed (.wasm e))))
      | _ => none
  | .answered i result =>
      match s.calls i with
      | .calling inv p =>
          match result with
          | .response resp => some (s.set i (.releasing inv p resp))
          | .trapped e => some ((s.retire p).set i (.finished (.failed (.wasm e))))
          | .elapsed => some ((s.retire p).set i (.finished (.failed s.elapsedError)))
      | _ => none
  | .release i elapsed =>
      match s.calls i, s.mutex with
      | .releasing inv p resp, none =>
          match resp.toHttp with
          | .error panic => some ((s.release p).set i (.finished (.panicked panic)))
          | .ok r =>
              some (((s.release p).record inv elapsed r.status).set i (.finished (.response r)))
      | _, _ => none
  | .cancel i =>
      match s.calls i with
      | .waiting _ _ => some (s.set i (.finished .cancelled))
      | .instantiating _ p =>
          some (((s.setMutex none).retire p).set i (.finished .cancelled))
      | .calling _ p => some ((s.retire p).set i (.finished .cancelled))
      | .releasing _ p _ => some ((s.retire p).set i (.finished .cancelled))
      | _ => none

end Invocations

/-- The invocations of one tenant, interleaved with swaps and with the ticks of the engine. -/
def invokeMachine : Machine (Invocations κ) InvokeAction where
  step := Invocations.step C

end Ember
