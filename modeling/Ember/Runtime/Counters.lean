import Ember.Library.Census
import Ember.Library.Tally
import Ember.Runtime.Server

/-!
# The counters of invocations

`invoke` records an invocation in one place, on the way of a successful return.  A guest call that
traps, times out or is cancelled, and one whose response cannot be converted, leaves before.  So
the counters of a server agree with the guest calls of a run exactly when no call of the run ends
in one of these ways (`invoke_counters_iff`).
-/

namespace Ember

variable {κ : Type} (C : Crates κ)

/-- What happens to a guest call. -/
inductive CallEvent where
  | started
  /-- The invocation returns a response. -/
  | returned (status : ℕ)
  | trapped
  | timedOut
  | cancelled
  | panicked
  deriving DecidableEq, Repr

namespace CallEvent

/-- A guest call is started. -/
def starts : CallEvent → Bool
  | .started => true
  | _ => false

/-- The invocation failed inside the component or the sandbox. -/
def fails : CallEvent → Bool
  | .trapped | .timedOut => true
  | .returned status => status ≥ 500
  | _ => false

/-- The guest call is over, and the invocation returns no response. -/
def aborts : CallEvent → Bool
  | .trapped | .timedOut | .cancelled | .panicked => true
  | _ => false

end CallEvent

/-- The sum of the increments of a counter, over all labels. -/
def counter (name : String) (updates : List MetricUpdate) : ℕ :=
  (updates.map fun
    | .counter name' increment _ => if name' = name then increment else 0
    | _ => 0).sum

/-- The guest call of the invocation is started and not over. -/
def Phase.inFlight : Phase κ → Bool
  | .calling _ _ | .releasing _ _ _ => true
  | _ => false

/-- The number of guest calls in flight. -/
noncomputable def Invocations.inFlight (s : Invocations κ) : ℕ∞ :=
  census (fun phase : Phase κ => phase.inFlight = true) s.calls

/-- The guest calls in flight and the recorded ones. -/
noncomputable def Invocations.accounted (s : Invocations κ) : ℕ∞ :=
  s.inFlight + (counter "ember.invoke.total" s.metrics : ℕ∞)

/-- What happens to the guest calls of a tenant in a step of its invocations. -/
def Invocations.callEvents (s : Invocations κ) : InvokeAction → List CallEvent
  | .lock i =>
      match s.calls i with
      | .waiting inv _ =>
          match InstancePool.scan inv.active.loaded.digest s.tenant.pool.queue with
          | (some _, _) => [.started]
          | (none, _) => []
      | _ => []
  | .instantiated _ (.ok ()) => [.started]
  | .answered _ (.trapped _) => [.trapped]
  | .answered _ .elapsed => [.timedOut]
  | .release i _ =>
      match s.calls i with
      | .releasing _ _ resp =>
          match resp.toHttp with
          | .error _ => [.panicked]
          | .ok r => [.returned r.status]
      | _ => []
  | .cancel i => if (s.calls i).inFlight then [.cancelled] else []
  | _ => []

namespace Server

/-- What happens to the guest calls in a step of the server. -/
def callEvents (s : Server κ) : ServerAction → List CallEvent
  | .invoke r a =>
      match s.objects[r]? with
      | some o => o.calls.callEvents a
      | none => []
  | _ => []

/-- A counter of the server. -/
def counter (s : Server κ) (name : String) : ℕ :=
  (s.objects.map fun o => Ember.counter name o.calls.metrics).sum

end Server

/-! ### One step of the invocations -/

theorem counter_append (name : String) (us vs : List MetricUpdate) :
  counter name (us ++ vs) = counter name us + counter name vs
  := by
  rw [counter, List.map_append, List.sum_append]
  rfl

/-- What an invocation that returns adds to the counters. -/
theorem counter_recordInvoke (digest : String) (elapsed : Duration) (status : ℕ) :
  counter "ember.invoke.total" (Telemetry.recordInvoke digest elapsed status) = 1
    ∧ counter "ember.invoke.errors" (Telemetry.recordInvoke digest elapsed status)
      = if status ≥ 500 then 1 else 0
  := by
  by_cases hstatus : status ≥ 500
  · simp [Telemetry.recordInvoke, counter, hstatus]
  · simp [Telemetry.recordInvoke, counter, hstatus]

namespace Invocations

/-- What a step does to the guest calls in flight and to the metrics, with its events. -/
inductive CallStepped (s : Invocations κ) : Invocations κ → List CallEvent → Prop
  | quiet {t : Invocations κ}
      (hcalls : t.inFlight = s.inFlight)
      (hmetrics : t.metrics = s.metrics) : CallStepped s t []
  | started {t : Invocations κ} {i : ℕ} {phase : Phase κ} (hold : ¬(s.calls i).inFlight = true)
      (hnew : phase.inFlight = true) (hcalls : t.calls = Function.update s.calls i phase)
      (hmetrics : t.metrics = s.metrics) : CallStepped s t [.started]
  | aborted {t : Invocations κ} {i : ℕ} {outcome : InvokeOutcome} {e : CallEvent}
      (he : e.aborts = true) (hold : (s.calls i).inFlight = true)
      (hcalls : t.calls = Function.update s.calls i (.finished outcome))
      (hmetrics : t.metrics = s.metrics) : CallStepped s t [e]
  | returned {t : Invocations κ} {i : ℕ} {outcome : InvokeOutcome} {digest : String}
      {elapsed : Duration} {status : ℕ} (hold : (s.calls i).inFlight = true)
      (hcalls : t.calls = Function.update s.calls i (.finished outcome))
      (hmetrics : t.metrics = s.metrics ++ Telemetry.recordInvoke digest elapsed status) :
      CallStepped s t [.returned status]

/-- Every step of an invocation does one of these. -/
theorem callStepped {s t : Invocations κ} {a : InvokeAction} (ha : a.isInvocation = true)
    (h : s.step C a = some t) :
  s.CallStepped t (s.callEvents a)
  := by
  -- a step that moves an invocation without starting or ending its guest call
  have hmoved : ∀ {t : Invocations κ} {i : ℕ} {old new : Phase κ}, s.calls i = old →
      t.calls = Function.update s.calls i new → old.inFlight = new.inFlight →
      t.metrics = s.metrics → s.CallStepped t [] := by
    intro t i old new hold hcalls hflight hmetrics
    apply CallStepped.quiet _ hmetrics
    rw [inFlight, hcalls]
    apply census_update_same
    rw [hold, hflight]
  cases a with
  | tick => cases ha
  | swap loaded env => cases ha
  | load i request =>
      rw [step] at h
      split at h
      next hcall =>
        obtain rfl := Option.some.inj h
        exact hmoved hcall rfl rfl rfl
      · cases h
  | enter i host =>
      rw [step] at h
      split at h
      next active raw hcall =>
        split at h
        · obtain rfl := Option.some.inj h
          exact hmoved hcall rfl rfl rfl
        · split at h
          · obtain rfl := Option.some.inj h
            exact hmoved hcall rfl rfl rfl
          · obtain rfl := Option.some.inj h
            exact hmoved hcall rfl rfl rfl
      · cases h
  | lock i =>
      rw [step] at h
      split at h
      next inv ctx hcall hmutex =>
        split at h
        next p queue hscan =>
          obtain rfl := Option.some.inj h
          simp only [callEvents, hcall, hscan]
          have hold : ¬(s.calls i).inFlight = true := by simp [hcall, Phase.inFlight]
          exact .started hold rfl rfl rfl
        next queue hscan =>
          obtain rfl := Option.some.inj h
          simp only [callEvents, hcall, hscan]
          exact hmoved hcall rfl rfl rfl
      · cases h
  | arm i =>
      rw [step] at h
      split at h
      next inv ctx hcall =>
        obtain rfl := Option.some.inj h
        exact hmoved hcall rfl rfl rfl
      · cases h
  | instantiated i outcome =>
      rw [step] at h
      split at h
      next inv p hcall =>
        split at h
        · obtain rfl := Option.some.inj h
          have hold : ¬(s.calls i).inFlight = true := by simp [hcall, Phase.inFlight]
          exact .started hold rfl rfl rfl
        · obtain rfl := Option.some.inj h
          exact hmoved hcall rfl rfl rfl
      · cases h
  | answered i result =>
      rw [step] at h
      split at h
      next inv p hcall =>
        have hold : (s.calls i).inFlight = true := congrArg Phase.inFlight hcall
        split at h
        · obtain rfl := Option.some.inj h
          exact hmoved hcall rfl rfl rfl
        · obtain rfl := Option.some.inj h
          exact .aborted rfl hold rfl rfl
        · obtain rfl := Option.some.inj h
          exact .aborted rfl hold rfl rfl
      · cases h
  | release i elapsed =>
      rw [step] at h
      split at h
      next inv p resp hcall hmutex =>
        have hold : (s.calls i).inFlight = true := congrArg Phase.inFlight hcall
        split at h
        next panic hresp =>
          obtain rfl := Option.some.inj h
          simp only [callEvents, hcall, hresp]
          exact .aborted rfl hold rfl rfl
        next r hresp =>
          obtain rfl := Option.some.inj h
          simp only [callEvents, hcall, hresp]
          exact .returned hold rfl rfl
      · cases h
  | cancel i =>
      rw [step] at h
      split at h
      next inv ctx hcall =>
        obtain rfl := Option.some.inj h
        simp only [callEvents, hcall, Phase.inFlight, Bool.false_eq_true, if_false]
        exact hmoved hcall rfl rfl rfl
      next inv p hcall =>
        obtain rfl := Option.some.inj h
        simp only [callEvents, hcall, Phase.inFlight, Bool.false_eq_true, if_false]
        exact hmoved hcall rfl rfl rfl
      next inv p hcall =>
        obtain rfl := Option.some.inj h
        simp only [callEvents, hcall, Phase.inFlight, if_true]
        exact .aborted rfl (congrArg Phase.inFlight hcall) rfl rfl
      next inv p resp hcall =>
        obtain rfl := Option.some.inj h
        simp only [callEvents, hcall, Phase.inFlight, if_true]
        exact .aborted rfl (congrArg Phase.inFlight hcall) rfl rfl
      · cases h

/-- The recorded guest calls, those in flight and those that were aborted make up the calls that
were started. -/
theorem CallStepped.total {s t : Invocations κ} {events : List CallEvent}
    (h : s.CallStepped t events) :
  t.accounted + (events.countP CallEvent.aborts : ℕ∞)
    = s.accounted + (events.countP CallEvent.starts : ℕ∞)
  := by
  rw [accounted, accounted]
  have hended : ∀ {i : ℕ} {outcome : InvokeOutcome}, (s.calls i).inFlight = true →
      t.calls = Function.update s.calls i (.finished outcome) → t.inFlight + 1 = s.inFlight := by
    intro i outcome hold hcalls
    rw [inFlight, hcalls]
    apply census_update_sub (P := fun phase : Phase κ => phase.inFlight = true) hold
    simp [Phase.inFlight]
  cases h with
  | quiet hcalls hmetrics =>
      rw [hcalls, hmetrics]
      simp
  | started hold hnew hcalls hmetrics =>
      have hbegun : t.inFlight = s.inFlight + 1 := by
        rw [inFlight, hcalls]
        apply census_update_add (P := fun phase : Phase κ => phase.inFlight = true) hold hnew
      rw [hbegun, hmetrics]
      simp [CallEvent.aborts, CallEvent.starts, add_right_comm]
  | @aborted i outcome e he hold hcalls hmetrics =>
      have hstarts : e.starts = false := by
        cases e with
        | started => cases he
        | _ => rfl
      rw [← hended hold hcalls, hmetrics]
      simp [he, hstarts, add_right_comm]
  | returned hold hcalls hmetrics =>
      rw [← hended hold hcalls, hmetrics, counter_append, (counter_recordInvoke _ _ _).1]
      simp [CallEvent.aborts, CallEvent.starts, add_assoc, add_comm]

/-- The recorded failures and the traps and timeouts make up the failures. -/
theorem CallStepped.errors {s t : Invocations κ} {events : List CallEvent}
    (h : s.CallStepped t events) :
  Ember.counter "ember.invoke.errors" t.metrics
      + events.countP (fun e => e.fails && e.aborts)
    = Ember.counter "ember.invoke.errors" s.metrics + events.countP CallEvent.fails
  := by
  cases h with
  | quiet hcalls hmetrics => rw [hmetrics]; simp
  | started hold hnew hcalls hmetrics =>
      rw [hmetrics]
      simp [CallEvent.fails]
  | aborted he hold hcalls hmetrics =>
      rw [hmetrics]
      simp [he]
  | @returned i outcome digest elapsed status hold hcalls hmetrics =>
      rw [hmetrics, counter_append, (counter_recordInvoke digest elapsed status).2]
      by_cases hstatus : status ≥ 500
      · simp [CallEvent.fails, CallEvent.aborts, hstatus]
      · simp [CallEvent.fails, CallEvent.aborts, hstatus]

end Invocations

/-! ### One step of the server -/

/-- The counters of invocations. -/
def IsInvokeCounter (name : String) : Prop :=
  name = "ember.invoke.total" ∨ name = "ember.invoke.errors"

/-- A visit of the reload loop leaves the counters of invocations alone. -/
theorem Tenant.counter_poll {name : String} (hname : IsInvokeCounter name)
    (registry : OciClientConfig) (policy : HotReloadPolicy) (now : Instant) (env : PollEnv)
    (t : Tenant κ) :
  counter name (t.poll C registry policy now env).events = 0
  := by
  have h := t.polled C registry policy now env
  generalize t.poll C registry policy now env = r at h
  cases h with
  | swapped _ _ _ _ =>
      rcases hname with rfl | rfl
      · simp [Telemetry.recordReload, counter]
      · simp [Telemetry.recordReload, counter]
  | failed _ =>
      split
      · rcases hname with rfl | rfl
        · simp [Telemetry.recordParked, counter]
        · simp [Telemetry.recordParked, counter]
      · rfl
  | _ => rfl

namespace Server

/-- A quantity of the tenants that no load, visit or tick changes: a step changes its sum only by
the invocation it is a step of. -/
theorem sum_objects {A : Type} [AddCommMonoid A] {f : Invocations κ → A} {s t : Server κ}
    {a : ServerAction} {x y : List CallEvent → A} (hx : x [] = 0) (hy : y [] = 0)
    (hload : ∀ tenant, f (Served.init tenant).calls = 0)
    (hpoll : ∀ now env o, f (Served.poll C s.registry s.policy now env o).1.calls = f o.calls)
    (htick : ∀ o : Served κ, f o.tick.calls = f o.calls)
    (hinvoke : ∀ (c c' : Invocations κ) b, b.isInvocation = true → c.step C b = some c' →
      f c' + x (c.callEvents b) = f c + y (c.callEvents b))
    (h : s.step C a = some t) :
  (t.objects.map fun o => f o.calls).sum + x (s.callEvents a)
    = (s.objects.map fun o => f o.calls).sum + y (s.callEvents a)
  := by
  have hquiet : (t.objects.map fun o => f o.calls).sum = (s.objects.map fun o => f o.calls).sum →
      (t.objects.map fun o => f o.calls).sum + x []
        = (s.objects.map fun o => f o.calls).sum + y [] := by
    intro hsum
    rw [hx, hy, hsum]
  cases a with
  | load env cfg =>
      apply hquiet
      rw [step] at h
      split at h
      · obtain rfl := Option.some.inj h
        rw [loadTenant]
        split
        · rfl
        next tenant hactivate => simp [hload]
      · cases h
  | begin now =>
      apply hquiet
      rw [step] at h
      split at h
      · obtain ⟨-, h⟩ := Option.ite_none_right_eq_some.mp h
        rw [← Option.some.inj h]
      · cases h
  | snapshot order =>
      apply hquiet
      rw [step] at h
      split at h
      · obtain ⟨-, h⟩ := Option.ite_none_right_eq_some.mp h
        rw [← Option.some.inj h]
      · cases h
  | finish =>
      apply hquiet
      rw [step] at h
      split at h
      · rw [← Option.some.inj h]
      · cases h
  | tick =>
      apply hquiet
      rw [← Option.some.inj h]
      simp [Function.comp_def, htick]
  | poll env =>
      apply hquiet
      rw [step] at h
      split at h
      next now r rest hpass =>
        split at h
        · cases h
        next o ho =>
          obtain ⟨-, h⟩ := Option.ite_none_right_eq_some.mp h
          rw [← Option.some.inj h]
          have hset := List.sum_map_set (f := fun o : Served κ => f o.calls) (a := 0) (b := 0) ho
            (congrArg (· + 0) (hpoll now env o))
          simpa using hset
      · cases h
  | invoke r b =>
      rw [step] at h
      obtain ⟨hb, h⟩ := Option.ite_none_right_eq_some.mp h
      rw [callEvents]
      split at h
      · cases h
      next o ho =>
        obtain ⟨calls, hstep, rfl⟩ := Option.map_eq_some_iff.mp h
        rw [ho]
        apply List.sum_map_set ho (hinvoke o.calls calls b hb hstep)

/-- The guest calls in flight and the recorded ones of all tenants. -/
noncomputable def accounted (s : Server κ) : ℕ∞ :=
  (s.objects.map fun o => o.calls.accounted).sum

/-- A visit of the reload loop starts and ends no guest call. -/
theorem inFlight_poll (registry : OciClientConfig) (policy : HotReloadPolicy) (now : Instant)
    (env : PollEnv) (o : Served κ) :
  (Served.poll C registry policy now env o).1.calls.inFlight = o.calls.inFlight
  := rfl

/-- A visit of the reload loop leaves the counters of invocations alone. -/
theorem counter_poll {name : String} (hname : IsInvokeCounter name)
    (registry : OciClientConfig) (policy : HotReloadPolicy) (now : Instant) (env : PollEnv)
    (o : Served κ) :
  Ember.counter name (Served.poll C registry policy now env o).1.calls.metrics
    = Ember.counter name o.calls.metrics
  := by
  rw [Served.poll, counter_append, Tenant.counter_poll C hname, add_zero]

/-- A tenant that was just loaded has no calls, and nothing in the counters of invocations. -/
theorem counter_init {name : String} (hname : IsInvokeCounter name) (tenant : Tenant κ) :
  (Served.init tenant).calls.inFlight = 0
    ∧ Ember.counter name (Served.init tenant).calls.metrics = 0
  := by
  constructor
  · apply census_eq_zero
    intro i
    simp [Served.init, Invocations.init, Phase.inFlight]
  · rcases hname with rfl | rfl
    · simp [Served.init, Telemetry.recordReload, Ember.counter]
    · simp [Served.init, Telemetry.recordReload, Ember.counter]

/-- A step adds to the accounted calls those it starts, and takes away those it aborts. -/
theorem accounted_step {s t : Server κ} {a : ServerAction} (h : s.step C a = some t) :
  t.accounted + ((s.callEvents a).countP CallEvent.aborts : ℕ∞)
    = s.accounted + ((s.callEvents a).countP CallEvent.starts : ℕ∞)
  := by
  have hname : IsInvokeCounter "ember.invoke.total" := .inl rfl
  apply sum_objects C (f := Invocations.accounted)
    (x := fun events => (events.countP CallEvent.aborts : ℕ∞))
    (y := fun events => (events.countP CallEvent.starts : ℕ∞)) _ _ _ _ _ _ h
  · rfl
  · rfl
  · intro tenant
    obtain ⟨hflight, hcounter⟩ := counter_init hname tenant
    rw [Invocations.accounted, hflight, hcounter]
    simp
  · intro now env o
    rw [Invocations.accounted, Invocations.accounted, inFlight_poll, counter_poll C hname]
  · intro o
    rfl
  · intro c c' b hb hstep
    apply (Invocations.callStepped C hb hstep).total

/-- A step adds to the recorded failures those of its events that are not aborted calls. -/
theorem errors_step {s t : Server κ} {a : ServerAction} (h : s.step C a = some t) :
  t.counter "ember.invoke.errors"
      + (s.callEvents a).countP (fun e => e.fails && e.aborts)
    = s.counter "ember.invoke.errors" + (s.callEvents a).countP CallEvent.fails
  := by
  have hname : IsInvokeCounter "ember.invoke.errors" := .inr rfl
  apply sum_objects C (f := fun c => Ember.counter "ember.invoke.errors" c.metrics)
    (x := fun events => events.countP fun e => e.fails && e.aborts)
    (y := fun events => events.countP CallEvent.fails) _ _ _ _ _ _ h
  · rfl
  · rfl
  · intro tenant
    apply (counter_init hname tenant).2
  · intro now env o
    rw [counter_poll C hname]
  · intro o
    rfl
  · intro c c' b hb hstep
    apply (Invocations.callStepped C hb hstep).errors

end Server

/-! ### Runs -/

/-- A run of the server from the start, whatever is loaded, polled and invoked, and however the
invocations are interleaved.  When no guest call is in flight any more, the counter of invocations
is the number of guest calls that were started, and the counter of errors is the number of
invocations that failed inside the component or the sandbox, exactly when every guest call was
returned: none was trapped, timed out, cancelled, or answered with a response whose conversion
panics. -/
theorem invoke_counters_iff {registry : OciClientConfig} {policy : HotReloadPolicy}
    {actions : List ServerAction} {s : Server κ}
    (hrun : (serverMachine C).run (Server.new registry policy) actions = some s)
    (hover : ∀ o ∈ s.objects, ∀ i, (o.calls.calls i).inFlight = false) :
  let trace := (serverMachine C).trace Server.callEvents (Server.new registry policy) actions
  (s.counter "ember.invoke.total" = trace.countP CallEvent.starts
      ∧ s.counter "ember.invoke.errors" = trace.countP CallEvent.fails)
    ↔ (serverMachine C).Meets (fun s a => ∀ e ∈ s.callEvents a, e.aborts = false)
        (Server.new registry policy) actions
  := by
  intro trace
  -- what the counters miss are the aborted calls
  have htotal : s.counter "ember.invoke.total" + trace.countP CallEvent.aborts
      = trace.countP CallEvent.starts := by
    have hbalance := (serverMachine C).trace_balance Server.callEvents
      (fun _ _ _ => Server.accounted_step C) hrun
    have hend : s.accounted = (s.counter "ember.invoke.total" : ℕ∞) := by
      rw [Server.accounted, Server.counter, Nat.cast_list_sum, List.map_map]
      congr 1
      apply List.map_congr_left
      intro o ho
      have hflight : o.calls.inFlight = 0 := by
        apply census_eq_zero
        intro i
        rw [hover o ho i]
        apply Bool.false_ne_true
      rw [Invocations.accounted, hflight, zero_add]
      rfl
    have hstart : (Server.new registry policy : Server κ).accounted = 0 := rfl
    rw [hend, hstart, zero_add] at hbalance
    exact_mod_cast hbalance
  have herrors : s.counter "ember.invoke.errors" + trace.countP (fun e => e.fails && e.aborts)
      = trace.countP CallEvent.fails := by
    have hbalance := (serverMachine C).trace_balance (A := ℕ) Server.callEvents
      (fun _ _ _ => Server.errors_step C) hrun
    have hstart : (Server.new registry policy : Server κ).counter "ember.invoke.errors" = 0 := rfl
    rw [hstart, zero_add] at hbalance
    apply hbalance
  rw [← (serverMachine C).forall_mem_trace]
  constructor
  · rintro ⟨heq, -⟩ e he
    have hnone : trace.countP CallEvent.aborts = 0 := by omega
    rw [List.countP_eq_zero] at hnone
    apply Bool.eq_false_iff.mpr (hnone e he)
  · intro hnone
    have haborts : trace.countP CallEvent.aborts = 0 := by
      rw [List.countP_eq_zero]
      intro e he
      rw [hnone e he]
      apply Bool.false_ne_true
    have hboth : trace.countP (fun e => e.fails && e.aborts) = 0 := by
      rw [List.countP_eq_zero]
      intro e he
      rw [hnone e he, Bool.and_false]
      apply Bool.false_ne_true
    omega

/-! ### A sample server -/

/-- The server once the tenant `echo` is loaded from its file. -/
def echoServer : Server Bytes where
  registry := {}
  policy := {}
  tenants := (∅ : AList fun _ : TenantId => ℕ).insert echoId 0
  objects := [Served.init sampleTenant]
  pass := .idle
  clock := fileLoadEnv.lastSwap

theorem step_loadEcho :
  (serverMachine sampleCrates).step (Server.new {} {}) (.load fileLoadEnv fileConfig)
    = some echoServer
  := by
  have hload : (Server.new {} {} : Server Bytes).loadTenant sampleCrates fileLoadEnv fileConfig
      = (echoServer, .ok ()) := by
    rw [Server.loadTenant]
    rw [show Tenant.activate sampleCrates (Server.new {} {} : Server Bytes).registry fileLoadEnv
      fileConfig = .ok sampleTenant from activate_sampleTenant]
    rfl
  simp only [serverMachine, Server.step, hload]
  rfl

/-- The tenant `echo` is loaded, and its guest is called once and then takes the steps `last`. -/
def calledRun (last : List InvokeAction) : List ServerAction :=
  let first : List InvokeAction :=
    [.load 0 sampleInbound, .enter 0 sampleHost, .lock 0, .arm 0, .instantiated 0 (.ok ())]
  .load fileLoadEnv fileConfig :: (first ++ last).map (ServerAction.invoke 0)

/-- A call that is answered with the status 200 is counted. -/
theorem invoke_counters_answered :
  ∃ s, (serverMachine sampleCrates).run (Server.new {} {})
      (calledRun [.answered 0 (.response { status := 200, headers := [], body := [] }),
        .release 0 0]) = some s
    ∧ s.counter "ember.invoke.total" = 1
  := by
  have hrun : ∃ s, (serverMachine sampleCrates).run (Server.new {} {})
      (calledRun [.answered 0 (.response { status := 200, headers := [], body := [] }),
        .release 0 0]) = some s
      ∧ ∀ o ∈ s.objects, ∀ i, (o.calls.calls i).inFlight = false := by
    refine ⟨_, (Machine.run_cons _).mpr ⟨echoServer, step_loadEcho, rfl⟩, ?_⟩
    intro o ho i
    obtain rfl := List.mem_singleton.mp ho
    cases i with
    | zero => rfl
    | succ i => rfl
  obtain ⟨s, hs, hover⟩ := hrun
  use s, hs
  have hreturned := (invoke_counters_iff sampleCrates hs hover).mpr
    ((Machine.forall_mem_trace _ _).mp (by decide +kernel))
  rw [hreturned.1]
  decide +kernel

/-- The guest of `echo` is called and traps: neither counter moves. -/
theorem invoke_counters_trapped :
  ∃ s, (serverMachine sampleCrates).run (Server.new {} {})
      (calledRun [.answered 0 (.trapped "unreachable")]) = some s
    ∧ (∀ o ∈ s.objects, ∀ i, (o.calls.calls i).inFlight = false)
    ∧ ((serverMachine sampleCrates).trace Server.callEvents (Server.new {} {})
        (calledRun [.answered 0 (.trapped "unreachable")])) = [.started, .trapped]
    ∧ s.counter "ember.invoke.total" = 0
    ∧ s.counter "ember.invoke.errors" = 0
  := by
  refine ⟨_, (Machine.run_cons _).mpr ⟨echoServer, step_loadEcho, rfl⟩, ?_, ?_, rfl, rfl⟩
  · intro o ho i
    obtain rfl := List.mem_singleton.mp ho
    cases i with
    | zero => rfl
    | succ i => rfl
  · decide +kernel

end Ember
