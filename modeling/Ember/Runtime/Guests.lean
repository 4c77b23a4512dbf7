import Ember.Component.Scratch
import Ember.Library.Service
import Ember.Runtime.Boundary
import Ember.Runtime.Objects

/-!
# Guests and the host

While a guest runs it calls the host: for the id and the configuration of its tenant, and on
the scratch filesystem that all instances of the tenant share.  We interleave these calls with
the steps of the server.

The host answers out of the context stored with the instance and the scratch filesystem it
refers to.  Every context of a tenant is built from the sandbox of the tenant, which no reload
replaces.  So what the guests of a tenant are told is what the sandbox alone would answer to
their calls (`Hosted.Explained`): it does not depend on the other tenants, on the reloads, on
which instance serves which invocation, or on when anything else happens (`guests_isolated`).
-/

namespace Ember

/-- The calls of a guest on the host. -/
inductive HostCall where
  | tenantId
  | getConfig (key : String)
  | scratchWrite (path : String) (data : Bytes)
  | scratchRead (path : String)
  | scratchBytes
  deriving DecidableEq

/-- What the host replies. -/
inductive HostReply where
  | tenantId (id : String)
  | config (value : Option String)
  | wrote (outcome : Except ScratchError Unit)
  | content (data : Option Bytes)
  | bytes (n : ℕ)
  deriving DecidableEq

/-- A call of a guest with the reply of the host. -/
abbrev HostEvent := Service.Event HostCall HostReply

/-- Answer a call out of a context and the scratch filesystem of its tenant. -/
def HostCtx.call (ctx : HostCtx) (scratch : MemFs) : HostCall → MemFs × HostReply
  | .tenantId => (scratch, .tenantId ctx.tenantId)
  | .getConfig key => (scratch, .config (ctx.getConfig key))
  | .scratchWrite path data =>
      ((scratchWrite scratch path data).1, .wrote (scratchWrite scratch path data).2)
  | .scratchRead path => (scratch, .content (scratchRead scratch path))
  | .scratchBytes => (scratch, .bytes (scratchBytes scratch))

/-- A tenant with another content of its scratch filesystem. -/
def Served.setScratch {κ : Type} (o : Served κ) (scratch : MemFs) : Served κ :=
  { o with
    calls :=
      { o.calls with
        tenant := { o.calls.tenant with sandbox := { o.calls.tenant.sandbox with scratch } } } }

/-- The server with the calls of the guests of each tenant. -/
structure Hosted (κ : Type) where
  server : Server κ
  log : ℕ → List HostEvent

/-- The steps of the server, and the calls of the guests. -/
inductive HostedAction where
  | server (a : ServerAction)
  /-- The guest that invocation `i` of the tenant `r` runs calls the host. -/
  | host (r i : ℕ) (call : HostCall)

variable {κ : Type} (C : Crates κ)

namespace Hosted

/-- A server without tenants. -/
def new (registry : OciClientConfig) (policy : HotReloadPolicy) : Hosted κ where
  server := Server.new registry policy
  log _ := []

/-- The guest of invocation `i` of the tenant `r` calls the host. -/
def host (h : Hosted κ) (r i : ℕ) (call : HostCall) : Option (Hosted κ) :=
  match h.server.objects[r]? with
  | none => none
  | some o =>
      match (o.calls.calls i).running with
      | none => none
      | some p =>
          let answer := p.store.data.call o.calls.tenant.sandbox.scratch call
          some
            { server := { h.server with objects := h.server.objects.set r (o.setScratch answer.1) }
              log := Function.update h.log r ({ call, reply := answer.2 } :: h.log r) }

/-- One step. -/
def step (h : Hosted κ) : HostedAction → Option (Hosted κ)
  | .server a => (h.server.step C a).map fun server => { h with server }
  | .host r i call => h.host r i call

end Hosted

/-- The server and its guests as a machine. -/
def hostedMachine : Machine (Hosted κ) HostedAction where
  step := Hosted.step C

/-! ### The sandbox on its own -/

/-- Answer a call of a guest out of the sandbox alone. -/
def Sandbox.answer (sandbox : Sandbox) : HostCall → Sandbox × HostReply
  | .tenantId => (sandbox, .tenantId sandbox.tenant.name)
  | .getConfig key => (sandbox, .config (sandbox.config.lookup key))
  | .scratchWrite path data =>
      ({ sandbox with scratch := (HostCtx.scratchWrite sandbox.scratch path data).1 },
        .wrote (HostCtx.scratchWrite sandbox.scratch path data).2)
  | .scratchRead path => (sandbox, .content (HostCtx.scratchRead sandbox.scratch path))
  | .scratchBytes => (sandbox, .bytes (HostCtx.scratchBytes sandbox.scratch))

/-- The sandbox as a service, with no server around it. -/
def sandboxService : Service Sandbox HostCall HostReply where
  call := Sandbox.answer

/-- The sandbox with an empty scratch filesystem. -/
def Sandbox.fresh (sandbox : Sandbox) : Sandbox :=
  { sandbox with scratch := MemFs.new sandbox.limits.memfsQuotaBytes }

/-- The context was built from the sandbox, whatever is in its scratch filesystem by now. -/
def HostCtx.Of (ctx : HostCtx) (sandbox : Sandbox) : Prop :=
  ctx.tenant = sandbox.tenant ∧ ctx.config = sandbox.config

namespace HostCtx

/-- A new context is built from the sandbox it is built for. -/
theorem new_of {host : HostDirs} {sandbox : Sandbox} {egress : HttpBridge} {ctx : HostCtx}
    (h : new host sandbox egress = .ok ctx) :
  ctx.Of sandbox
  := by
  rw [new] at h
  split at h
  · cases h
  · rw [← Except.ok.inj h]
    constructor
    · rfl
    · rfl

/-- A context of the sandbox answers as the sandbox does. -/
theorem answer_of {ctx : HostCtx} {sandbox : Sandbox} (h : ctx.Of sandbox) (call : HostCall) :
  sandbox.answer call
    = ({ sandbox with scratch := (ctx.call sandbox.scratch call).1 },
        (ctx.call sandbox.scratch call).2)
  := by
  obtain ⟨htenant, hconfig⟩ := h
  cases call with
  | tenantId =>
      rw [HostCtx.call, tenantId, htenant]
      rfl
  | getConfig key =>
      rw [HostCtx.call, getConfig, hconfig]
      rfl
  | _ => rfl

end HostCtx

/-! ### Contexts stay with their tenant -/

namespace Invocations

/-- Every context, waiting to be used or stored with an instance, is one of the tenant. -/
structure Confined (s : Invocations κ) : Prop where
  waiting : ∀ i inv ctx, (s.calls i).ctx = some (inv, ctx) → ctx.Of s.tenant.sandbox
  stored : ∀ p, s.lending.Mem p → p.store.data.Of s.tenant.sandbox

/-- A tenant that was just loaded has no contexts. -/
theorem Confined.init {tenant : Tenant κ} (hqueue : tenant.pool.queue = []) :
  (Served.init tenant).calls.Confined
  := by
  constructor
  · rintro i inv ctx ⟨⟩
  · rintro p (hp | ⟨i, hi⟩)
    · have hnil : p ∈ tenant.pool.queue := hp
      rw [hqueue] at hnil
      cases hnil
    · cases hi

/-- Every step of the invocations keeps the contexts with the tenant. -/
theorem Confined.step {s t : Invocations κ} {a : InvokeAction} (hs : s.Confined)
    (h : s.Stepped C a t) :
  t.Confined
  := by
  have hsandbox := (h.sandbox_eq C).1
  constructor
  · intro i inv ctx hctx
    rw [hsandbox]
    obtain heq | hmoved := h.moved C i
    · rw [heq] at hctx
      apply hs.waiting i inv ctx hctx
    · have hwaiting := hs.waiting i
      generalize s.calls i = old at hmoved hwaiting
      generalize t.calls i = new at hmoved hctx
      cases hmoved with
      | entered hnew =>
          obtain ⟨-, rfl⟩ := Prod.mk.inj (Option.some.inj hctx)
          apply HostCtx.new_of hnew
      | missed inv ctx => apply hwaiting _ _ hctx
      | _ => cases hctx
  · intro p hp
    rw [hsandbox]
    obtain hp | ⟨i, inv, ctx, hcall, rfl⟩ := h.mem C hp
    · apply hs.stored p hp
    · apply hs.waiting i inv ctx
      rw [hcall]
      rfl

/-- The instance in which an invocation runs the guest is one of the tenant. -/
theorem Confined.running {s : Invocations κ} (hs : s.Confined) {i : ℕ} {p : Prepared κ}
    (hp : (s.calls i).running = some p) :
  p.store.data.Of s.tenant.sandbox
  := by
  apply hs.stored
  right
  use i
  apply Phase.held_of_running hp

/-- The contexts do not depend on what is in the scratch filesystem, on the active component or on
the counts of the reload loop. -/
theorem Confined.of_eq {s t : Invocations κ} (hs : s.Confined) (hcalls : t.calls = s.calls)
    (hlending : t.lending = s.lending) (htenant : t.tenant.sandbox.tenant = s.tenant.sandbox.tenant)
    (hconfig : t.tenant.sandbox.config = s.tenant.sandbox.config) :
  t.Confined
  := by
  have hof : ∀ ctx : HostCtx, ctx.Of s.tenant.sandbox → ctx.Of t.tenant.sandbox := by
    rintro ctx ⟨h, h'⟩
    exact ⟨h.trans htenant.symm, h'.trans hconfig.symm⟩
  constructor
  · intro i inv ctx hctx
    rw [hcalls] at hctx
    apply hof ctx (hs.waiting i inv ctx hctx)
  · intro p hp
    rw [hlending] at hp
    apply hof _ (hs.stored p hp)

end Invocations

/-! ### What the guests are told -/

/-- The log is explained by the sandbox of the tenant alone: the replies are those of the sandbox
as it was when the tenant was registered, and its calls lead to the sandbox as it is.  Every call
satisfies `P` in the state of the sandbox it is made in. -/
structure Served.Explained (P : Sandbox → HostCall → Prop) (o : Served κ) (log : List HostEvent) :
    Prop where
  confined : o.calls.Confined
  after : sandboxService.after o.calls.tenant.sandbox.fresh log = o.calls.tenant.sandbox
  faithful : sandboxService.Faithful o.calls.tenant.sandbox.fresh log
  meets : sandboxService.Meets P o.calls.tenant.sandbox.fresh log

namespace Served.Explained

variable {P : Sandbox → HostCall → Prop} {o : Served κ} {log : List HostEvent}

/-- A tenant that was just loaded has an empty log. -/
theorem init {registry : OciClientConfig} {env : LoadEnv} {cfg : TenantConfig} {tenant : Tenant κ}
    (h : Tenant.activate C registry env cfg = .ok tenant) :
  (Served.init tenant).Explained P []
  := by
  obtain ⟨id, sandbox, bridge, loaded, compiled, -, hsandbox, -, -, -, -, rfl⟩ :=
    (Tenant.activate_ok C).mp h
  obtain ⟨-, rfl⟩ := Sandbox.new_ok.mp hsandbox
  constructor
  · apply Invocations.Confined.init
    rfl
  · rfl
  · trivial
  · trivial

/-- What leaves the sandbox alone, and keeps the contexts with the tenant, keeps the log. -/
theorem of_sandbox_eq {o' : Served κ} (h : o.Explained P log) (hconfined : o'.calls.Confined)
    (hsandbox : o'.calls.tenant.sandbox = o.calls.tenant.sandbox) :
  o'.Explained P log
  := by
  constructor
  · apply hconfined
  · rw [hsandbox]
    apply h.after
  · rw [hsandbox]
    apply h.faithful
  · rw [hsandbox]
    apply h.meets

/-- A step of the server keeps the log explained. -/
theorem evolve {s : Server κ} {a : ServerAction} {r : ℕ} {o' : Served κ} (h : o.Explained P log)
    (hevolved : o.Evolved C s a r o') :
  o'.Explained P log
  := by
  cases hevolved with
  | kept => apply h
  | @polled env now rest ha hpass =>
      obtain ⟨_, _, _, heq⟩ := Tenant.poll_frame C s.registry s.policy now env o.calls.tenant
      have htenant : (o.poll C s.registry s.policy now env).1.calls.tenant
          = (o.calls.tenant.poll C s.registry s.policy now env).value := rfl
      rw [heq] at htenant
      have hsandbox : (o.poll C s.registry s.policy now env).1.calls.tenant.sandbox
          = o.calls.tenant.sandbox := by
        rw [htenant]
      apply h.of_sandbox_eq _ hsandbox
      apply h.confined.of_eq (t := (o.poll C s.registry s.policy now env).1.calls) rfl
      · rw [Invocations.lending, htenant]
        rfl
      · rw [hsandbox]
      · rw [hsandbox]
  | invoked ha hb hstep =>
      have hstepped := Invocations.stepped C hstep
      apply h.of_sandbox_eq
      · apply h.confined.step C hstepped
      · apply (hstepped.sandbox_eq C).1
  | ticked ha =>
      have hconfined : o.tick.calls.Confined := h.confined.of_eq rfl rfl rfl rfl
      apply h.of_sandbox_eq hconfined rfl

/-- A call of a guest of the tenant adds to the log what the sandbox answers to it. -/
theorem host {i : ℕ} {p : Prepared κ} {call : HostCall} (h : o.Explained P log)
    (hp : (o.calls.calls i).running = some p) (hcall : P o.calls.tenant.sandbox call) :
  (o.setScratch (p.store.data.call o.calls.tenant.sandbox.scratch call).1).Explained P
    (⟨call, (p.store.data.call o.calls.tenant.sandbox.scratch call).2⟩ :: log)
  := by
  have hanswer := HostCtx.answer_of (h.confined.running hp) call
  have hcalled : sandboxService.call (sandboxService.after o.calls.tenant.sandbox.fresh log) call
      = o.calls.tenant.sandbox.answer call := by
    rw [h.after]
    rfl
  rw [hanswer] at hcalled
  constructor
  · generalize (p.store.data.call o.calls.tenant.sandbox.scratch call).1 = scratch
    apply h.confined.of_eq (t := (o.setScratch scratch).calls) rfl rfl rfl rfl
  · apply congrArg Prod.fst hcalled
  · constructor
    · apply (congrArg Prod.snd hcalled).symm
    · apply h.faithful
  · constructor
    · rw [← h.after] at hcall
      apply hcall
    · apply h.meets

end Served.Explained

/-- The log of every tenant is explained, and no other log has begun. -/
structure Hosted.Explained (P : Sandbox → HostCall → Prop) (h : Hosted κ) : Prop where
  tenants : ∀ r (o : Served κ), h.server.objects[r]? = some o → o.Explained P (h.log r)
  empty : ∀ r, h.server.objects[r]? = none → h.log r = []

/-- The step is no call of a guest, or one that satisfies `P`. -/
def HostedAction.Meets (P : Sandbox → HostCall → Prop) (h : Hosted κ) : HostedAction → Prop
  | .server _ => True
  | .host r _ call => ∀ o, h.server.objects[r]? = some o → P o.calls.tenant.sandbox call

namespace Hosted

variable {P : Sandbox → HostCall → Prop}

/-- A server without tenants has no logs. -/
theorem Explained.new (registry : OciClientConfig) (policy : HotReloadPolicy) :
  (Hosted.new registry policy : Hosted κ).Explained P
  := by
  constructor
  · intro r o ho
    cases ho
  · intro r _
    rfl

/-- Every step keeps the logs explained. -/
theorem Explained.step {h h' : Hosted κ} {a : HostedAction} (hs : h.Explained P)
    (ha : a.Meets P h) (hstep : h.step C a = some h') :
  h'.Explained P
  := by
  cases a with
  | server a =>
      obtain ⟨server, hserver, rfl⟩ := Option.map_eq_some_iff.mp hstep
      constructor
      · intro r o' ho'
        cases hold : h.server.objects[r]? with
        | none =>
            obtain ⟨-, env, cfg, tenant, -, hactivate, rfl⟩ := Server.appears C hserver ho' hold
            simp only [hs.empty r hold]
            apply Served.Explained.init C hactivate
        | some o =>
            obtain ⟨o'', ho'', hevolved⟩ := Server.evolves C hserver hold
            obtain rfl := Option.some.inj (ho'.symm.trans ho'')
            apply (hs.tenants r o hold).evolve C hevolved
      · intro r hnone
        apply hs.empty r
        cases hold : h.server.objects[r]? with
        | none => rfl
        | some o =>
            obtain ⟨o', ho', -⟩ := Server.evolves C hserver hold
            cases hnone.symm.trans ho'
  | host r i call =>
      simp only [Hosted.step, Hosted.host] at hstep
      split at hstep
      · cases hstep
      next o ho =>
        split at hstep
        · cases hstep
        next p hp =>
          obtain rfl := Option.some.inj hstep
          constructor
          · intro r' o' ho'
            obtain rfl | hne := eq_or_ne r' r
            · rw [List.getElem?_set_self (List.getElem?_eq_some_iff.mp ho).1] at ho'
              obtain rfl := Option.some.inj ho'
              simp only [Function.update_self]
              apply (hs.tenants r' o ho).host hp (ha o ho)
            · rw [List.getElem?_set_ne hne.symm] at ho'
              simp only [Function.update_of_ne hne]
              apply hs.tenants r' o' ho'
          · intro r' hnone
            obtain rfl | hne := eq_or_ne r' r
            · rw [List.getElem?_set_self (List.getElem?_eq_some_iff.mp ho).1] at hnone
              cases hnone
            · rw [List.getElem?_set_ne hne.symm] at hnone
              simp only [Function.update_of_ne hne]
              apply hs.empty r' hnone

/-- The logs are explained after every run whose calls satisfy `P`. -/
theorem Explained.of_run {registry : OciClientConfig} {policy : HotReloadPolicy}
    {actions : List HostedAction} {h : Hosted κ}
    (hmeets : (hostedMachine C).Meets (fun h a => a.Meets P h) (Hosted.new registry policy) actions)
    (hrun : (hostedMachine C).run (Hosted.new registry policy) actions = some h) :
  h.Explained P
  := by
  apply (hostedMachine C).run_induct _ (Explained.new registry policy) hmeets hrun
  intro h a h' hs ha hstep
  apply hs.step C ha hstep

end Hosted

/-- Take any two runs of servers and their guests, with any tenants loaded, reloaded and invoked
in any order, and in each run a tenant, registered with the same name, limits and configuration.
When the guests of the one make the same calls on the host as the guests of the other, in the same
order, then they get the same replies, and leave the same scratch files. -/
theorem guests_isolated {registry registry' : OciClientConfig} {policy policy' : HotReloadPolicy}
    {actions actions' : List HostedAction} {h h' : Hosted κ}
    (hrun : (hostedMachine C).run (Hosted.new registry policy) actions = some h)
    (hrun' : (hostedMachine C).run (Hosted.new registry' policy') actions' = some h')
    {r r' : ℕ} {o o' : Served κ} (ho : h.server.objects[r]? = some o)
    (ho' : h'.server.objects[r']? = some o')
    (hfresh : o.calls.tenant.sandbox.fresh = o'.calls.tenant.sandbox.fresh)
    (hcalls : (h.log r).map (·.call) = (h'.log r').map (·.call)) :
  h.log r = h'.log r' ∧ o.calls.tenant.sandbox = o'.calls.tenant.sandbox
  := by
  have hexplained : ∀ {registry policy actions} {h : Hosted κ},
      (hostedMachine C).run (Hosted.new registry policy) actions = some h →
      h.Explained fun _ _ => True := by
    intro registry policy actions h hrun
    apply Hosted.Explained.of_run C _ hrun
    apply (hostedMachine C).meets_of_invariant (I := fun _ => True) (Q := fun _ => True)
    · intro _ _ _ _ _ _
      trivial
    · rintro h (a | ⟨r, i, call⟩) _ _
      · trivial
      · intro _ _
        trivial
    · trivial
    · intro _ _
      trivial
  have hleft := (hexplained hrun).tenants r o ho
  have hright := (hexplained hrun').tenants r' o' ho'
  have hlog : h.log r = h'.log r' := by
    apply hleft.faithful.unique _ hcalls
    rw [hfresh]
    apply hright.faithful
  use hlog
  calc o.calls.tenant.sandbox
      = sandboxService.after o.calls.tenant.sandbox.fresh (h.log r) := hleft.after.symm
    _ = sandboxService.after o'.calls.tenant.sandbox.fresh (h'.log r') := by rw [hfresh, hlog]
    _ = o'.calls.tenant.sandbox := hright.after

/-! ### Two sample runs -/

/-- Loading the tenant `echo` from its file. -/
theorem Hosted.step_loadEcho {h : Hosted Bytes} (hregistry : h.server.registry = {})
    (hclock : h.server.clock = 0) :
  (hostedMachine sampleCrates).step h (.server (.load fileLoadEnv fileConfig))
    = some
      { h with
        server :=
          { h.server with
            tenants := h.server.tenants.insert echoId h.server.objects.length
            objects := h.server.objects ++ [Served.init sampleTenant]
            clock := 0 } }
  := by
  have hload : h.server.step sampleCrates (.load fileLoadEnv fileConfig)
      = some (h.server.loadTenant sampleCrates fileLoadEnv fileConfig).1 := by
    apply if_pos
    rw [hclock]
    exact ⟨le_rfl, le_rfl⟩
  simp only [hostedMachine, Hosted.step, hload, Server.loadTenant, hregistry,
    activate_sampleTenant, Option.map_some]
  rfl

/-- Invocation 0 of the tenant `r` starts its guest, which then makes the calls. -/
def guestRun (r : ℕ) (calls : List HostCall) : List HostedAction :=
  ([.load 0 sampleInbound, .enter 0 sampleHost, .lock 0, .arm 0, .instantiated 0 (.ok ())] :
      List InvokeAction).map (fun a => .server (.invoke r a))
    ++ calls.map (.host r 0)

/-- The tenant `echo` is loaded twice.  The guest of the second registration writes a file and
reads it, and so does the guest of a server that has no other tenant: what the first registration
keeps under the same path makes no difference. -/
theorem guests_isolated_echo :
  ∃ h h', (hostedMachine sampleCrates).run (Hosted.new {} {})
      (.server (.load fileLoadEnv fileConfig) :: .server (.load fileLoadEnv fileConfig)
        :: (guestRun 0 [.scratchWrite "a" [7, 7]]
          ++ guestRun 1 [.scratchWrite "a" [1], .scratchRead "a"])) = some h
    ∧ (hostedMachine sampleCrates).run (Hosted.new {} {})
      (.server (.load fileLoadEnv fileConfig)
        :: guestRun 0 [.scratchWrite "a" [1], .scratchRead "a"]) = some h'
    ∧ h.log 1 = h'.log 0
    ∧ h'.log 0 = [⟨.scratchRead "a", .content (some [1])⟩, ⟨.scratchWrite "a" [1], .wrote (.ok ())⟩]
  := by
  have hrun := (Machine.run_cons (hostedMachine sampleCrates)).mpr
    ⟨_, Hosted.step_loadEcho (h := Hosted.new {} {}) rfl rfl,
      (Machine.run_cons (hostedMachine sampleCrates)).mpr
        ⟨_, Hosted.step_loadEcho rfl rfl,
          (rfl : (hostedMachine sampleCrates).run _
            (guestRun 0 [.scratchWrite "a" [7, 7]]
              ++ guestRun 1 [.scratchWrite "a" [1], .scratchRead "a"]) = some _)⟩⟩
  have hrun' := (Machine.run_cons (hostedMachine sampleCrates)).mpr
    ⟨_, Hosted.step_loadEcho (h := Hosted.new {} {}) rfl rfl,
      (rfl : (hostedMachine sampleCrates).run _
        (guestRun 0 [.scratchWrite "a" [1], .scratchRead "a"]) = some _)⟩
  refine ⟨_, _, hrun, hrun', ?_, rfl⟩
  apply And.left
  apply guests_isolated sampleCrates hrun hrun'
  all_goals rfl

end Ember
