import Ember.Http.Egress
import Ember.Http.Ingress
import Ember.Runtime.Budget

/-!
# Bodies over the boundary of a tenant

A body crosses the boundary of a tenant on one of four ways: the request that is handed to the
guest, the response of the guest to its caller, a request of the guest to the outside, and the
response to it.  `boundaryMachine` runs the invocations of a tenant together with the ingress
and the outbound requests of its guests, and keeps a log of the bodies that came to the
boundary.

Only `HttpBridge.send` compares a body with the limit of the tenant.  The ingress has a limit
of its own, and nothing looks at the length of the response of a guest or of a server, so the
bodies keep to the limit exactly in the runs in which the callers, the guests and the servers
do (`boundary_capped_iff`).
-/

namespace Ember

variable {κ : Type} (C : Crates κ) (http : HttpConfig)

/-- The ways over the boundary of a tenant. -/
inductive Way where
  | request
  | response
  | outboundRequest
  | outboundResponse
  deriving DecidableEq, Repr

/-- A body at the boundary of a tenant.  It has crossed, or it was refused with an error of the
given status. -/
structure Passage where
  way : Way
  body : Bytes
  refused : Option ℕ
  deriving DecidableEq, Repr

/-- A body longer than `m` bytes has met an error instead of crossing. -/
def Passage.Capped (m : ℕ) (p : Passage) : Prop :=
  p.body.length ≤ m ∨ p.refused.isSome = true

/-- The bytes of a request that a guest is called with. -/
def Request.bodyBytes (r : Request) : Bytes := r.body.getD []

/-- The instance of an invocation whose guest is running. -/
def Phase.running : Phase κ → Option (Prepared κ)
  | .instantiating _ p | .calling _ p => some p
  | _ => none

namespace Invocations

/-- The invocation whose guest is called by the step. -/
def called (s : Invocations κ) : InvokeAction → Option (Invocation κ)
  | .lock i =>
      match s.calls i with
      | .waiting inv _ =>
          match InstancePool.scan inv.active.loaded.digest s.tenant.pool.queue with
          | (some _, _) => some inv
          | (none, _) => none
      | _ => none
  | .instantiated i (.ok ()) =>
      match s.calls i with
      | .instantiating inv _ => some inv
      | _ => none
  | _ => none

/-- The response of the guest that the step converts for the caller. -/
def converted (s : Invocations κ) : InvokeAction → Option Response
  | .release i _ =>
      match s.calls i with
      | .releasing _ _ resp => some resp
      | _ => none
  | _ => none

/-- The bodies that a step of the invocations takes over the boundary. -/
def passages (s : Invocations κ) (a : InvokeAction) : List Passage :=
  (s.called a).toList.map (fun inv => ⟨.request, inv.request.bodyBytes, none⟩)
    ++ ((s.converted a).bind fun resp => resp.toHttp.toOption).toList.map
      fun r => ⟨.response, r.body, none⟩

end Invocations

namespace HttpBridge

/-- The body of an outbound request: the client gets it, or the guest gets an error. -/
def requestPassages (bridge : HttpBridge) (req : OutboundRequest) : List Passage :=
  match bridge.handOver req with
  | .ok r => [⟨.outboundRequest, r.body, none⟩]
  | .error e => req.body.toList.map fun body => ⟨.outboundRequest, body, some e.status⟩

/-- The bodies that come to the boundary in an outbound request. -/
def passages (bridge : HttpBridge) (servers : Servers) (fault : Option String)
    (req : OutboundRequest) : List Passage :=
  bridge.requestPassages req
    ++ (bridge.sendRequest servers fault req).2.toOption.toList.map
      fun out => ⟨.outboundResponse, out.body, none⟩

end HttpBridge

/-- The invocations of a tenant, and the bodies that have come to its boundary. -/
structure Boundary (κ : Type) where
  invocations : Invocations κ
  log : List Passage

/-- The steps at the boundary. -/
inductive BoundaryAction where
  /-- The ingress gets a request for the tenant, which becomes invocation `i`. -/
  | dispatch (i : ℕ) (request : IncomingRequest)
  /-- A step of the invocations. -/
  | invoke (a : InvokeAction)
  /-- The guest of invocation `i` sends a request to the outside. -/
  | outbound (i : ℕ) (req : OutboundRequest) (servers : Servers) (fault : Option String)

namespace Boundary

/-- A tenant without invocations. -/
def init (tenant : Tenant κ) : Boundary κ where
  invocations := .init tenant
  log := []

/-- The bodies that come to the boundary in a step. -/
def passages (b : Boundary κ) : BoundaryAction → List Passage
  | .dispatch _ request =>
      match Ingress.dispatch http b.invocations.tenant.id.name request with
      | .error e =>
          request.body.toOption.toList.map fun body => ⟨.request, body, some e.status⟩
      | .ok _ => []
  | .invoke a => b.invocations.passages a
  | .outbound i req servers fault =>
      match (b.invocations.calls i).running with
      | some p => p.store.data.egress.passages servers fault req
      | none => []

/-- What a step makes of the invocations: the dispatcher loads a request that the ingress
passes on. -/
def advance (b : Boundary κ) : BoundaryAction → Option (Invocations κ)
  | .dispatch i request =>
      match Ingress.dispatch http b.invocations.tenant.id.name request with
      | .error _ => some b.invocations
      | .ok (_, request) => b.invocations.step C (.load i request)
  | .invoke a => b.invocations.step C a
  | .outbound i _ _ _ => (b.invocations.calls i).running.map fun _ => b.invocations

/-- One step. -/
def step (b : Boundary κ) (a : BoundaryAction) : Option (Boundary κ) :=
  (b.advance C http a).map fun s => { invocations := s, log := b.log ++ b.passages http a }

/-- No body over `m` bytes has crossed: each of them has met an error. -/
def Capped (m : ℕ) (b : Boundary κ) : Prop := ∀ p ∈ b.log, p.Capped m

/-- The bodies the step meets from the outside and from the guest are within `m` bytes: the
request it calls a guest with, the response of a guest that it converts, and the response of a
server to an outbound request that the bridge hands over. -/
def InputsFit (m : ℕ) (b : Boundary κ) : BoundaryAction → Prop
  | .dispatch _ _ => True
  | .invoke a =>
      (∀ inv, b.invocations.called a = some inv → inv.request.bodyBytes.length ≤ m)
        ∧ ∀ resp r, b.invocations.converted a = some resp → resp.toHttp = .ok r →
          resp.body.length ≤ m
  | .outbound i req servers fault =>
      ∀ p r res, (b.invocations.calls i).running = some p →
        p.store.data.egress.handOver req = .ok r →
        (p.store.data.egress.client.execute servers r).2 = .ok res →
        fault = none → res.body.length ≤ m

end Boundary

/-- The invocations of one tenant behind the ingress, with the outbound requests of the guests. -/
def boundaryMachine : Machine (Boundary κ) BoundaryAction where
  step := Boundary.step C http

/-! ### What a step lets through -/

theorem Passage.capped_crossed {m : ℕ} {way : Way} {body : Bytes} :
  Passage.Capped m ⟨way, body, none⟩ ↔ body.length ≤ m
  := by
  simp [Passage.Capped]

theorem Passage.capped_refused {m status : ℕ} {way : Way} {body : Bytes} :
  Passage.Capped m ⟨way, body, some status⟩
  := .inr rfl

/-- A step of the invocations lets through only bodies within the limit exactly when the
request it calls a guest with and the response it converts are. -/
theorem Invocations.passages_capped {m : ℕ} {s : Invocations κ} {a : InvokeAction} :
  (∀ p ∈ s.passages a, p.Capped m)
    ↔ (∀ inv, s.called a = some inv → inv.request.bodyBytes.length ≤ m)
      ∧ ∀ resp r, s.converted a = some resp → resp.toHttp = .ok r → resp.body.length ≤ m
  := by
  rw [passages, List.forall_mem_append]
  simp only [List.forall_mem_map, Option.mem_toList, Passage.capped_crossed]
  constructor
  · rintro ⟨hcalled, hconverted⟩
    use hcalled
    intro resp r hresp hr
    rw [← Response.toHttp_body hr]
    apply hconverted
    apply Option.bind_eq_some_iff.mpr
    use resp, hresp
    apply Except.toOption_eq_some.mpr hr
  · rintro ⟨hcalled, hconverted⟩
    use hcalled
    intro r hr
    obtain ⟨resp, hresp, hr⟩ := Option.bind_eq_some_iff.mp hr
    have hr := Except.toOption_eq_some.mp hr
    rw [Response.toHttp_body hr]
    apply hconverted resp r hresp hr

namespace HttpBridge

/-- The bridge answers a body over its limit with an error. -/
theorem requestPassages_capped (bridge : HttpBridge) (req : OutboundRequest) :
  ∀ p ∈ bridge.requestPassages req, p.Capped bridge.maxBodyBytes
  := by
  rw [requestPassages]
  split
  next r hover =>
    obtain ⟨-, bytes, -, -, -, hlen, rfl⟩ := handOver_ok.mp hover
    rw [List.forall_mem_singleton, Passage.capped_crossed]
    apply hlen
  · rw [List.forall_mem_map]
    intro body _
    apply Passage.capped_refused

/-- An outbound request lets through only bodies within the limit exactly when the response of
the server is. -/
theorem passages_capped {bridge : HttpBridge} {servers : Servers} {fault : Option String}
    {req : OutboundRequest} :
  (∀ p ∈ bridge.passages servers fault req, p.Capped bridge.maxBodyBytes)
    ↔ ∀ r res, bridge.handOver req = .ok r → (bridge.client.execute servers r).2 = .ok res →
        fault = none → res.body.length ≤ bridge.maxBodyBytes
  := by
  rw [passages, List.forall_mem_append]
  simp only [List.forall_mem_map, Option.mem_toList, Passage.capped_crossed]
  constructor
  · rintro ⟨-, hresponse⟩ r res hover hexecute hfault
    have hout := sendRequest_ok.mpr ⟨r, res, hover, hexecute, hfault, rfl⟩
    apply hresponse _ (Except.toOption_eq_some.mpr hout)
  · intro hres
    use bridge.requestPassages_capped req
    intro out hout
    obtain ⟨r, res, hover, hexecute, hfault, rfl⟩ :=
      sendRequest_ok.mp (Except.toOption_eq_some.mp hout)
    apply hres r res hover hexecute hfault

end HttpBridge

/-! ### The limit of the bridges -/

/-- Every bridge a guest can send through has the limit `m`. -/
structure Equipped (m : ℕ) (s : Invocations κ) : Prop where
  tenant : s.tenant.bridge.maxBodyBytes = m
  ctx : ∀ i inv ctx, (s.calls i).ctx = some (inv, ctx) → ctx.egress.maxBodyBytes = m
  instances : ∀ p, s.lending.Mem p → p.store.data.egress.maxBodyBytes = m

/-- A bridge has the limit it is built with. -/
theorem HttpBridge.new_maxBodyBytes {client : Except String Unit} {policy : EgressPolicy} {m : ℕ}
    {bridge : HttpBridge} (h : HttpBridge.new client policy m = .ok bridge) :
  bridge.maxBodyBytes = m
  := by
  cases client with
  | error e => cases h
  | ok _ =>
      obtain rfl := Except.ok.inj h
      rfl

/-- An invocation holds the instance whose guest is running. -/
theorem Phase.held_of_running {phase : Phase κ} {p : Prepared κ} (h : phase.running = some p) :
  phase.held = some p
  := by
  cases phase with
  | instantiating inv q => apply h
  | calling inv q => apply h
  | _ => cases h

/-- No step changes the bridge of the tenant. -/
theorem Invocations.Stepped.bridge_eq {s t : Invocations κ} {a : InvokeAction}
    (h : s.Stepped C a t) :
  t.tenant.bridge = s.tenant.bridge
  := by
  cases h with
  | _ => rfl

namespace Equipped

variable {m : ℕ} {s t : Invocations κ} {a : InvokeAction}

/-- An activated tenant, without invocations. -/
theorem init {registry : OciClientConfig} {env : LoadEnv} {cfg : TenantConfig} {tenant : Tenant κ}
    (h : Tenant.activate C registry env cfg = .ok tenant) :
  Equipped cfg.limits.maxBodyBytes (Invocations.init tenant)
  := by
  obtain ⟨id, sandbox, bridge, loaded, compiled, -, -, hbridge, -, -, -, rfl⟩ :=
    (Tenant.activate_ok C).mp h
  constructor
  · apply HttpBridge.new_maxBodyBytes hbridge
  · intro i inv ctx hctx
    cases hctx
  · rintro p (hp | ⟨i, hp⟩)
    · cases hp
    · cases hp

/-- Every step keeps the limit: a context is built with the bridge of the tenant, and an
instance keeps the context it was built with. -/
theorem step (hs : Equipped m s) (h : s.Stepped C a t) :
  Equipped m t
  := by
  constructor
  · rw [h.bridge_eq C]
    apply hs.tenant
  · intro i inv ctx hctx
    obtain hsame | ⟨-, -, hegress⟩ := h.ctx C hctx
    · apply hs.ctx i inv ctx hsame
    · rw [hegress]
      apply hs.tenant
  · intro p hp
    obtain hp | ⟨i, inv, ctx, hcall, rfl⟩ := h.mem C hp
    · apply hs.instances p hp
    · apply hs.ctx i inv ctx
      rw [hcall]
      rfl

/-- A running guest sends through a bridge with the limit. -/
theorem running (hs : Equipped m s) {i : ℕ} {p : Prepared κ}
    (hp : (s.calls i).running = some p) :
  p.store.data.egress.maxBodyBytes = m
  := by
  apply hs.instances p
  right
  use i
  apply Phase.held_of_running hp

end Equipped

namespace Boundary

variable {m : ℕ} {b b' : Boundary κ} {a : BoundaryAction}

/-- Every step appends the bodies it met to the log. -/
theorem step_log (h : b.step C http a = some b') :
  b'.log = b.log ++ b.passages http a
  := by
  obtain ⟨s, -, rfl⟩ := Option.map_eq_some_iff.mp h
  rfl

/-- A step at the boundary is a step of the invocations, or leaves them alone. -/
theorem step_invocations (h : b.step C http a = some b') :
  b'.invocations = b.invocations ∨ ∃ a', b.invocations.step C a' = some b'.invocations
  := by
  obtain ⟨s, hs, rfl⟩ := Option.map_eq_some_iff.mp h
  cases a with
  | dispatch i request =>
      rw [advance] at hs
      split at hs
      · left
        apply (Option.some.inj hs).symm
      · right
        exact ⟨_, hs⟩
  | invoke a =>
      right
      use a, hs
  | outbound i req servers fault =>
      obtain ⟨p, -, heq⟩ := Option.map_eq_some_iff.mp hs
      left
      apply heq.symm

/-- Every step keeps the limit of the bridges. -/
theorem step_equipped (hb : Equipped m b.invocations) (h : b.step C http a = some b') :
  Equipped m b'.invocations
  := by
  obtain heq | ⟨a', hs⟩ := step_invocations C http h
  · rw [heq]
    apply hb
  · apply hb.step C (Invocations.stepped C hs)

/-- A step lets through only bodies within the limit exactly when the bodies it meets from the
outside and from the guest are. -/
theorem passages_capped (hb : Equipped m b.invocations) :
  (∀ p ∈ b.passages http a, p.Capped m) ↔ b.InputsFit m a
  := by
  cases a with
  | dispatch i request =>
      rw [passages, InputsFit, iff_true]
      split
      · rw [List.forall_mem_map]
        intro body _
        apply Passage.capped_refused
      · apply List.forall_mem_nil
  | invoke a => apply Invocations.passages_capped
  | outbound i req servers fault =>
      rw [passages, InputsFit]
      split
      next p hp =>
        obtain rfl := hb.running hp
        rw [HttpBridge.passages_capped]
        constructor
        · intro h q r res hq
          obtain rfl := Option.some.inj (hp.symm.trans hq)
          apply h r res
        · intro h r res
          apply h p r res hp
      next hp =>
        constructor
        · intro _ q r res hq
          cases hp.symm.trans hq
        · intro _
          apply List.forall_mem_nil

/-- The bodies in the log after a step are those of before and those of the step. -/
theorem step_capped (h : b.step C http a = some b') :
  b'.Capped m ↔ b.Capped m ∧ ∀ p ∈ b.passages http a, p.Capped m
  := by
  rw [Capped, step_log C http h, List.forall_mem_append]
  rfl

end Boundary

/-- Take any run of the invocations of an activated tenant behind the ingress, with the
outbound requests of the guests.  In all states of the run every body that came to the boundary
of the tenant was within the limit of the tenant or met an error, exactly when every request a
guest is called with, every response of a guest that is converted for the caller and every
response of a server to an outbound request is within the limit. -/
theorem boundary_capped_iff {registry : OciClientConfig} {env : LoadEnv} {cfg : TenantConfig}
    {tenant : Tenant κ} (hactivate : Tenant.activate C registry env cfg = .ok tenant)
    {actions : List BoundaryAction} {b : Boundary κ}
    (hrun : (boundaryMachine C http).run (Boundary.init tenant) actions = some b) :
  (boundaryMachine C http).Always (Boundary.Capped cfg.limits.maxBodyBytes)
      (Boundary.init tenant) actions
    ↔ (boundaryMachine C http).Meets (Boundary.InputsFit cfg.limits.maxBodyBytes)
      (Boundary.init tenant) actions
  := by
  apply (boundaryMachine C http).always_iff_meets
    (I := fun b => Equipped cfg.limits.maxBodyBytes b.invocations)
    (J := Boundary.Capped cfg.limits.maxBodyBytes) _ _ _ _ _ _ hrun
  · intro b a b' hb h
    apply Boundary.step_equipped C http hb h
  · intro b a b' hb h hcapped
    apply (Boundary.passages_capped http hb).mp
    apply ((Boundary.step_capped C http h).mp hcapped).2
  · intro b a b' hb hcapped hfit h
    apply (Boundary.step_capped C http h).mpr
    use hcapped
    apply (Boundary.passages_capped http hb).mpr hfit
  · intro b _ hcapped
    apply hcapped
  · apply Equipped.init C hactivate
  · apply List.forall_mem_nil

/-! ### A tenant with a small limit -/

/-- Limits with bodies of at most four bytes, and egress to one host. -/
def smallLimits : SandboxLimits := { maxBodyBytes := 4, egressAllow := ["api.example.com"] }

/-- The tenant `echo`, with small bodies. -/
def smallConfig : TenantConfig := { fileConfig with limits := smallLimits }

/-- The tenant after activation. -/
def smallTenant : Tenant Bytes :=
  { sampleTenant with
    sandbox := { sampleTenant.sandbox with limits := smallLimits }
    bridge := { sampleTenant.bridge with policy := smallLimits.egressPolicy, maxBodyBytes := 4 } }

theorem activate_smallTenant :
  Tenant.activate sampleCrates {} fileLoadEnv smallConfig = .ok smallTenant
  := activate_file smallLimits rfl

/-- A request for `/echo/` with `body` is dispatched; its guest asks a server, which answers with
`body`, and answers with `body` itself. -/
def roundTrip (body : Bytes) : List BoundaryAction :=
  [.dispatch 0 { sampleInbound with body := .ok body },
    .invoke (.enter 0 sampleHost), .invoke (.lock 0), .invoke (.arm 0),
    .invoke (.instantiated 0 (.ok ())),
    .outbound 0 HttpBridge.sampleRequest
      (fun _ => .response { status := 200, headers := ⟨[]⟩, body }) none,
    .invoke (.answered 0 (.response { status := 200, headers := [], body })),
    .invoke (.release 0 0)]

/-- Under a limit of four bytes, a body of three bytes crosses the boundary on all ways. -/
theorem boundary_capped_small :
  (boundaryMachine sampleCrates {}).Always (Boundary.Capped 4) (Boundary.init smallTenant)
    (roundTrip [1, 2, 3])
  := by
  have hrun : ((boundaryMachine sampleCrates {}).run (Boundary.init smallTenant)
      (roundTrip [1, 2, 3])).isSome = true := by
    decide +kernel
  obtain ⟨b, hb⟩ := Option.isSome_iff_exists.mp hrun
  apply (boundary_capped_iff sampleCrates {} activate_smallTenant hb).mpr
  -- the run step by step: only the guest call, the outbound request and the release meet a body
  refine ⟨trivial, ?_⟩
  rintro b ⟨⟩
  refine ⟨⟨?_, ?_⟩, ?_⟩
  · rintro inv ⟨⟩
  · rintro resp r ⟨⟩
  rintro b ⟨⟩
  refine ⟨⟨?_, ?_⟩, ?_⟩
  · rintro inv ⟨⟩
  · rintro resp r ⟨⟩
  rintro b ⟨⟩
  refine ⟨⟨?_, ?_⟩, ?_⟩
  · rintro inv ⟨⟩
  · rintro resp r ⟨⟩
  rintro b ⟨⟩
  refine ⟨⟨?_, ?_⟩, ?_⟩
  · rintro inv ⟨⟩
    decide
  · rintro resp r ⟨⟩
  rintro b ⟨⟩
  constructor
  · rintro p r res ⟨⟩ - ⟨⟩ -
    decide
  rintro b ⟨⟩
  refine ⟨⟨?_, ?_⟩, ?_⟩
  · rintro inv ⟨⟩
  · rintro resp r ⟨⟩
  rintro b ⟨⟩
  refine ⟨⟨?_, ?_⟩, ?_⟩
  · rintro inv ⟨⟩
  · rintro resp r ⟨⟩ -
    decide
  intro b _
  trivial

/-- Under a limit of four bytes, a body of five bytes crosses the boundary on three ways. -/
theorem boundary_crossed :
  Tenant.activate sampleCrates {} fileLoadEnv smallConfig = .ok smallTenant
    ∧ smallConfig.limits.maxBodyBytes = 4
    ∧ ∃ b, (boundaryMachine sampleCrates {}).run (Boundary.init smallTenant)
          (roundTrip [1, 2, 3, 4, 5]) = some b
        ∧ ⟨.request, [1, 2, 3, 4, 5], none⟩ ∈ b.log
        ∧ ⟨.outboundResponse, [1, 2, 3, 4, 5], none⟩ ∈ b.log
        ∧ ⟨.response, [1, 2, 3, 4, 5], none⟩ ∈ b.log
        ∧ ¬b.Capped 4
  := by
  have hlog : ((boundaryMachine sampleCrates {}).run (Boundary.init smallTenant)
      (roundTrip [1, 2, 3, 4, 5])).map (·.log)
      = some
        [⟨.request, [1, 2, 3, 4, 5], none⟩, ⟨.outboundRequest, [], none⟩,
          ⟨.outboundResponse, [1, 2, 3, 4, 5], none⟩, ⟨.response, [1, 2, 3, 4, 5], none⟩] := by
    decide +kernel
  obtain ⟨b, hb, hlog⟩ := Option.map_eq_some_iff.mp hlog
  use activate_smallTenant, rfl, b, hb
  rw [Boundary.Capped, hlog]
  simp [Passage.Capped]

end Ember
