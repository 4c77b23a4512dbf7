import Ember.Http.Egress
import Ember.Runtime.Guests
import Ember.Runtime.Startup

/-!
# What leaves the process

The guests of a server send requests to the outside through the bridge in their context.  We
interleave these requests with the steps of the server and the calls of the guests on the host,
and keep for every tenant a log of them.

What comes of a request depends on the entry of the configuration the tenant was loaded from, and
on the servers that are contacted (`Sending.Lawful`): either it is refused and nothing is sent, or
the entry allows its host, and every server that is contacted after the first one was named by a
redirect of the servers before it.  This holds in every run of a server that was started from a
configuration (`started_egress`).
-/

namespace Ember

/-! ### Redirects -/

/-- The client went on from `start` along the redirects of the servers. -/
inductive Redirected (servers : Servers) (start : List Uri) : List Uri → Prop
  | start : Redirected servers start start
  | redirect {chain : List Uri} {u : Uri} (h : Redirected servers start chain)
      (hanswer : servers chain = .redirect u) : Redirected servers start (chain ++ [u])

namespace Client

variable {servers : Servers}

/-- The client follows the redirects of the servers, as many as it may, and the response it ends
with is the answer to the last request. -/
theorem follow_spec (n : ℕ) {start chain : List Uri} (h : Redirected servers start chain) :
  Redirected servers start (follow servers n chain).1
    ∧ (follow servers n chain).1.length ≤ chain.length + n
    ∧ ∀ res, (follow servers n chain).2 = .ok res →
        servers (follow servers n chain).1 = .response res
  := by
  -- the chain grows by the location of each redirect, the limit decreases with it
  induction n generalizing chain with
  | zero =>
      unfold follow
      cases hanswer : servers chain with
      | response r =>
          refine ⟨h, le_rfl, ?_⟩
          rintro res ⟨⟩
          apply hanswer
      | failed e =>
          refine ⟨h, le_rfl, ?_⟩
          rintro res ⟨⟩
      | redirect location =>
          refine ⟨h, le_rfl, ?_⟩
          rintro res ⟨⟩
  | succ n ih =>
      unfold follow
      cases hanswer : servers chain with
      | response r =>
          refine ⟨h, Nat.le_add_right _ _, ?_⟩
          rintro res ⟨⟩
          apply hanswer
      | failed e =>
          refine ⟨h, Nat.le_add_right _ _, ?_⟩
          rintro res ⟨⟩
      | redirect location =>
          obtain ⟨hchain, hlength, hres⟩ := ih (h.redirect hanswer)
          refine ⟨hchain, ?_, hres⟩
          rw [List.length_append, List.length_singleton] at hlength
          simp only
          omega

/-- The client starts with the request it is given. -/
theorem execute_spec {client : Client} {r : ClientRequest} {sent : List Uri}
    {outcome : Except String ClientResponse} (h : client.execute servers r = (sent, outcome)) :
  Redirected servers [r.uri] sent ∧ sent.length ≤ 1 + client.redirectLimit
    ∧ ∀ res, outcome = .ok res → servers sent = .response res
  := by
  have hspec := follow_spec client.redirectLimit (.start : Redirected servers [r.uri] [r.uri])
  rw [execute] at h
  rw [h] at hspec
  apply hspec

end Client

/-! ### The requests of the guests -/

/-- The policy has a rule for the host, or denies nothing by default. -/
def EgressPolicy.AllowsHost (policy : EgressPolicy) (host : String) : Prop :=
  (∃ rule ∈ policy.allow, patternMatches rule.toList host.toList = true)
    ∨ policy.defaultDeny = false

/-- These are the hosts that `allows` lets through. -/
theorem EgressPolicy.allowsHost_iff {policy : EgressPolicy} {host : String} :
  policy.allows host = true ↔ policy.AllowsHost host
  := by
  simp [allows, AllowsHost, or_iff_not_imp_left]

/-- The requests that are refused under a policy and a limit for the body, with the status of the
error. -/
inductive OutboundRequest.Refused (policy : EgressPolicy) (maxBody : ℕ) (req : OutboundRequest) :
    ℕ → Prop
  | unaddressed (hhost : req.uri.host = none) : Refused policy maxBody req 500
  | denied {host : String} (hhost : req.uri.host = some host) (hdenied : ¬policy.AllowsHost host) :
      Refused policy maxBody req 403
  | unread {host : String} (hhost : req.uri.host = some host) (hallowed : policy.AllowsHost host)
      (hbody : req.body = none) : Refused policy maxBody req 500
  | oversized {host : String} {bytes : Bytes} (hhost : req.uri.host = some host)
      (hallowed : policy.AllowsHost host) (hbody : req.body = some bytes)
      (hlong : maxBody < bytes.length) : Refused policy maxBody req 413

/-- A request of a guest to the outside: what the servers answer, the requests the client sent
for it, and what the guest gets. -/
structure Sending where
  request : OutboundRequest
  servers : Servers
  sent : List Uri
  reply : Except HttpError ClientResponse

/-- Send a request through the bridge of a context. -/
def HostCtx.send (ctx : HostCtx) (servers : Servers) (fault : Option String)
    (request : OutboundRequest) : Sending :=
  let result := ctx.egress.sendRequest servers fault request
  { request, servers, sent := result.1, reply := result.2 }

/-- What can come of a request of a guest under a policy and a limit for the body. -/
inductive Sending.Lawful (policy : EgressPolicy) (maxBody : ℕ) (e : Sending) : Prop
  /-- The request is refused, and nothing is sent. -/
  | refused {err : HttpError} (hreply : e.reply = .error err)
      (hrefused : e.request.Refused policy maxBody err.status) (hsent : e.sent = [])
  /-- The request is sent to its host, and on along at most five redirects. -/
  | sent {host : String} {bytes : Bytes} (hhost : e.request.uri.host = some host)
      (hallowed : policy.AllowsHost host) (hbody : e.request.body = some bytes)
      (hshort : bytes.length ≤ maxBody)
      (hchain : Redirected e.servers [e.request.uri] e.sent) (hlength : e.sent.length ≤ 6)
      (herror : ∀ err, e.reply = .error err → err.status = 502)
      (hreply : ∀ res, e.reply = .ok res →
        ∃ answer, e.servers e.sent = .response answer
          ∧ res.status = answer.status ∧ res.body = answer.body)

namespace HttpBridge

variable {limits : SandboxLimits} {bridge : HttpBridge} {req : OutboundRequest}

/-- The requests that are not handed to the client are refused under the limits. -/
theorem Enforces.refused (h : bridge.Enforces limits) {err : HttpError}
    (herr : bridge.handOver req = .error err) :
  req.Refused limits.egressPolicy limits.maxBodyBytes err.status
  := by
  cases hauthority : req.uri.authority with
  | none =>
      simp only [handOver, hauthority] at herr
      obtain rfl := Except.error.inj herr
      apply OutboundRequest.Refused.unaddressed
      rw [Uri.host, hauthority]
      rfl
  | some authority =>
      have hhost : req.uri.host = some authority.host := by
        rw [Uri.host, hauthority]
        rfl
      cases hallows : bridge.policy.allows authority.host with
      | false =>
          simp only [handOver, hauthority, hallows] at herr
          obtain rfl := Except.error.inj herr
          apply OutboundRequest.Refused.denied hhost
          rw [← EgressPolicy.allowsHost_iff, ← h.policy, hallows]
          apply Bool.false_ne_true
      | true =>
          have hallowed : limits.egressPolicy.AllowsHost authority.host := by
            rw [← EgressPolicy.allowsHost_iff, ← h.policy, hallows]
          cases hbody : req.body with
          | none =>
              simp only [handOver, hauthority, hallows, hbody] at herr
              obtain rfl := Except.error.inj herr
              exact .unread hhost hallowed hbody
          | some bytes =>
              simp only [handOver, hauthority, hallows, hbody, h.body] at herr
              by_cases hlong : limits.maxBodyBytes < bytes.length
              · rw [if_neg (by decide), if_pos hlong] at herr
                obtain rfl := Except.error.inj herr
                exact .oversized hhost hallowed hbody hlong
              · rw [if_neg (by decide), if_neg hlong] at herr
                cases herr

/-- What `send_request` does with a request is lawful under the limits the bridge enforces. -/
theorem Enforces.lawful (h : bridge.Enforces limits) (servers : Servers) (fault : Option String)
    (req : OutboundRequest) :
  Sending.Lawful limits.egressPolicy limits.maxBodyBytes
    { request := req
      servers
      sent := (bridge.sendRequest servers fault req).1
      reply := (bridge.sendRequest servers fault req).2 }
  := by
  cases hover : bridge.handOver req with
  | error err =>
      have hresult : bridge.sendRequest servers fault req = ([], .error err) := by
        simp [sendRequest, send, hover]
      rw [hresult]
      exact .refused rfl (h.refused hover) rfl
  | ok r =>
      obtain ⟨huri, -⟩ := allowsUri_of_handOver hover
      obtain ⟨authority, bytes, hauthority, hallows, hbody, hshort, -⟩ := handOver_ok.mp hover
      have hhost : req.uri.host = some authority.host := by
        rw [Uri.host, hauthority]
        rfl
      rw [h.policy, EgressPolicy.allowsHost_iff] at hallows
      rw [h.body] at hshort
      rcases hexecute : bridge.client.execute servers r with ⟨sent, outcome⟩
      obtain ⟨hchain, hlength, hanswer⟩ := Client.execute_spec hexecute
      rw [huri] at hchain
      rw [h.client] at hlength
      cases outcome with
      | error e =>
          have hresult : bridge.sendRequest servers fault req
              = (sent, .error { status := 502, message := s!"outbound request failed: {e}" }) := by
            simp [sendRequest, send, hover, hexecute]
          rw [hresult]
          refine .sent hhost hallows hbody hshort hchain hlength ?_ ?_
          · rintro err ⟨⟩
            rfl
          · rintro res ⟨⟩
      | ok res =>
          cases fault with
          | some e =>
              have hresult : bridge.sendRequest servers (some e) req
                  = (sent, .error
                    { status := 502
                      message := s!"failed to read outbound response: {e}" }) := by
                simp [sendRequest, send, hover, hexecute]
              rw [hresult]
              refine .sent hhost hallows hbody hshort hchain hlength ?_ ?_
              · rintro err ⟨⟩
                rfl
              · rintro res ⟨⟩
          | none =>
              have hresult : bridge.sendRequest servers none req
                  = (sent, .ok
                    { status := res.status
                      headers := copyHeaders ⟨[]⟩ res.headers.entries
                      body := res.body }) := by
                simp [sendRequest, send, hover, hexecute]
              rw [hresult]
              refine .sent hhost hallows hbody hshort hchain hlength ?_ ?_
              · rintro err ⟨⟩
              · rintro _ ⟨⟩
                exact ⟨res, hanswer res rfl, rfl, rfl⟩

end HttpBridge

/-! ### The server and the outside -/

/-- The server and its guests, with the requests the guests of each tenant have sent. -/
structure Networked (κ : Type) where
  hosted : Hosted κ
  sendings : ℕ → List Sending

/-- The steps of the server and its guests, and the requests of the guests to the outside. -/
inductive NetworkedAction where
  | hosted (a : HostedAction)
  /-- The guest that invocation `i` of the tenant `r` runs sends a request.  `fault` is the error
  of reading the body of the response. -/
  | outbound (r i : ℕ) (servers : Servers) (fault : Option String) (request : OutboundRequest)

variable {κ : Type} (C : Crates κ)

namespace Networked

/-- A server whose guests have sent nothing. -/
def start (server : Server κ) : Networked κ where
  hosted := { server, log := fun _ => [] }
  sendings _ := []

/-- The guest of invocation `i` of the tenant `r` sends a request. -/
def outbound (n : Networked κ) (r i : ℕ) (servers : Servers) (fault : Option String)
    (request : OutboundRequest) : Option (Networked κ) :=
  match n.hosted.server.objects[r]? with
  | none => none
  | some o =>
      match (o.calls.calls i).running with
      | none => none
      | some p =>
          let sending := p.store.data.send servers fault request
          some { n with sendings := Function.update n.sendings r (sending :: n.sendings r) }

/-- One step. -/
def step (n : Networked κ) : NetworkedAction → Option (Networked κ)
  | .hosted a => (n.hosted.step C a).map fun hosted => { n with hosted }
  | .outbound r i servers fault request => n.outbound r i servers fault request

end Networked

/-- The server, its guests and the outside as a machine. -/
def networkedMachine : Machine (Networked κ) NetworkedAction where
  step := Networked.step C

/-- A running guest was started with a context of the tenant. -/
theorem Invocations.Outfitted.running {cfg : TenantConfig} {s : Invocations κ}
    (hs : s.Outfitted cfg) {i : ℕ} {p : Prepared κ} (hp : (s.calls i).running = some p) :
  p.store.data.MadeFor cfg
  := by
  apply And.left
  apply hs.stored
  right
  use i
  apply Phase.held_of_running hp

/-- The tenant is the one of an entry, and its guests sent what the entry allows. -/
def Served.Lawful (cfgs : List TenantConfig) (o : Served κ) (sendings : List Sending) : Prop :=
  ∃ cfg ∈ cfgs, o.calls.Outfitted cfg
    ∧ ∀ e ∈ sendings, e.Lawful cfg.limits.egressPolicy cfg.limits.maxBodyBytes

/-- All tenants are of entries, and their guests sent what these allow. -/
structure Networked.Lawful (cfgs : List TenantConfig) (n : Networked κ) : Prop where
  tenants : ∀ r (o : Served κ), n.hosted.server.objects[r]? = some o → o.Lawful cfgs (n.sendings r)
  empty : ∀ r, n.hosted.server.objects[r]? = none → n.sendings r = []

/-- When the action loads a tenant, it is one of the entries. -/
def NetworkedAction.LoadsFrom (cfgs : List TenantConfig) : NetworkedAction → Prop
  | .hosted (.server a) => Server.LoadsFrom cfgs a
  | _ => True

/-- What the guests write to the scratch files changes nothing else about their tenant. -/
theorem Invocations.Outfitted.setScratch {cfg : TenantConfig} {o : Served κ}
    (ho : o.calls.Outfitted cfg) (scratch : MemFs) :
  (o.setScratch scratch).calls.Outfitted cfg
  := by
  apply ho.of_eq (t := (o.setScratch scratch).calls) rfl rfl rfl

namespace Networked

variable {cfgs : List TenantConfig} {n n' : Networked κ}

/-- A step of the server keeps what the guests have sent lawful. -/
theorem Lawful.server {a : ServerAction} {server : Server κ} (hn : n.Lawful cfgs)
    (ha : Server.LoadsFrom cfgs a) (h : n.hosted.server.step C a = some server) :
  Lawful cfgs { n with hosted := { n.hosted with server } }
  := by
  constructor
  · intro r o' ho'
    cases hold : n.hosted.server.objects[r]? with
    | none =>
        obtain ⟨-, env, cfg, tenant, rfl, hactivate, rfl⟩ := Server.appears C h ho' hold
        use cfg, ha, Invocations.Outfitted.init C hactivate
        simp only [hn.empty r hold]
        apply List.forall_mem_nil
    | some o =>
        obtain ⟨o'', ho'', hevolved⟩ := Server.evolves C h hold
        obtain rfl := Option.some.inj (ho'.symm.trans ho'')
        obtain ⟨cfg, hcfg, ho, hsendings⟩ := hn.tenants r o hold
        exact ⟨cfg, hcfg, hevolved.outfitted C ho, hsendings⟩
  · intro r hnone
    apply hn.empty r
    cases hold : n.hosted.server.objects[r]? with
    | none => rfl
    | some o =>
        obtain ⟨o', ho', -⟩ := Server.evolves C h hold
        cases hnone.symm.trans ho'

/-- A call of a guest on the host keeps what the guests have sent lawful. -/
theorem Lawful.host {r i : ℕ} {call : HostCall} {hosted : Hosted κ} (hn : n.Lawful cfgs)
    (h : n.hosted.host r i call = some hosted) :
  Lawful cfgs { n with hosted }
  := by
  rw [Hosted.host] at h
  split at h
  · cases h
  next o ho =>
    split at h
    · cases h
    next p hp =>
      obtain rfl := Option.some.inj h
      constructor
      · intro r' o' ho'
        obtain rfl | hne := eq_or_ne r' r
        · rw [List.getElem?_set_self (List.getElem?_eq_some_iff.mp ho).1] at ho'
          obtain rfl := Option.some.inj ho'
          obtain ⟨cfg, hcfg, hoc, hsendings⟩ := hn.tenants r' o ho
          exact ⟨cfg, hcfg, hoc.setScratch _, hsendings⟩
        · rw [List.getElem?_set_ne hne.symm] at ho'
          apply hn.tenants r' o' ho'
      · intro r' hnone
        apply hn.empty r'
        rw [List.getElem?_eq_none_iff] at hnone ⊢
        rw [List.length_set] at hnone
        apply hnone

/-- A request of a guest to the outside is lawful. -/
theorem Lawful.outbound {r i : ℕ} {servers : Servers} {fault : Option String}
    {request : OutboundRequest} (hn : n.Lawful cfgs)
    (h : n.outbound r i servers fault request = some n') :
  n'.Lawful cfgs
  := by
  rw [Networked.outbound] at h
  split at h
  · cases h
  next o ho =>
    split at h
    · cases h
    next p hp =>
      obtain rfl := Option.some.inj h
      constructor
      · intro r' o' ho'
        obtain rfl | hne := eq_or_ne r' r
        · obtain rfl := Option.some.inj (ho.symm.trans ho')
          obtain ⟨cfg, hcfg, hoc, hsendings⟩ := hn.tenants r' o ho
          use cfg, hcfg, hoc
          simp only [Function.update_self]
          rw [List.forall_mem_cons]
          constructor
          · apply (hoc.running hp).egress.lawful
          · apply hsendings
        · simp only [Function.update_of_ne hne]
          apply hn.tenants r' o' ho'
      · intro r' hnone
        have hne : r' ≠ r := by
          rintro rfl
          cases hnone.symm.trans ho
        simp only [Function.update_of_ne hne]
        apply hn.empty r' hnone

/-- Every step keeps what the guests have sent lawful. -/
theorem Lawful.step {a : NetworkedAction} (hn : n.Lawful cfgs) (ha : a.LoadsFrom cfgs)
    (h : n.step C a = some n') :
  n'.Lawful cfgs
  := by
  cases a with
  | hosted a =>
      obtain ⟨hosted, hstep, rfl⟩ := Option.map_eq_some_iff.mp h
      cases a with
      | server a =>
          obtain ⟨server, hserver, rfl⟩ := Option.map_eq_some_iff.mp hstep
          apply hn.server C ha hserver
      | host r i call => apply hn.host hstep
  | outbound r i servers fault request => apply hn.outbound h

/-- A run that loads no other entry keeps what the guests have sent lawful. -/
theorem Lawful.run {actions : List NetworkedAction} (hn : n.Lawful cfgs)
    (hactions : ∀ a ∈ actions, a.LoadsFrom cfgs)
    (hrun : (networkedMachine C).run n actions = some n') :
  n'.Lawful cfgs
  := by
  apply (networkedMachine C).run_induct _ hn _ hrun
  · exact fun _ a => a.LoadsFrom cfgs
  · intro n a n' hn ha h
    apply hn.step C ha h
  · apply (networkedMachine C).meets_of_forall_mem hactions

/-- A server whose tenants are outfitted, and whose guests have sent nothing. -/
theorem Lawful.start {server : Server κ} (h : server.Outfitted cfgs) :
  Lawful cfgs (start server)
  := by
  constructor
  · intro r o ho
    obtain ⟨cfg, hcfg, hoc⟩ := h o (List.mem_of_getElem? ho)
    exact ⟨cfg, hcfg, hoc, List.forall_mem_nil _⟩
  · intro r _
    rfl

end Networked

/-- Load a configuration, build a runtime from it and serve.  In every run without further loads,
however reload passes, invocations, calls of the guests on the host and requests of the guests to
the outside interleave, and whatever the contacted servers answer: what came of each request of a
guest is what the entry of its tenant in the file allows.  Either it was refused, for the first
reason that applies, and nothing was sent; or its host is one the entry allows and its body fits,
it was sent there, and every further server was named by a redirect of those before it. -/
theorem started_egress {host : LoadHost} {path : Option String} {config : Config}
    (hload : Config.load host path = .ok config) {env : BuildEnv}
    (hclock : LoadsClocked 0 env.load config.tenants) {rt : Runtime κ}
    (hbuild : Runtime.build C config env = .ok rt) :
  ∃ read s, Config.ReadFrom host path read
    ∧ (serverMachine C).run (Server.new rt.registry rt.policy)
        (startActions env.load config.tenants) = some s
    ∧ s.pass = .idle ∧ s.Represents rt
    ∧ ∀ serving n, (∀ a ∈ serving, ∀ env cfg, a ≠ .hosted (.server (.load env cfg))) →
        (networkedMachine C).run (Networked.start s) serving = some n →
        ∀ r o, n.hosted.server.objects[r]? = some o →
          ∃ entry ∈ read.tenants, o.calls.tenant.id.name = entry.name
            ∧ ∀ e ∈ n.sendings r, e.Lawful entry.limits.egressPolicy entry.limits.maxBodyBytes
  := by
  obtain ⟨read, s, hread, hrun, hidle, hs, hstarted, hwritten⟩ :=
    started_of_load C hload hclock hbuild
  refine ⟨read, s, hread, hrun, hidle, hs, ?_⟩
  intro serving n hserving hrun' r o ho
  have hloads : ∀ a ∈ serving, a.LoadsFrom config.tenants := by
    intro a ha
    cases a with
    | outbound r i servers fault request => trivial
    | hosted a =>
        cases a with
        | host r i call => trivial
        | server a =>
            cases a with
            | load env cfg => exact absurd rfl (hserving _ ha env cfg)
            | _ => trivial
  have hlawful := (Networked.Lawful.start hstarted).run C hloads hrun'
  obtain ⟨cfg, hcfg, hoc, hsendings⟩ := hlawful.tenants r o ho
  obtain ⟨written, hmem, hclamped⟩ := hwritten cfg hcfg
  rw [hclamped.same] at hoc hsendings
  refine ⟨written, hmem, ?_, hsendings⟩
  apply TenantId.new_ok.mp hoc.tenant.id

/-- A host with one configuration file, with a tenant that may send to `api.example.com`. -/
def outboundHost : LoadHost :=
  { echoHost with
    parse _ := .ok (.table
      [("tenants", .array [.table
        [("name", .string "echo"),
          ("component", .table [("kind", .string "file"), ("path", .string "echo.wasm")]),
          ("limits", .table [("egress_allow", .array [.string "api.example.com"])])]])]) }

/-- A request for `http://other.example.com/`. -/
def otherRequest : OutboundRequest :=
  { HttpBridge.sampleRequest with
    uri :=
      { HttpBridge.sampleRequest.uri with
        authority := some { userinfo := none, host := "other.example.com", port := none } } }

/-- Servers that redirect the first request to `http://other.example.com/`. -/
def redirectingServers : Servers := fun chain =>
  if chain.length = 1 then .redirect otherRequest.uri else .response ⟨200, ⟨[]⟩, []⟩

/-- The guest of the tenant sends a request to `other.example.com`, and one to
`api.example.com`. -/
def outboundRun : List NetworkedAction :=
  (guestRun 0 []).map .hosted
    ++ [.outbound 0 0 redirectingServers none otherRequest,
      .outbound 0 0 redirectingServers none HttpBridge.sampleRequest]

/-- The first request is refused.  The second one is redirected to the server that the first one
was refused to. -/
theorem started_egress_echo :
  ∃ config rt read, ∃ s : Server Bytes, ∃ n,
    Config.load outboundHost (some "ember.toml") = .ok config
    ∧ Runtime.build sampleCrates config fileBuildEnv = .ok rt ∧ s.Represents rt
    ∧ (networkedMachine sampleCrates).run (Networked.start s) outboundRun = some n
    ∧ (n.sendings 0).map Sending.sent = [[HttpBridge.sampleRequest.uri, otherRequest.uri], []]
    ∧ Config.ReadFrom outboundHost (some "ember.toml") read
    ∧ ∃ entry ∈ read.tenants, ∀ e ∈ n.sendings 0,
        e.Lawful entry.limits.egressPolicy entry.limits.maxBodyBytes
  := by
  have hview : ((Config.load outboundHost (some "ember.toml")).toOption.bind fun config =>
      (Runtime.build sampleCrates config fileBuildEnv).toOption.bind fun rt =>
        ((serverMachine sampleCrates).run (Server.new rt.registry rt.policy)
            (startActions fileBuildEnv.load config.tenants)).bind fun s =>
          ((networkedMachine sampleCrates).run (Networked.start s) outboundRun).map fun n =>
            (n.hosted.server.objects[0]?.isSome, (n.sendings 0).map Sending.sent))
      = some (true, [[HttpBridge.sampleRequest.uri, otherRequest.uri], []]) := by
    decide +kernel
  obtain ⟨config, hconfig, hview⟩ := Option.bind_eq_some_iff.mp hview
  obtain ⟨rt, hrt, hview⟩ := Option.bind_eq_some_iff.mp hview
  obtain ⟨s, hs, hview⟩ := Option.bind_eq_some_iff.mp hview
  obtain ⟨n, hn, hview⟩ := Option.map_eq_some_iff.mp hview
  obtain ⟨hsome, hsent⟩ := Prod.mk.inj hview
  obtain ⟨o, ho⟩ := Option.isSome_iff_exists.mp hsome
  rw [Except.toOption_eq_some] at hconfig hrt
  obtain ⟨read, s', hread, hs', -, hrep, hserved⟩ :=
    started_egress sampleCrates hconfig (loadsClocked_file config.tenants) hrt
  obtain rfl := Option.some.inj (hs.symm.trans hs')
  have hserving : ∀ a ∈ outboundRun, ∀ env cfg, a ≠ .hosted (.server (.load env cfg)) := by
    simp [outboundRun, guestRun]
  obtain ⟨entry, hentry, -, hlawful⟩ := hserved outboundRun n hserving hn 0 o ho
  exact ⟨config, rt, read, s, n, hconfig, hrt, hrep, hn, hsent, hread, entry, hentry, hlawful⟩

end Ember
