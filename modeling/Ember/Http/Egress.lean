import Ember.Http.Bridge

/-!
# What the egress path enforces

The documentation of the bridge promises that every outbound request is filtered before it leaves
the process.  Here we say which requests are handed to the client, and determine for which requests
and which servers the egress path keeps this promise.  At the end we determine which requests reach
the client as the guest made them.
-/

namespace Ember

/-- Under a policy that denies by default, a host is allowed when some rule matches it. -/
theorem EgressPolicy.allows_of_defaultDeny {policy : EgressPolicy}
    (hdeny : policy.defaultDeny = true) (authority : String) :
  policy.allows authority = true
    ↔ ∃ rule ∈ policy.allow, patternMatches rule.toList authority.toList = true
  := by
  simp [allows, hdeny]

namespace HttpBridge

/-- Some request is handed to the client exactly when the policy allows the host alone and
the body fits: neither the scheme nor the port of the request takes part. -/
theorem handOver_isOk {bridge : HttpBridge} {req : OutboundRequest} {h : String}
    (hhost : req.uri.host = some h) :
  (∃ r, bridge.handOver req = .ok r) ↔ bridge.policy.allows h = true ∧ bridge.BodyFits req
  := by
  obtain ⟨authority, hauthority, rfl⟩ := Option.map_eq_some_iff.mp hhost
  constructor
  · rintro ⟨r, hr⟩
    obtain ⟨authority', bytes, hauthority', hallows, hbody, hlen, -⟩ := handOver_ok.mp hr
    obtain rfl := Option.some.inj (hauthority.symm.trans hauthority')
    exact ⟨hallows, bytes, hbody, hlen⟩
  · rintro ⟨hallows, bytes, hbody, hlen⟩
    exact ⟨_, handOver_ok.mpr ⟨authority, bytes, hauthority, hallows, hbody, hlen, rfl⟩⟩

/-- A bridge with the given allow rules. -/
def sampleBridge (allow : List String) : HttpBridge where
  client := {}
  policy := { allow }
  connectTimeout := .ofSecs 3
  maxBodyBytes := 1024

/-- A request for `http://api.example.com/`, with an empty body. -/
def sampleRequest : OutboundRequest where
  method := .get
  uri :=
    { scheme := some "http"
      authority := some { userinfo := none, host := "api.example.com", port := none }
      path := "/"
      query := none }
  headers := ⟨[]⟩
  body := some []

end HttpBridge

/-! ### Redirects -/

/-- Requests to `u` are allowed by the policy. -/
def EgressPolicy.AllowsUri (policy : EgressPolicy) (u : Uri) : Prop :=
  ∀ h, u.host = some h → policy.allows h = true

/-- The redirects that follow the requests `chain`, up to `n` of them, all lead to hosts that
the policy allows. -/
def EgressPolicy.RedirectsAllowed (policy : EgressPolicy) (servers : Servers) :
    ℕ → List Uri → Prop
  | 0, _ => True
  | n + 1, chain =>
      ∀ location, servers chain = .redirect location →
        policy.AllowsUri location
          ∧ RedirectsAllowed policy servers n (chain ++ [location])

/-- The client sends requests to allowed hosts only exactly when the first requests of the
chain are allowed and so are the redirects that follow. -/
theorem Client.follow_allowed_iff {policy : EgressPolicy} {servers : Servers} (n : ℕ)
    (chain : List Uri) :
  (∀ u ∈ (Client.follow servers n chain).1, policy.AllowsUri u)
    ↔ (∀ u ∈ chain, policy.AllowsUri u) ∧ policy.RedirectsAllowed servers n chain
  := by
  -- the chain grows by the location of each redirect, the limit decreases with it
  induction n generalizing chain with
  | zero =>
      unfold Client.follow
      cases servers chain
      all_goals simp [EgressPolicy.RedirectsAllowed]
  | succ n ih =>
      unfold Client.follow
      cases hanswer : servers chain with
      | response r => simp [EgressPolicy.RedirectsAllowed, hanswer]
      | failed e => simp [EgressPolicy.RedirectsAllowed, hanswer]
      | redirect location =>
          simp only [ih, EgressPolicy.RedirectsAllowed, hanswer, List.mem_append,
            List.mem_singleton, Answer.redirect.injEq, forall_eq', or_imp, forall_and,
            forall_eq, and_assoc]

namespace HttpBridge

/-- A request that is handed to the client goes to an allowed host. -/
theorem allowsUri_of_handOver {bridge : HttpBridge} {req : OutboundRequest} {r : ClientRequest}
    (hr : bridge.handOver req = .ok r) :
  r.uri = req.uri ∧ bridge.policy.AllowsUri req.uri
  := by
  obtain ⟨authority, bytes, hauthority, hallows, -, -, rfl⟩ := handOver_ok.mp hr
  constructor
  · rfl
  · intro h hh
    rw [Uri.host, hauthority, Option.map_some, Option.some.injEq] at hh
    rw [← hh]
    apply hallows

/-- The requests sent while `send` runs are those of the client, if the request is handed to
it, and none otherwise. -/
theorem send_sent (bridge : HttpBridge) (servers : Servers) (req : OutboundRequest) :
  (bridge.send servers req).1
    = match bridge.handOver req with
      | .error _ => []
      | .ok r => (bridge.client.execute servers r).1
  := by
  unfold send
  cases bridge.handOver req with
  | error e => rfl
  | ok r =>
      rcases hexecute : bridge.client.execute servers r with ⟨sent, outcome⟩
      cases outcome
      all_goals simp [hexecute]

/-- Every host a request is sent to while `send` runs is allowed by the policy exactly when
the request is refused (its URI has no host, or one that the policy does not allow, or its
body does not fit), or the first redirects that the servers answer with, as many as the
client follows, all lead to hosts that the policy allows. -/
theorem send_allowed_iff (bridge : HttpBridge) (servers : Servers) (req : OutboundRequest) :
  (∀ u ∈ (bridge.send servers req).1, bridge.policy.AllowsUri u)
    ↔ ((∃ h, req.uri.host = some h ∧ bridge.policy.allows h = true) → bridge.BodyFits req →
        bridge.policy.RedirectsAllowed servers bridge.client.redirectLimit [req.uri])
  := by
  rw [send_sent]
  cases hreq : bridge.handOver req with
  | error e =>
      simp only [List.not_mem_nil, false_implies, implies_true, true_iff]
      rintro ⟨h, hhost, hallows⟩ hbody
      obtain ⟨r, hr⟩ := (handOver_isOk hhost).mpr ⟨hallows, hbody⟩
      rw [hreq] at hr
      cases hr
  | ok r =>
      obtain ⟨huri, hallowed⟩ := allowsUri_of_handOver hreq
      simp only [Client.execute, Client.follow_allowed_iff, huri, List.mem_singleton, forall_eq]
      obtain ⟨authority, bytes, hauthority, hallows, hbody, hlen, -⟩ := handOver_ok.mp hreq
      have hhost : req.uri.host = some authority.host := by rw [Uri.host, hauthority]; rfl
      constructor
      · rintro ⟨-, hredirects⟩ - -
        apply hredirects
      · intro hredirects
        exact ⟨hallowed, hredirects ⟨_, hhost, hallows⟩ ⟨bytes, hbody, hlen⟩⟩

/-- With the single rule `api.example.com`, an upstream that redirects to the link-local
address `169.254.169.254` makes the process send a request there. -/
theorem send_redirect_denied_host :
  let bridge := sampleBridge ["api.example.com"]
  let metadata : Uri :=
    { scheme := some "http"
      authority := some { userinfo := none, host := "169.254.169.254", port := none }
      path := "/"
      query := none }
  let servers : Servers := fun chain =>
    if chain.length = 1 then .redirect metadata else .response ⟨200, ⟨[]⟩, []⟩
  bridge.policy.defaultDeny = true
    ∧ ¬∀ u ∈ (bridge.send servers sampleRequest).1, bridge.policy.AllowsUri u
  := by
  intro bridge metadata servers
  constructor
  · rfl
  · intro hallowed
    have hsent : metadata ∈ (bridge.send servers sampleRequest).1 := by decide
    have hdenied : bridge.policy.allows "169.254.169.254" = false := by decide
    have := hallowed metadata hsent _ rfl
    rw [hdenied] at this
    cases this

end HttpBridge

/-! ### What the client is handed -/

/-- The headers of a client request, as names and the bytes of their values. -/
def ClientRequest.headerPairs (r : ClientRequest) : List (String × Bytes) :=
  r.headers.map fun (name, value) => (name, value.toUTF8.toList)

/-- The headers of a request of a guest, as names and the bytes of their values. -/
def OutboundRequest.headerPairs (req : OutboundRequest) : List (String × Bytes) :=
  req.headers.entries.map fun (name, value) => (name.text, value.bytes)

/-- The client request says what the request of the guest said. -/
structure ClientRequest.Carries (r : ClientRequest) (req : OutboundRequest) : Prop where
  method : r.method = req.method
  uri : r.uri = req.uri
  headers : r.headerPairs.Perm req.headerPairs
  body : some r.body = req.body

/-- The methods that reqwest is asked for by name. -/
def forwardedMethods : List Method := [.get, .post, .put, .delete, .patch, .head, .options]

/-- The other methods become `GET`. -/
theorem methodToReqwest_eq_self {m : Method} :
  methodToReqwest m = m ↔ m ∈ forwardedMethods
  := by
  cases m
  all_goals simp [methodToReqwest, forwardedMethods]

namespace HttpBridge

/-- A request that is handed to the client is handed on as it was exactly when it has no header
and its method is one of the seven that are forwarded. -/
theorem handOver_carries_iff {bridge : HttpBridge} {req : OutboundRequest} {r : ClientRequest}
    (h : bridge.handOver req = .ok r) :
  r.Carries req ↔ req.method ∈ forwardedMethods ∧ req.headers.entries = []
  := by
  obtain ⟨authority, bytes, -, -, hbody, -, rfl⟩ := handOver_ok.mp h
  constructor
  · intro hcarries
    constructor
    · apply methodToReqwest_eq_self.mp hcarries.method
    · apply List.map_eq_nil_iff.mp
      apply List.nil_perm.mp hcarries.headers
  · rintro ⟨hmethod, hheaders⟩
    refine ⟨methodToReqwest_eq_self.mpr hmethod, rfl, ?_, hbody.symm⟩
    rw [OutboundRequest.headerPairs, hheaders]
    apply List.Perm.nil

/-- The request for `http://api.example.com/` is handed on as it was. -/
theorem handOver_carries_bare :
  ∃ r, (sampleBridge ["api.example.com"]).handOver sampleRequest = .ok r
    ∧ r.Carries sampleRequest
  := by
  obtain ⟨r, hr⟩ : ∃ r, (sampleBridge ["api.example.com"]).handOver sampleRequest = .ok r :=
    ⟨_, rfl⟩
  use r, hr
  apply (handOver_carries_iff hr).mpr
  decide

/-- A `PROPFIND` request with a header is handed on as a `GET` request without headers. -/
theorem handOver_drops :
  let req : OutboundRequest :=
    { sampleRequest with
      method := .extension "PROPFIND"
      headers := ⟨[(⟨"depth", by decide⟩, ⟨[49], by decide⟩)]⟩ }
  ∃ r, (sampleBridge ["api.example.com"]).handOver req = .ok r
    ∧ r.method = .get ∧ r.headerPairs = [] ∧ ¬r.Carries req
  := by
  intro req
  refine ⟨_, rfl, rfl, rfl, ?_⟩
  intro hcarries
  have hmethod := hcarries.method
  revert hmethod
  rintro ⟨⟩

end HttpBridge

end Ember
