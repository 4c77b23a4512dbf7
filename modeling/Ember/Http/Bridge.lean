import Ember.Http.Types

/-!
# The egress bridge

`EgressPolicy` is the allowlist of one tenant: rules of the form `[scheme://]host[:port]`
with `*` wildcards in the host.  `HttpBridge.send` checks the host of an outbound request
against it and hands the request to an HTTP client, which follows redirects by itself.

The matching functions work on the characters of the texts they are given.
-/

namespace Ember

/-- The characters of a text. -/
abbrev Text := List Char

/-- Egress allowlist for one tenant. -/
structure EgressPolicy where
  /-- Each rule is a bare host, `scheme://host`, `host:port`, or a wildcard host. -/
  allow : List String := []
  /-- Whether hosts not matched by `allow` are refused. -/
  defaultDeny : Bool := true
  deriving DecidableEq, Repr

/-- Split at the first occurrence of `pat`. -/
def splitFirst (pat : Text) : Text → Option (Text × Text)
  | [] => if pat = [] then some ([], []) else none
  | c :: cs =>
      if pat.isPrefixOf (c :: cs) then some ([], (c :: cs).drop pat.length)
      else (splitFirst pat cs).map fun p => (c :: p.1, p.2)

/-- `str::rsplit_once`: split at the last occurrence of `c`. -/
def rsplitOnce (c : Char) : Text → Option (Text × Text)
  | [] => none
  | x :: xs =>
      match rsplitOnce c xs with
      | some p => some (x :: p.1, p.2)
      | none => if x = c then some ([], xs) else none

/-- Split `scheme://` off, returning the scheme and the remainder. -/
def splitScheme (s : Text) : Option Text × Text :=
  match splitFirst "://".toList s with
  | some (scheme, rest) => (some scheme, rest)
  | none => (none, s)

/-- Split `host[:port]` into its two components. -/
def splitAuthority (s : Text) : Text × Option Text :=
  match rsplitOnce ':' s with
  | some (host, port) => if host.contains ']' then (s, none) else (host, some port)
  | none => (s, none)

/-- `str::eq_ignore_ascii_case`. -/
def eqIgnoreAsciiCase (a b : Text) : Bool := a.map Char.toLower == b.map Char.toLower

/-- Wildcard host matching: `*` matches a single label, `*.x.y` matches `x.y` and any
subdomain of it, other hosts match label by label. -/
def hostMatches (pattern host : Text) : Bool :=
  let p := pattern.splitOn '.'
  let h := host.splitOn '.'
  if p = [['*']] then true
  else if p.head? = some ['*'] then
    let suffix := p.tail
    suffix.length ≤ h.length
      && ((h.drop (h.length - suffix.length)).zip suffix).all fun (a, b) => eqIgnoreAsciiCase a b
  else
    p.length = h.length && (p.zip h).all fun (a, b) => a = ['*'] || eqIgnoreAsciiCase a b

/-- Match an allow rule against a requested authority. -/
def patternMatches (rule authority : Text) : Bool :=
  let (ruleScheme, rule) := splitScheme rule
  let (targetScheme, target) := splitScheme authority
  let schemesDiffer :=
    match ruleScheme, targetScheme with
    | some rs, some ts => !eqIgnoreAsciiCase rs ts
    | _, _ => false
  if schemesDiffer then false
  else
    let (ruleHost, rulePort) := splitAuthority rule
    let (targetHost, targetPort) := splitAuthority target
    let portsDiffer :=
      match rulePort, targetPort with
      | some rp, some tp => rp != tp
      | _, _ => false
    if portsDiffer then false else hostMatches ruleHost targetHost

namespace EgressPolicy

/-- Whether outbound traffic to `authority` is permitted. -/
def allows (policy : EgressPolicy) (authority : String) : Bool :=
  if policy.allow.any fun rule => patternMatches rule.toList authority.toList then true
  else !policy.defaultDeny

end EgressPolicy

/-! ### The HTTP client -/

/-- `reqwest::Client`, with the settings `ClientBuilder::bridge` gives it. -/
structure Client where
  redirectLimit : ℕ := 5
  poolMaxIdlePerHost : ℕ := 16
  poolIdleTimeout : Duration := .ofSecs 60
  tcpKeepalive : Duration := .ofSecs 30
  deriving DecidableEq, Repr

/-- `reqwest::RequestBuilder`. -/
structure ClientRequest where
  method : Method
  uri : Uri
  timeout : Duration
  headers : List (String × String) := []
  body : Bytes := []
  deriving DecidableEq, Repr

/-- `RequestBuilder::header`. -/
def ClientRequest.header (r : ClientRequest) (name value : String) : ClientRequest :=
  { r with headers := r.headers ++ [(name, value)] }

/-- A response from a server. -/
structure ClientResponse where
  status : ℕ
  headers : HeaderMap
  body : Bytes
  deriving DecidableEq

/-- What a server does with a request: answer, redirect, or fail. -/
inductive Answer where
  | response (r : ClientResponse)
  | redirect (location : Uri)
  | failed (reason : String)

/-- The servers of the outside world: the answer to the last of the requests sent so far. -/
abbrev Servers := List Uri → Answer

/-- Send a request to the last URI of `chain` and follow up to `n` redirects.  The first
component is the list of URIs requests were sent to. -/
def Client.follow (servers : Servers) : ℕ → List Uri → List Uri × Except String ClientResponse
  | n, chain =>
      match servers chain with
      | .response r => (chain, .ok r)
      | .failed e => (chain, .error e)
      | .redirect location =>
          match n with
          | 0 => (chain, .error "too many redirects")
          | n + 1 => follow servers n (chain ++ [location])

/-- Execute a request. -/
def Client.execute (client : Client) (servers : Servers) (r : ClientRequest) :
    List Uri × Except String ClientResponse :=
  Client.follow servers client.redirectLimit [r.uri]

/-! ### The bridge -/

/-- The errors a guest sees for an outbound request. -/
structure HttpError where
  status : ℕ
  message : String
  deriving DecidableEq, Repr

/-- An outbound request of a guest.  Its body is `none` when it cannot be read. -/
structure OutboundRequest where
  method : Method
  uri : Uri
  headers : HeaderMap
  body : Option Bytes
  deriving DecidableEq

/-- The egress path of one tenant. -/
structure HttpBridge where
  client : Client
  policy : EgressPolicy
  connectTimeout : Duration
  maxBodyBytes : ℕ
  deriving DecidableEq, Repr

/-- The reqwest method for a method. -/
def methodToReqwest : Method → Method
  | .get => .get
  | .post => .post
  | .put => .put
  | .delete => .delete
  | .patch => .patch
  | .head => .head
  | .options => .options
  | _ => .get

namespace HttpBridge

/-- Build a bridge, where `client` is the outcome of building the reqwest client. -/
def new (client : Except String Unit) (policy : EgressPolicy) (maxBodyBytes : ℕ) :
    Except Error HttpBridge :=
  match client with
  | .error e => .error (.config s!"egress client: {e}")
  | .ok () => .ok { client := {}, policy, connectTimeout := .ofSecs 3, maxBodyBytes }

/-- The header loop of `send`.  `RequestBuilder::header` consumes the builder and returns the
extended one.  The loop drops what it returns, and so moves the builder out of reach of the next
round, which the compiler refuses.  We read it as it is written: the builder stays as it was. -/
def addHeaders (builder : ClientRequest) (headers : HeaderMap) : ClientRequest :=
  headers.entries.foldl
    (fun builder (name, value) =>
      let _ := builder.header name.text (value.toStr.getD "")
      builder)
    builder

/-- The request `send` hands to the client, or the error it returns before that. -/
def handOver (bridge : HttpBridge) (req : OutboundRequest) : Except HttpError ClientRequest :=
  match req.uri.authority with
  | none => .error { status := 500, message := "outbound request missing authority" }
  | some authority =>
      let host := authority.host
      if !bridge.policy.allows host then
        .error { status := 403, message := s!"egress denied for `{host}`" }
      else
        let builder : ClientRequest :=
          { method := methodToReqwest req.method
            uri := req.uri
            timeout := bridge.connectTimeout + .ofSecs 25 }
        let builder := addHeaders builder req.headers
        match req.body with
        | none => .error { status := 500, message := "failed to read outbound body" }
        | some bytes =>
            if bytes.length > bridge.maxBodyBytes then
              let limit := bridge.maxBodyBytes
              .error { status := 413, message := s!"outbound request body exceeds {limit} bytes" }
            else .ok { builder with body := bytes }

/-- The body of `req` can be read and is within the limit of the bridge. -/
def BodyFits (bridge : HttpBridge) (req : OutboundRequest) : Prop :=
  ∃ bytes, req.body = some bytes ∧ bytes.length ≤ bridge.maxBodyBytes

/-- The header loop hands on the builder it was given. -/
theorem addHeaders_eq (builder : ClientRequest) (headers : HeaderMap) :
  addHeaders builder headers = builder
  := by
  obtain ⟨entries⟩ := headers
  simp only [addHeaders]
  induction entries with
  | nil => rfl
  | cons e es ih =>
      rw [List.foldl_cons]
      apply ih

/-- A request is handed to the client exactly when its URI has an authority whose host the
policy allows and its body fits, and then it is sent to its own URI. -/
theorem handOver_ok {bridge : HttpBridge} {req : OutboundRequest} {r : ClientRequest} :
  bridge.handOver req = .ok r
    ↔ ∃ authority bytes, req.uri.authority = some authority
        ∧ bridge.policy.allows authority.host = true
        ∧ req.body = some bytes ∧ bytes.length ≤ bridge.maxBodyBytes
        ∧ r = { method := methodToReqwest req.method, uri := req.uri,
                timeout := bridge.connectTimeout + .ofSecs 25, body := bytes }
  := by
  cases hauthority : req.uri.authority with
  | none => simp [handOver, hauthority]
  | some authority =>
      cases hallows : bridge.policy.allows authority.host with
      | false => simp [handOver, hauthority, hallows]
      | true =>
          cases hbody : req.body with
          | none => simp [handOver, hauthority, hallows, hbody]
          | some bytes =>
              simp only [handOver, hauthority, hallows, hbody, addHeaders_eq]
              by_cases hlen : bytes.length ≤ bridge.maxBodyBytes
              · simp [hlen, hallows, not_lt.mpr hlen, @eq_comm _ r]
              · simp [hlen, not_le.mp hlen]

/-- Execute an outbound request after allowlist filtering.  The first component is the list
of URIs requests were sent to. -/
def send (bridge : HttpBridge) (servers : Servers) (req : OutboundRequest) :
    List Uri × Except HttpError ClientResponse :=
  match bridge.handOver req with
  | .error e => ([], .error e)
  | .ok r =>
      match bridge.client.execute servers r with
      | (sent, .ok response) => (sent, .ok response)
      | (sent, .error e) =>
          (sent, .error { status := 502, message := s!"outbound request failed: {e}" })

/-- The header loop of `send_request`: a header that the builder refuses is left out. -/
def copyHeaders (out : HeaderMap) : List (HeaderName × HeaderValue) → HeaderMap
  | [] => out
  | (name, value) :: rest =>
      match HeaderName.fromBytes name.text, HeaderValue.fromStr (value.toStr.getD "") with
      | some name, some value => copyHeaders ((out.tryAppend name value).getD out) rest
      | _, _ => copyHeaders out rest

/-- Execute an outbound request and read the body of its response, where `fault` is the error
of reading it. -/
def sendRequest (bridge : HttpBridge) (servers : Servers) (fault : Option String)
    (req : OutboundRequest) : List Uri × Except HttpError ClientResponse :=
  match bridge.send servers req with
  | (sent, .error e) => (sent, .error e)
  | (sent, .ok res) =>
      let headers := copyHeaders ⟨[]⟩ res.headers.entries
      match fault with
      | some e =>
          (sent, .error { status := 502, message := s!"failed to read outbound response: {e}" })
      | none => (sent, .ok { status := res.status, headers, body := res.body })

/-- A response is returned exactly when the request is handed to the client, a server answers
it and the body of the answer can be read; then it has the status and the body of the answer. -/
theorem sendRequest_ok {bridge : HttpBridge} {servers : Servers} {fault : Option String}
    {req : OutboundRequest} {out : ClientResponse} :
  (bridge.sendRequest servers fault req).2 = .ok out
    ↔ ∃ r res, bridge.handOver req = .ok r
        ∧ (bridge.client.execute servers r).2 = .ok res
        ∧ fault = none
        ∧ out = { status := res.status, headers := copyHeaders ⟨[]⟩ res.headers.entries,
                  body := res.body }
  := by
  cases hover : bridge.handOver req with
  | error e => simp [sendRequest, send, hover]
  | ok r =>
      rcases hexecute : bridge.client.execute servers r with ⟨sent, outcome⟩
      cases outcome with
      | error e => simp [sendRequest, send, hover, hexecute]
      | ok res =>
          cases fault with
          | some e => simp [sendRequest, send, hover, hexecute]
          | none => simp [sendRequest, send, hover, hexecute, @eq_comm _ out]

end HttpBridge

end Ember
