import Ember.Component.Linker
import Ember.Config

/-!
# The ingress

`Ingress.dispatch` takes a request from the outside to the dispatcher.  It collects the body up
to the limit of the ingress, which is one for all tenants, and reads the id of the tenant from
the path.  What it returns are the arguments the dispatcher is called with; the dispatcher of
the runtime is `invoke`.  An error of either is answered by `Ingress.intoResponse`.
-/

namespace Ember

/-- A request as it arrives.  Its body is an error when it cannot be read. -/
structure IncomingRequest where
  method : Method
  uri : Uri
  headers : HeaderMap
  body : Except String Bytes

namespace Ingress

/-- Collect a body of at most `limit` bytes. -/
def collectLimited (limit : ℕ) (body : Except String Bytes) : Except Error Bytes :=
  match body with
  | .error e => .error (.http e)
  | .ok bytes =>
      if bytes.length > limit then .error (.http "length limit exceeded") else .ok bytes

/-- The header loop of `dispatch`: each pair of the arriving request is appended to the headers
of the builder, which panics when they are full. -/
def copyHeaders (headers : HeaderMap) : List (HeaderName × HeaderValue) → Except Panic HeaderMap
  | [] => .ok headers
  | (name, value) :: rest =>
      match headers.tryAppend name value with
      | none => .error .unwrap
      | some headers => copyHeaders headers rest

/-- Put the parts of a request together again, with the body that was collected. -/
def rebuild (request : IncomingRequest) (bytes : Bytes) : Except Panic HttpRequest :=
  match copyHeaders ⟨[]⟩ request.headers.entries with
  | .error panic => .error panic
  | .ok headers =>
      .ok { method := request.method, uri := request.uri, headers, body := bytes }

/-- Route one request for a tenant into the dispatcher.  The parts of the request come from a
request, so the builder accepts them again: what is handed on is what `rebuild` returns. -/
def dispatch (config : HttpConfig) (tenant : String) (request : IncomingRequest) :
    Except Error (TenantId × HttpRequest) :=
  match collectLimited config.maxBodyBytes request.body with
  | .error e => .error e
  | .ok bytes =>
      match TenantId.parse tenant with
      | .error e => .error e
      | .ok id =>
          .ok
            (id,
              { method := request.method
                uri := request.uri
                headers := request.headers
                body := bytes })

/-- The JSON body of an error. -/
structure ErrorBody where
  error : String
  status : ℕ
  deriving DecidableEq, Repr

/-- The response to an error: a status, and a JSON body with the text of the error and the
status. -/
structure ErrorResponse where
  status : ℕ
  body : ErrorBody
  deriving DecidableEq, Repr

/-- Answer with an error: its status, if that is one. -/
def intoResponse (e : Error) : ErrorResponse :=
  let status := if isStatusCode e.status then e.status else 500
  { status, body := { error := e.display, status } }

/-- The status of an error is one. -/
@[simp]
theorem intoResponse_status (e : Error) :
  (intoResponse e).status = e.status
  := by
  obtain ⟨hle, hlt⟩ := e.status_mem
  have hstatus : isStatusCode e.status = true := by
    simp only [isStatusCode, Bool.and_eq_true, decide_eq_true_eq]
    omega
  simp [intoResponse, hstatus]

/-- A body is collected exactly when it can be read and is within the limit. -/
theorem collectLimited_ok {limit : ℕ} {body : Except String Bytes} {bytes : Bytes} :
  collectLimited limit body = .ok bytes ↔ body = .ok bytes ∧ bytes.length ≤ limit
  := by
  cases body with
  | error e => simp [collectLimited]
  | ok read =>
      rw [collectLimited]
      split
      next hlong =>
        simp only [reduceCtorEq, Except.ok.injEq, false_iff, not_and]
        rintro rfl
        omega
      next hshort =>
        simp only [Except.ok.injEq, iff_self_and]
        rintro rfl
        omega

/-- The body of a request is not collected: it is over the limit, or cannot be read. -/
def BodyRefused (config : HttpConfig) (request : IncomingRequest) : Prop :=
  ∀ bytes, request.body = .ok bytes → config.maxBodyBytes < bytes.length

/-- A body that is not collected is an error of HTTP. -/
theorem collectLimited_error {config : HttpConfig} {request : IncomingRequest} :
  BodyRefused config request
    ↔ ∃ detail, collectLimited config.maxBodyBytes request.body = .error (.http detail)
  := by
  rw [BodyRefused]
  cases request.body with
  | error e => simp [collectLimited]
  | ok bytes =>
      by_cases hlong : config.maxBodyBytes < bytes.length
      · simp [collectLimited, hlong]
      · simp [collectLimited, hlong]

/-- A request is handed on exactly when its body is collected and the tenant is an id, and then
with the body that was collected. -/
theorem dispatch_ok {config : HttpConfig} {tenant : String} {request : IncomingRequest}
    {id : TenantId} {req : HttpRequest} :
  dispatch config tenant request = .ok (id, req)
    ↔ ∃ bytes, request.body = .ok bytes
      ∧ bytes.length ≤ config.maxBodyBytes
      ∧ TenantId.new tenant = .ok id
      ∧ req = { method := request.method, uri := request.uri, headers := request.headers,
                body := bytes }
  := by
  rw [dispatch]
  constructor
  · intro h
    split at h
    · cases h
    next bytes hbytes =>
      split at h
      · cases h
      next id' hid =>
        obtain ⟨hbody, hlen⟩ := collectLimited_ok.mp hbytes
        obtain ⟨rfl, rfl⟩ := Prod.mk.inj (Except.ok.inj h)
        exact ⟨bytes, hbody, hlen, hid, rfl⟩
  · rintro ⟨bytes, hbody, hlen, hid, rfl⟩
    simp only [collectLimited_ok.mpr ⟨hbody, hlen⟩, TenantId.parse, hid]

end Ingress

end Ember
