import Ember.Wasi.Sandbox

/-!
# The component ABI

The state a guest runs with, the host functions it can call, and the conversions between
HTTP messages and the `request` and `response` records of the ABI.

The conversion of a response contains `expect` and `unwrap`.  They are modelled by an
explicit `Panic`; the release profile aborts the process on one.
-/

namespace Ember

/-! ### The host context -/

/-- The environment of a guest: its variables and the directories opened for it. -/
structure WasiCtx where
  env : List (String × String)
  preopens : List (String × String)
  deriving DecidableEq, Repr

/-- The directories of the host, and what the WASI context builder makes of a preopen. -/
structure HostDirs where
  /-- Whether the path is a directory, or the error of reading its metadata. -/
  metadata : String → Except String Bool
  /-- The outcome of opening the path. -/
  «open» : String → Except String Unit
  /-- The outcome of preopening a directory at a guest path. -/
  preopenedDir : String → Except String Unit

/-- Open `root` read-only. -/
def openReadonlyDir (host : HostDirs) (root : String) : Except Error Unit :=
  match host.metadata root with
  | .error e => .error (.config s!"preopen `{root}` unreadable: {e}")
  | .ok false => .error (.config s!"preopen `{root}` is not a directory")
  | .ok true =>
      match host.open root with
      | .error e => .error (.config s!"preopen `{root}` open failed: {e}")
      | .ok () => .ok ()

/-- Open the preopens of a sandbox one after the other; the first failure is the error. -/
def openPreopens (host : HostDirs) : List (String × String) → Except Error Unit
  | [] => .ok ()
  | (guestPath, root) :: rest =>
      match openReadonlyDir host root with
      | .error e => .error e
      | .ok () =>
          match host.preopenedDir guestPath with
          | .error e => .error (.config s!"preopen `{guestPath}` failed: {e}")
          | .ok () => openPreopens host rest

/-- Build the WASI context of a sandbox. -/
def WasiCtx.new (host : HostDirs) (sandbox : Sandbox) : Except Error WasiCtx :=
  match openPreopens host sandbox.readonlyPreopens with
  | .error e => .error e
  | .ok () =>
      .ok
        { env :=
            [("EMBER_TENANT", sandbox.tenant.name),
              ("EMBER_SCRATCH_QUOTA", toString sandbox.limits.memfsQuotaBytes)]
          preopens := sandbox.readonlyPreopens }

/-- The state stored with every instance of a tenant. -/
structure HostCtx where
  tenant : TenantId
  sandbox : Sandbox
  config : ConfigMap
  wasi : WasiCtx
  egress : HttpBridge

/-- The errors of the scratch storage that a guest sees. -/
inductive ScratchError where
  | notFound
  | quotaExceeded
  | invalidPath
  deriving DecidableEq, Repr

namespace HostCtx

/-- Build a fresh context for a sandbox. -/
def new (host : HostDirs) (sandbox : Sandbox) (egress : HttpBridge) : Except Error HostCtx :=
  match WasiCtx.new host sandbox with
  | .error e => .error e
  | .ok wasi =>
      .ok { tenant := sandbox.tenant, sandbox, config := sandbox.config, wasi, egress }

/-- A context is built for the sandbox and the bridge it is asked for. -/
theorem new_ok {host : HostDirs} {sandbox : Sandbox} {egress : HttpBridge} {ctx : HostCtx}
    (h : new host sandbox egress = .ok ctx) :
  ctx.sandbox = sandbox ∧ ctx.egress = egress
  := by
  rw [new] at h
  split at h
  · cases h
  · rw [← Except.ok.inj h]
    constructor
    · rfl
    · rfl

/-- The id of the tenant an instance runs under. -/
def tenantId (ctx : HostCtx) : String := ctx.tenant.name

/-- Read a configuration value. -/
def getConfig (ctx : HostCtx) (key : String) : Option String := ctx.config.lookup key

/-- Write a scratch file.  The scratch filesystem is shared by all contexts of the tenant, so
the functions on it take the filesystem and return it. -/
def scratchWrite (scratch : MemFs) (path : String) (data : Bytes) :
    MemFs × Except ScratchError Unit :=
  match scratch.write path data with
  | (scratch, .ok ()) => (scratch, .ok ())
  | (scratch, .error (.limitExceeded _)) => (scratch, .error .quotaExceeded)
  | (scratch, .error _) => (scratch, .error .invalidPath)

/-- Read a scratch file. -/
def scratchRead (scratch : MemFs) (path : String) : Option Bytes := scratch.read path

/-- The bytes held in scratch files. -/
def scratchBytes (scratch : MemFs) : ℕ := scratch.usedBytes

end HostCtx

/-! ### The conversions -/

/-- The `request` record of the ABI. -/
structure Request where
  method : String
  path : String
  query : Option String
  headers : List (String × String)
  body : Option Bytes
  deriving DecidableEq, Repr

/-- The `response` record of the ABI. -/
structure Response where
  status : UInt16
  headers : List (String × String)
  body : Bytes
  deriving DecidableEq, Repr

/-- HTTP requests whose body has been read. -/
structure HttpRequest where
  method : Method
  uri : Uri
  headers : HeaderMap
  body : Bytes
  deriving DecidableEq

/-- HTTP responses. -/
structure HttpResponse where
  status : ℕ
  headers : HeaderMap
  body : Bytes
  deriving DecidableEq

/-- The text of a method. -/
def Method.toText : Method → String
  | .get => "GET"
  | .post => "POST"
  | .put => "PUT"
  | .delete => "DELETE"
  | .patch => "PATCH"
  | .head => "HEAD"
  | .options => "OPTIONS"
  | .connect => "CONNECT"
  | .trace => "TRACE"
  | .extension token => token

/-- Normalize an HTTP request into the record of the ABI.  Headers whose value is not text
are left out. -/
def Request.tryFrom (req : HttpRequest) : Except Error Request :=
  let headers := req.headers.entries.filterMap fun (name, value) =>
    value.toStr.map fun v => (name.text, v)
  .ok
    { method := req.method.toText
      path := req.uri.path
      query := req.uri.query
      headers
      body := some req.body }

/-- A panic of the host. -/
inductive Panic where
  | expect (message : String)
  | unwrap
  deriving DecidableEq, Repr

/-- The header loop of the conversion of a response. -/
def appendHeaders (headers : HeaderMap) : List (String × String) → Except Panic HeaderMap
  | [] => .ok headers
  | (name, value) :: rest =>
      match HeaderName.fromBytes name, HeaderValue.fromStr value with
      | some name, some value =>
          match headers.tryAppend name value with
          | none => .error .unwrap
          | some headers => appendHeaders headers rest
      | _, _ => appendHeaders headers rest

/-- Materialize the record of the ABI as an HTTP response. -/
def Response.toHttp (resp : Response) : Except Panic HttpResponse :=
  if isStatusCode resp.status.toNat then
    match appendHeaders ⟨[]⟩ resp.headers with
    | .error panic => .error panic
    | .ok headers => .ok { status := resp.status.toNat, headers, body := resp.body }
  else .error (.expect "component response status is a valid HTTP status")

/-- The conversion of a response keeps its body. -/
theorem Response.toHttp_body {resp : Response} {r : HttpResponse} (h : resp.toHttp = .ok r) :
  r.body = resp.body
  := by
  rw [toHttp] at h
  split at h
  · split at h
    · cases h
    · rw [← Except.ok.inj h]
  · cases h

/-- Appending to a map with fewer entries than the capacity succeeds. -/
theorem HeaderMap.tryAppend_of_lt {m : HeaderMap} (name : HeaderName) (value : HeaderValue)
    (h : m.entries.length < HeaderMap.capacity) :
  m.tryAppend name value = some ⟨m.entries ++ [(name, value)]⟩
  := by
  rw [tryAppend, if_pos]
  calc m.names.length
      ≤ (m.entries.map Prod.fst).length := (List.dedup_sublist _).length_le
    _ = m.entries.length := List.length_map _
    _ < capacity := h

/-- The header loop does not panic while the headers fit the capacity of a header map. -/
theorem appendHeaders_ok (hs : List (String × String)) :
  ∀ m : HeaderMap, m.entries.length + hs.length ≤ HeaderMap.capacity →
    ∃ m', appendHeaders m hs = .ok m'
  := by
  -- each step adds at most one entry to the map and takes one header from the list
  induction hs with
  | nil =>
      intro m _
      exact ⟨m, rfl⟩
  | cons h hs ih =>
      intro m hlen
      obtain ⟨name, value⟩ := h
      rw [List.length_cons] at hlen
      rw [appendHeaders]
      split
      next name value _ _ =>
        rw [HeaderMap.tryAppend_of_lt name value (by omega)]
        apply ih
        rw [List.length_append, List.length_singleton]
        omega
      · apply ih
        omega

/-- The conversion of a response whose headers fit the capacity of a header map reaches none
of its panics exactly when the status is one of `100..=999`. -/
theorem Response.toHttp_ok_iff (resp : Response) (h : resp.headers.length ≤ HeaderMap.capacity) :
  (∃ r, resp.toHttp = .ok r) ↔ 100 ≤ resp.status.toNat ∧ resp.status.toNat ≤ 999
  := by
  have hstatus : isStatusCode resp.status.toNat = true
      ↔ 100 ≤ resp.status.toNat ∧ resp.status.toNat ≤ 999 := by
    simp [isStatusCode]
  rw [← hstatus, toHttp]
  split
  next hcode =>
    obtain ⟨m, hm⟩ := appendHeaders_ok resp.headers ⟨[]⟩ (by simpa using h)
    simp [hm, hcode]
  next hcode => simp [hcode]

/-- A response with status 200 and a header is converted. -/
theorem Response.toHttp_ok_two_hundred :
  ∃ r, Response.toHttp { status := 200, headers := [("content-type", "text/plain")], body := [] }
    = .ok r
  := (Response.toHttp_ok_iff _ (by decide)).mpr (by decide)

/-- A response with status 0 makes the host panic. -/
theorem Response.toHttp_panics :
  Response.toHttp { status := 0, headers := [], body := [] }
    = .error (.expect "component response status is a valid HTTP status")
  := by decide

end Ember
