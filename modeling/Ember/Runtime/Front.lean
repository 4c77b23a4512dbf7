import Ember.Http.Ingress
import Ember.Runtime.Server

/-!
# The ingress in front of the server

`Server.receive` is what the ingress does with a request: it answers with an error, or the
request becomes an invocation of the tenant it is for.

A request whose tenant is not an id or is not registered, or whose body is over the limit, is
answered with an error and leaves the server as it was.  The answer is a client error unless the
body was collected and the tenant is not an id, since the error for such an id is the one for a
faulty configuration (`receive_fault_iff`).
-/

namespace Ember

variable {κ : Type} (C : Crates κ) (http : HttpConfig)

namespace Server

/-- The ingress gets a request for a tenant.  It answers with an error, or the request is loaded
as invocation `i` of the tenant. -/
def receive (s : Server κ) (i : ℕ) (tenant : String) (request : IncomingRequest) :
    Option (Server κ × Option Ingress.ErrorResponse) :=
  match Ingress.dispatch http tenant request with
  | .error e => some (s, some (Ingress.intoResponse e))
  | .ok (id, request) =>
      match s.tenants.lookup id with
      | none => some (s, some (Ingress.intoResponse (.tenantNotFound id.name)))
      | some r => (s.step C (.invoke r (.load i request))).map fun s => (s, none)

/-- The fault is with the client: the tenant is not an id, or is not registered, or the body is
over the limit. -/
def ClientFault (s : Server κ) (tenant : String) (request : IncomingRequest) : Prop :=
  (∀ id : TenantId, id.name ≠ tenant)
    ∨ (∃ id : TenantId, id.name = tenant ∧ s.tenants.lookup id = none)
    ∨ ∃ bytes, request.body = .ok bytes ∧ http.maxBodyBytes < bytes.length

variable {s : Server κ} {tenant : String} {request : IncomingRequest}

/-- A request whose fault is with the client is answered with an error, and leaves the server as
it was. -/
theorem receive_fault (hfault : s.ClientFault http tenant request) (i : ℕ) :
  ∃ e, s.receive C http i tenant request = some (s, some (Ingress.intoResponse e))
    ∧ (400 ≤ e.status ∧ e.status < 500
      ↔ (∃ id : TenantId, id.name = tenant) ∨ Ingress.BodyRefused http request)
  := by
  by_cases hrefused : Ingress.BodyRefused http request
  · obtain ⟨detail, hcollect⟩ := Ingress.collectLimited_error.mp hrefused
    refine ⟨.http detail, ?_, ?_⟩
    · simp only [receive, Ingress.dispatch, hcollect]
    · simp [hrefused, Error.status]
  · obtain ⟨bytes, hbody, hlen⟩ : ∃ bytes, request.body = .ok bytes
        ∧ bytes.length ≤ http.maxBodyBytes := by
      simpa [Ingress.BodyRefused] using hrefused
    cases hid : TenantId.new tenant with
    | error e =>
        obtain ⟨detail, rfl⟩ := TenantId.new_error hid
        have hnone : ¬∃ id : TenantId, id.name = tenant := by
          rintro ⟨id, hname⟩
          cases hid.symm.trans (TenantId.new_ok.mpr hname)
        refine ⟨.config detail, ?_, ?_⟩
        · simp only [receive, Ingress.dispatch, Ingress.collectLimited_ok.mpr ⟨hbody, hlen⟩,
            TenantId.parse, hid]
        · simp [hrefused, hnone, Error.status]
    | ok id =>
        have hname := TenantId.new_ok.mp hid
        -- the tenant is an id and the body is collected, so the tenant is not registered
        have hunregistered : s.tenants.lookup id = none := by
          rcases hfault with hnot | ⟨id', hname', hnone⟩ | ⟨bytes', hbody', hlong⟩
          · exact absurd hname (hnot id)
          · obtain rfl : id' = id := TenantId.ext (hname'.trans hname.symm)
            apply hnone
          · obtain rfl := Except.ok.inj (hbody.symm.trans hbody')
            omega
        refine ⟨.tenantNotFound id.name, ?_, ?_⟩
        · have hdispatch := Ingress.dispatch_ok.mpr ⟨bytes, hbody, hlen, hid, rfl⟩
          simp only [receive, hdispatch, hunregistered]
        · simp only [Error.status, Nat.reduceLeDiff, Nat.reduceLT, and_self, true_iff]
          left
          use id

/-- A request whose tenant is not an id or is not registered, or whose body is over the limit, is
answered with a client error and leaves the server as it was, its instances, counters and scratch
files included, exactly when the tenant is an id or the body is refused. -/
theorem receive_fault_iff (hfault : s.ClientFault http tenant request) (i : ℕ) :
  (∃ r, s.receive C http i tenant request = some (s, some r) ∧ 400 ≤ r.status ∧ r.status < 500)
    ↔ (∃ id : TenantId, id.name = tenant) ∨ Ingress.BodyRefused http request
  := by
  obtain ⟨e, hanswer, hstatus⟩ := receive_fault C http hfault i
  rw [← hstatus, hanswer]
  simp

/-- A server without tenants answers a request for the tenant `ghost` with a client error. -/
theorem receive_fault_ghost :
  ∃ r, (Server.new {} {} : Server Bytes).receive sampleCrates {} 0 "ghost"
      { method := .get
        uri := { scheme := none, authority := none, path := "/ghost/", query := none }
        headers := ⟨[]⟩
        body := .ok [] }
      = some (Server.new {} {}, some r)
    ∧ 400 ≤ r.status ∧ r.status < 500
  := by
  have hid : ∃ id : TenantId, id.name = "ghost" :=
    ⟨⟨"ghost", by decide, by decide, by decide⟩, rfl⟩
  apply (receive_fault_iff sampleCrates {} _ 0).mpr
  · left
    apply hid
  · right; left
    obtain ⟨id, hname⟩ := hid
    exact ⟨id, hname, rfl⟩

/-- The segment `bad.id` is not a tenant id, and a request for it is answered with a server
error. -/
theorem receive_not_id :
  let request : IncomingRequest :=
    { method := .get
      uri := { scheme := none, authority := none, path := "/bad.id/", query := none }
      headers := ⟨[]⟩
      body := .ok [] }
  (Server.new {} {} : Server Bytes).ClientFault {} "bad.id" request
    ∧ ∃ r, (Server.new {} {} : Server Bytes).receive sampleCrates {} 0 "bad.id" request
        = some (Server.new {} {}, some r)
      ∧ r.status = 500
      ∧ r.body.error
        = "configuration error: tenant id `bad.id` may only contain [a-zA-Z0-9-_]"
  := by
  intro request
  constructor
  · left
    rintro ⟨name, _, _, hchars⟩ rfl
    revert hchars
    decide
  · exact ⟨_, rfl, rfl, rfl⟩

end Server

end Ember
