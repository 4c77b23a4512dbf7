import Ember.Runtime.Boundary

/-!
# The path a guest sees

The ingress reads the id of the tenant from the first segment of the path and hands the URI on
as it arrived.  No step of an invocation changes its request, so the guest is called with the
whole path, the segment of the tenant included (`delivered_path`): never with the remainder, and
never with the same path for two tenants.
-/

namespace Ember

variable {κ : Type} (C : Crates κ) (http : HttpConfig)

/-- The path of the request of an invocation. -/
def Phase.path : Phase κ → Option String
  | .idle | .finished _ => none
  | .loaded _ request => some request.uri.path
  | .waiting inv _ | .building inv _ | .instantiating inv _ | .calling inv _
  | .releasing inv _ _ => some inv.request.path

/-- The path of the route of a tenant, for what follows the segment of the tenant. -/
def routePath (id : TenantId) (rest : String) : String := s!"/{id.name}/{rest}"

/-- The tenant `id` gets `request` from the ingress, and somewhere on the way of a run its guest
is called with `r` for it. -/
def Delivered (id : TenantId) (request : IncomingRequest) (r : Request) : Prop :=
  ∃ (b b₁ b₂ : Boundary κ) (i : ℕ) (more : List BoundaryAction) (inv : Invocation κ)
      (p : Prepared κ),
    b.invocations.tenant.id = id
      ∧ b.step C http (.dispatch i request) = some b₁
      ∧ b₁.invocations.calls i ≠ b.invocations.calls i
      ∧ (boundaryMachine C http).run b₁ more = some b₂
      ∧ b₂.invocations.calls i = .calling inv p
      ∧ inv.request = r

namespace Invocations

/-- An invocation that has begun keeps its path until it is over. -/
theorem Stepped.path {s t : Invocations κ} {a : InvokeAction} (h : s.Stepped C a t) (j : ℕ) :
  s.calls j = .idle ∨ (t.calls j).path = none ∨ (t.calls j).path = (s.calls j).path
  := by
  have hset : ∀ {r : Invocations κ} {i : ℕ} {old new : Phase κ}, r.calls = s.calls →
      s.calls i = old → (old = .idle ∨ new.path = none ∨ new.path = old.path) →
      s.calls j = .idle ∨ ((r.set i new).calls j).path = none
        ∨ ((r.set i new).calls j).path = (s.calls j).path := by
    intro r i old new hr hold hnew
    obtain ⟨rfl, heq⟩ | ⟨-, heq⟩ := r.calls_set i j new
    · rw [heq, hold]
      apply hnew
    · right; right
      rw [heq, hr]
  cases h with
  | ticked _ => exact .inr (.inr rfl)
  | unswapped _ => exact .inr (.inr rfl)
  | swapped _ _ => exact .inr (.inr rfl)
  | loaded hcall _ => exact hset rfl hcall (.inl rfl)
  | entered hcall _ hrequest _ =>
      apply hset rfl hcall
      right; right
      rw [← Except.ok.inj hrequest]
      rfl
  | took _ hcall _ _ => exact hset rfl hcall (.inr (.inr rfl))
  | missed hcall _ _ _ => exact hset rfl hcall (.inr (.inr rfl))
  | armed hcall _ => exact hset rfl hcall (.inr (.inr rfl))
  | started hcall _ => exact hset rfl hcall (.inr (.inr rfl))
  | answered hcall _ => exact hset rfl hcall (.inr (.inr rfl))
  -- the invocation is over
  | _ => exact hset rfl rfl (.inr (.inl rfl))

/-- No invocation begins anew. -/
theorem Stepped.begun {s t : Invocations κ} {a : InvokeAction} (h : s.Stepped C a t) {j : ℕ}
    (hj : s.calls j ≠ .idle) :
  t.calls j ≠ .idle
  := by
  obtain heq | hmoved := h.moved C j
  · rw [heq]
    apply hj
  · generalize s.calls j = old at hmoved
    intro hidle
    rw [hidle] at hmoved
    cases hmoved

end Invocations

/-- The guest is called with the path of the request that the ingress got. -/
theorem Delivered.path {id : TenantId} {request : IncomingRequest} {r : Request}
    (h : Delivered C http id request r) :
  r.path = request.uri.path
  := by
  obtain ⟨b, b₁, b₂, i, more, inv, p, -, hdispatch, hloaded, hmore, hcall, rfl⟩ := h
  -- from the load on, the invocation has begun and has the path of the request, if any
  have hstep : ∀ b a b', (b.invocations.calls i ≠ .idle
      ∧ ∀ q, (b.invocations.calls i).path = some q → q = request.uri.path) →
      (boundaryMachine C http).step b a = some b' →
      b'.invocations.calls i ≠ .idle
        ∧ ∀ q, (b'.invocations.calls i).path = some q → q = request.uri.path := by
    rintro b a b' ⟨hbegun, hpath⟩ h
    obtain heq | ⟨a', hs⟩ := Boundary.step_invocations C http h
    · rw [heq]
      exact ⟨hbegun, hpath⟩
    · have hstepped := Invocations.stepped C hs
      use hstepped.begun C hbegun
      intro q hq
      obtain hidle | hnone | hsame := hstepped.path C i
      · exact absurd hidle hbegun
      · rw [hnone] at hq
        cases hq
      · rw [hsame] at hq
        apply hpath q hq
  have hinit : b₁.invocations.calls i ≠ .idle
      ∧ ∀ q, (b₁.invocations.calls i).path = some q → q = request.uri.path := by
    obtain ⟨s, hs, rfl⟩ := Option.map_eq_some_iff.mp hdispatch
    rw [Boundary.advance] at hs
    split at hs
    · rw [← Option.some.inj hs] at hloaded
      exact absurd rfl hloaded
    next id' converted hconverted =>
      obtain ⟨bytes, -, -, -, rfl⟩ := Ingress.dispatch_ok.mp hconverted
      rw [Invocations.step] at hs
      split at hs
      · rw [← Option.some.inj hs]
        simp [Invocations.set, Phase.path]
      · cases hs
  have hend := (boundaryMachine C http).run_invariant hstep hinit hmore
  apply hend.2
  rw [hcall]
  rfl

/-- A route is longer than what follows the segment of its tenant. -/
theorem routePath_ne (id : TenantId) (rest : String) :
  routePath id rest ≠ "/" ++ rest ∧ routePath id rest ≠ rest
  := by
  have hlen : (routePath id rest).toList.length
      = id.name.toList.length + 2 + rest.toList.length := by
    simp [routePath, toString]
    omega
  have hname : 0 < id.name.toList.length := by
    rw [List.length_pos_iff]
    intro hnil
    apply id.nonempty
    rw [← String.toList_inj, hnil]
    rfl
  constructor
  · intro h
    rw [h, String.toList_append, List.length_append] at hlen
    have hslash : ("/" : String).toList.length = 1 := rfl
    omega
  · intro h
    rw [h] at hlen
    omega

/-- A route determines its tenant. -/
theorem routePath_injective {id id' : TenantId} {rest : String}
    (h : routePath id rest = routePath id' rest) :
  id = id'
  := by
  apply TenantId.ext
  rw [← String.toList_inj] at h ⊢
  simpa [routePath, toString] using h

/-- Whatever follows the segment of the tenant in the path of a request, the guest is called with
the whole path: never with what follows the segment, with a leading slash or without, and never
with the path that the guest of another tenant is called with. -/
theorem delivered_path {id : TenantId} {rest : String} {request : IncomingRequest} {r : Request}
    (hpath : request.uri.path = routePath id rest) (h : Delivered C http id request r) :
  r.path = routePath id rest
    ∧ r.path ≠ "/" ++ rest
    ∧ r.path ≠ rest
    ∧ ∀ id' request' r', request'.uri.path = routePath id' rest →
        Delivered C http id' request' r' → id' ≠ id → r'.path ≠ r.path
  := by
  have hr : r.path = routePath id rest := (h.path C http).trans hpath
  obtain ⟨hne, hne'⟩ := routePath_ne id rest
  rw [hr]
  refine ⟨rfl, hne, hne', ?_⟩
  intro id' request' r' hpath' h' hid hsame
  rw [h'.path C http, hpath'] at hsame
  apply hid (routePath_injective hsame)

/-- A request for `/echo/hello`. -/
def helloRequest : IncomingRequest where
  method := .get
  uri := { scheme := none, authority := none, path := "/echo/hello", query := none }
  headers := ⟨[]⟩
  body := .ok []

/-- What the guest of `echo` is called with for it. -/
def helloRecord : Request where
  method := "GET"
  path := "/echo/hello"
  query := none
  headers := []
  body := some []

theorem delivered_hello :
  Delivered sampleCrates {} echoId helloRequest helloRecord
  := by
  refine ⟨Boundary.init sampleTenant, _, _, 0,
    [.invoke (.enter 0 sampleHost), .invoke (.lock 0), .invoke (.arm 0),
      .invoke (.instantiated 0 (.ok ()))], _, _, rfl, rfl, ?_, rfl, rfl, rfl⟩
  rintro ⟨⟩

theorem delivered_path_hello :
  helloRecord.path = "/echo/hello" ∧ helloRecord.path ≠ "/" ++ "hello"
  := by
  have hpath : helloRequest.uri.path = routePath echoId "hello" := rfl
  obtain ⟨hwhole, hne, -, -⟩ := delivered_path sampleCrates {} hpath delivered_hello
  exact ⟨hwhole, hne⟩

/-- The guest of `echo` gets a request for `/echo/hello` with this path, and not with `/hello`. -/
theorem delivered_path_whole :
  ∃ r, Delivered sampleCrates {} echoId helloRequest r
    ∧ helloRequest.uri.path = routePath echoId "hello"
    ∧ r.path ≠ "/" ++ "hello"
  := by
  use helloRecord, delivered_hello, rfl
  decide

end Ember
