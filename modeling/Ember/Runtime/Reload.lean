import Ember.Runtime

/-!
# What loading and reloading preserve

Every registered tenant runs one coherent generation of its component: the digest, the bytes
and the compiled form belong together, the contract is satisfied, and a pin is respected
(`runtime_coherent`).

A reload pass visits the tenants one by one.  A failed pull stays with the tenant it
happened to, while a contract violation or a compilation error ends the pass for all tenants
that come later in the order.  `pollOnce_isolated_iff` says when two passes that agree on a
tenant leave it in the same state.
-/

namespace Ember

variable {κ : Type} (C : Crates κ)

/-! ### What the operations on one tenant do -/

/-- A compiled form is the one of the bytes. -/
theorem compile_ok {loaded : Loaded} {compiled : κ} :
  compile C loaded = .ok compiled ↔ C.fromBinary loaded.bytes = .ok compiled
  := by
  rw [compile]
  cases C.fromBinary loaded.bytes
  all_goals simp

/-- A pull under a pin gives bytes with the digest of the pin, and records the pin. -/
theorem Registry.pull_pinned {registry : OciClientConfig} {up : Upstream} {reference p : String}
    {loaded : Loaded} (h : (Registry.pull C registry up reference (some p)).2 = .ok loaded) :
  loaded.digest = p ∧ C.sha256Digest loaded.bytes = p
  := by
  rw [Registry.pull] at h
  split at h
  · cases h
  next dir fetched hfetch =>
    dsimp only at h
    split at h
    · cases h
    next hverify =>
      obtain rfl := Except.ok.inj h
      exact ⟨rfl, (verifyDigest_ok C).mp hverify⟩

namespace Tenant

/-- A tenant is activated with valid limits and the artifact of its source, which satisfies
the contract and compiles. -/
theorem activate_ok {registry : OciClientConfig} {env : LoadEnv} {cfg : TenantConfig}
    {t : Tenant κ} :
  activate C registry env cfg = .ok t
    ↔ ∃ id sandbox bridge loaded compiled, TenantId.new cfg.name = .ok id
      ∧ Sandbox.new id cfg.limits cfg.config = .ok sandbox
      ∧ HttpBridge.new env.client sandbox.egressPolicy cfg.limits.maxBodyBytes = .ok bridge
      ∧ cfg.component.load C registry env = .ok loaded
      ∧ contractViolations loaded.exports = none
      ∧ C.fromBinary loaded.bytes = .ok compiled
      ∧ t =
        { id, sandbox, bridge, source := cfg.component
          active := { loaded, compiled, digest := loaded.digest, activatedAt := env.activatedAt }
          pool := InstancePool.new cfg.limits.maxInstances
          failures := 0, invocations := 0, lastSwap := env.lastSwap }
  := by
  simp only [activate, Except.andThen_ok, compile_ok, pure, Except.pure, Except.ok.injEq]
  constructor
  · rintro ⟨id, hid, sandbox, hsandbox, bridge, hbridge, loaded, hloaded, ⟨⟩, hcontract, compiled,
      hcompiled, rfl⟩
    rw [ensureContract_ok] at hcontract
    exact ⟨id, sandbox, bridge, loaded, compiled, hid, hsandbox, hbridge, hloaded, hcontract,
      hcompiled, rfl⟩
  · rintro ⟨id, sandbox, bridge, loaded, compiled, hid, hsandbox, hbridge, hloaded, hcontract,
      hcompiled, rfl⟩
    rw [← ensureContract_ok] at hcontract
    exact ⟨id, hid, sandbox, hsandbox, bridge, hbridge, loaded, hloaded, (), hcontract, compiled,
      hcompiled, rfl⟩

/-- A tenant after a swap to `loaded`, compiled as `compiled`. -/
def swapped (t : Tenant κ) (loaded : Loaded) (compiled : κ) (env : PollEnv) : Tenant κ :=
  { t with
    active := { loaded, compiled, digest := loaded.digest, activatedAt := env.activatedAt }
    lastSwap := env.lastSwap
    failures := 0 }

/-- The artifact is due to a poll of the tenant: the source is a registry, the debounce has
elapsed, and the pull gives this artifact or fails. -/
def Pulls (registry : OciClientConfig) (policy : HotReloadPolicy) (now : Instant) (env : PollEnv)
    (t : Tenant κ) (outcome : Except Error Loaded) : Prop :=
  ∃ reference pin, t.source = .oci reference pin
    ∧ policy.debounce ≤ now - t.lastSwap
    ∧ (Registry.pull C registry env.upstream reference pin).2 = outcome

/-- What polling a tenant can come to. -/
inductive Polled (registry : OciClientConfig) (policy : HotReloadPolicy) (now : Instant)
    (env : PollEnv) (t : Tenant κ) : Visit (Tenant κ) MetricUpdate Error → Prop
  /-- The tenant is not pulled at all. -/
  | skipped (h : ∀ outcome, ¬t.Pulls C registry policy now env outcome) :
      Polled registry policy now env t { value := t, events := [], outcome := .ok () }
  /-- The artifact violates the contract. -/
  | refused {loaded : Loaded} {e : Error} (hpull : t.Pulls C registry policy now env (.ok loaded))
      (hcontract : contractViolations loaded.exports ≠ none) :
      Polled registry policy now env t { value := t, events := [], outcome := .error e }
  /-- The artifact does not compile. -/
  | uncompiled {loaded : Loaded} {e : Error}
      (hpull : t.Pulls C registry policy now env (.ok loaded))
      (hcontract : contractViolations loaded.exports = none)
      (hdigest : t.active.digest ≠ loaded.digest)
      (hcompile : ∀ compiled, C.fromBinary loaded.bytes ≠ .ok compiled) :
      Polled registry policy now env t { value := t, events := [], outcome := .error e }
  /-- The artifact replaces the active component. -/
  | swapped {loaded : Loaded} {compiled : κ}
      (hpull : t.Pulls C registry policy now env (.ok loaded))
      (hcontract : contractViolations loaded.exports = none)
      (hdigest : t.active.digest ≠ loaded.digest)
      (hcompile : C.fromBinary loaded.bytes = .ok compiled) :
      Polled registry policy now env t
        { value := t.swapped loaded compiled env
          events := Telemetry.recordReload t.id.name (some t.active.digest) loaded.digest
          outcome := .ok () }
  /-- The digest has not moved. -/
  | same {loaded : Loaded} (hpull : t.Pulls C registry policy now env (.ok loaded))
      (hcontract : contractViolations loaded.exports = none)
      (hdigest : t.active.digest = loaded.digest) :
      Polled registry policy now env t
        { value := { t with failures := 0 }, events := [], outcome := .ok () }
  /-- The pull fails. -/
  | failed {e : Error} (hpull : t.Pulls C registry policy now env (.error e)) :
      Polled registry policy now env t
        { value := { t with failures := t.failures + 1 }
          events :=
            if policy.exhausted (t.failures + 1) then
              Telemetry.recordParked t.id.name (t.failures + 1)
            else []
          outcome := .ok () }

/-- Polling a tenant comes to one of these. -/
theorem polled (registry : OciClientConfig) (policy : HotReloadPolicy) (now : Instant)
    (env : PollEnv) (t : Tenant κ) :
  Polled C registry policy now env t (t.poll C registry policy now env)
  := by
  rw [poll]
  split
  next path hsource =>
    apply Polled.skipped
    rintro outcome ⟨reference, pin, hoci, -, -⟩
    rw [hsource] at hoci
    cases hoci
  next reference pin hsource =>
    split
    next hdebounce =>
      apply Polled.skipped
      rintro outcome ⟨-, -, -, hle, -⟩
      exact absurd hdebounce (not_lt.mpr hle)
    next hdebounce =>
      have hpull : t.Pulls C registry policy now env
          (Registry.pull C registry env.upstream reference pin).2 :=
        ⟨reference, pin, hsource, not_lt.mp hdebounce, rfl⟩
      split
      next loaded hloaded =>
        rw [hloaded] at hpull
        split
        next e hcontract =>
          apply Polled.refused hpull
          intro hnone
          rw [ensureContract_ok.mpr hnone] at hcontract
          cases hcontract
        next hcontract =>
          rw [ensureContract_ok] at hcontract
          split
          next hreload =>
            rw [HotReloadPolicy.shouldReload_some] at hreload
            cases hcompile : C.fromBinary loaded.bytes with
            | error e =>
                simp only [swap, compile, hcompile]
                apply Polled.uncompiled hpull hcontract hreload
                simp [hcompile]
            | ok compiled =>
                simp only [swap, compile, hcompile]
                apply Polled.swapped hpull hcontract hreload hcompile
          next hreload =>
            rw [HotReloadPolicy.shouldReload_some, not_not] at hreload
            apply Polled.same hpull hcontract hreload
      next e herror =>
        rw [herror] at hpull
        apply Polled.failed hpull

end Tenant

/-! ### What a pass does to one tenant -/

namespace Tenant

/-- Polling the tenant ends the pass: the artifact pulled for it violates the contract, or is
a new one that does not compile. -/
def EndsPass (registry : OciClientConfig) (policy : HotReloadPolicy) (now : Instant)
    (env : PollEnv) (t : Tenant κ) : Prop :=
  ∃ loaded, t.Pulls C registry policy now env (.ok loaded)
    ∧ (contractViolations loaded.exports ≠ none
      ∨ t.active.digest ≠ loaded.digest ∧ ∀ compiled, C.fromBinary loaded.bytes ≠ .ok compiled)

/-- Polling the tenant changes nothing about it: it is not pulled, or the artifact pulled for
it ends the pass, or is the active one while no failure is counted. -/
def Settled (registry : OciClientConfig) (policy : HotReloadPolicy) (now : Instant)
    (env : PollEnv) (t : Tenant κ) : Prop :=
  (∀ outcome, ¬t.Pulls C registry policy now env outcome)
    ∨ t.EndsPass C registry policy now env
    ∨ ∃ loaded, t.Pulls C registry policy now env (.ok loaded)
        ∧ contractViolations loaded.exports = none
        ∧ t.active.digest = loaded.digest ∧ t.failures = 0

variable {registry : OciClientConfig} {policy : HotReloadPolicy} {now : Instant}
  {env : PollEnv} {t : Tenant κ}

/-- A poll has one outcome of pulling. -/
theorem Pulls.eq {x y : Except Error Loaded} (hx : t.Pulls C registry policy now env x)
    (hy : t.Pulls C registry policy now env y) :
  x = y
  := by
  obtain ⟨reference, pin, hsource, -, rfl⟩ := hx
  obtain ⟨reference', pin', hsource', -, rfl⟩ := hy
  obtain ⟨rfl, rfl⟩ := ComponentSource.oci.inj (hsource.symm.trans hsource')
  rfl

/-- What was pulled for a tenant decides whether it ends the pass. -/
theorem Pulls.endsPass_iff {loaded : Loaded}
    (h : t.Pulls C registry policy now env (.ok loaded)) :
  t.EndsPass C registry policy now env
    ↔ contractViolations loaded.exports ≠ none
      ∨ t.active.digest ≠ loaded.digest ∧ ∀ compiled, C.fromBinary loaded.bytes ≠ .ok compiled
  := by
  constructor
  · rintro ⟨loaded', h', hends⟩
    obtain rfl := Except.ok.inj (h.eq C h')
    apply hends
  · intro hends
    use loaded

/-- A poll fails exactly when it ends the pass. -/
theorem poll_ok_iff :
  (t.poll C registry policy now env).outcome = .ok () ↔ ¬t.EndsPass C registry policy now env
  := by
  have h := polled C registry policy now env t
  generalize t.poll C registry policy now env = r at h
  cases h with
  | skipped hskip =>
      simp only [true_iff]
      rintro ⟨loaded, hpull, -⟩
      apply hskip _ hpull
  | refused hpull hcontract => simp [hpull.endsPass_iff, hcontract]
  | uncompiled hpull _ hdigest hcompile => simp [hpull.endsPass_iff, hdigest, hcompile]
  | swapped hpull hcontract _ hcompile => simp [hpull.endsPass_iff, hcontract, hcompile]
  | same hpull hcontract hdigest => simp [hpull.endsPass_iff, hcontract, hdigest]
  | failed hpull =>
      simp only [true_iff]
      rintro ⟨loaded, hpull', -⟩
      cases hpull.eq C hpull'

/-- A poll leaves the tenant as it is exactly when the tenant is settled. -/
theorem poll_value_iff :
  (t.poll C registry policy now env).value = t ↔ t.Settled C registry policy now env
  := by
  have h := polled C registry policy now env t
  generalize t.poll C registry policy now env = r at h
  cases h with
  | skipped hskip => simp [Settled, hskip]
  | refused hpull hcontract => simp [Settled, hpull.endsPass_iff, hcontract]
  | uncompiled hpull _ hdigest hcompile => simp [Settled, hpull.endsPass_iff, hdigest, hcompile]
  | @swapped loaded compiled hpull hcontract hdigest hcompile =>
      constructor
      · intro heq
        have hactive := congrArg (fun t => t.active.digest) heq
        exact absurd hactive.symm hdigest
      · rintro (hskip | hends | ⟨loaded', hpull', -, hsame, -⟩)
        · exact absurd hpull (hskip _)
        · simp [hpull.endsPass_iff, hcontract, hcompile] at hends
        · obtain rfl := Except.ok.inj (hpull.eq C hpull')
          exact absurd hsame hdigest
  | @same loaded hpull hcontract hdigest =>
      constructor
      · intro heq
        have hfailures := congrArg Tenant.failures heq
        right; right
        exact ⟨loaded, hpull, hcontract, hdigest, hfailures.symm⟩
      · rintro (hskip | hends | ⟨loaded', -, -, -, hfailures⟩)
        · exact absurd hpull (hskip _)
        · simp [hpull.endsPass_iff, hcontract, hdigest] at hends
        · rw [← hfailures]
  | failed hpull =>
      constructor
      · intro heq
        have hfailures := congrArg Tenant.failures heq
        simp at hfailures
      · rintro (hskip | ⟨loaded, hpull', -⟩ | ⟨loaded, hpull', -⟩)
        · exact absurd hpull (hskip _)
        · cases hpull.eq C hpull'
        · cases hpull.eq C hpull'

end Tenant

/-- The pass reaches the tenant: polling the tenants before it in the order does not end the
pass. -/
def Runtime.PassReaches (rt : Runtime κ) (now : Instant) (order : List TenantId)
    (env : TenantId → PollEnv) (id : TenantId) : Prop :=
  ∀ id' ∈ order.takeWhile (· ≠ id), ∀ t, rt.tenant id' = some t →
    ¬t.EndsPass C rt.registry rt.policy now (env id')

/-- A pass meets every tenant. -/
theorem Runtime.mem_order {rt : Runtime κ} {order : List TenantId}
    (horder : order.Perm rt.tenants.keys) {id : TenantId} {t : Tenant κ}
    (ht : rt.tenant id = some t) :
  id ∈ order
  := by
  rw [horder.mem_iff, ← AList.mem_keys, ← AList.lookup_isSome]
  rw [Runtime.tenant] at ht
  rw [ht]
  rfl

/-- A pass that reaches a tenant polls it, and one that does not leaves it. -/
theorem Runtime.pollOnce_tenant {rt : Runtime κ} (now : Instant) {order : List TenantId}
    (env : TenantId → PollEnv) (horder : order.Perm rt.tenants.keys) {id : TenantId}
    {t : Tenant κ} (ht : rt.tenant id = some t) :
  (rt.PassReaches C now order env id →
      (rt.pollOnce C now order env).1.tenant id
        = some (t.poll C rt.registry rt.policy now (env id)).value)
    ∧ (¬rt.PassReaches C now order env id →
      (rt.pollOnce C now order env).1.tenant id = some t)
  := by
  have hnodup : order.Nodup := horder.nodup_iff.mpr rt.tenants.keys_nodup
  have hmem : id ∈ order := Runtime.mem_order horder ht
  have hreaches : rt.PassReaches C now order env id
      ↔ AList.Reaches (fun id => Tenant.poll C rt.registry rt.policy now (env id)) rt.tenants
          order id := by
    simp only [PassReaches, AList.Reaches, Tenant.poll_ok_iff, Runtime.tenant]
  rw [hreaches]
  apply AList.lookup_pass _ hnodup hmem ht

/-! ### Coherent generations -/

/-- The active component of a tenant is one coherent generation. -/
structure Coherent (t : Tenant κ) : Prop where
  digest : t.active.digest = t.active.loaded.digest
  compiled : C.fromBinary t.active.loaded.bytes = .ok t.active.compiled
  contract : contractViolations t.active.loaded.exports = none
  pinned : ∀ reference p, t.source = .oci reference (some p) →
    t.active.digest = p ∧ C.sha256Digest t.active.loaded.bytes = p

namespace Tenant

/-- A freshly activated tenant is coherent. -/
theorem activate_coherent {registry : OciClientConfig} {env : LoadEnv} {cfg : TenantConfig}
    {t : Tenant κ} (h : activate C registry env cfg = .ok t) :
  Coherent C t
  := by
  obtain ⟨id, sandbox, bridge, loaded, compiled, -, -, -, hload, hcontract, hcompile, rfl⟩ :=
    (activate_ok C).mp h
  constructor
  · rfl
  · apply hcompile
  · apply hcontract
  · intro reference p hsource
    dsimp only at hsource
    rw [hsource, ComponentSource.load] at hload
    apply Registry.pull_pinned C hload

/-- A poll changes at most the active component, the last swap and the count of failures. -/
theorem poll_frame (registry : OciClientConfig) (policy : HotReloadPolicy) (now : Instant)
    (env : PollEnv) (t : Tenant κ) :
  ∃ active lastSwap failures,
    (t.poll C registry policy now env).value = { t with active, lastSwap, failures }
  := by
  have h := polled C registry policy now env t
  generalize t.poll C registry policy now env = r at h
  cases h
  all_goals exact ⟨_, _, _, rfl⟩

/-- What a pull under a pin gives has the digest of the pin. -/
theorem Pulls.pinned {registry : OciClientConfig} {policy : HotReloadPolicy} {now : Instant}
    {env : PollEnv} {t : Tenant κ} {loaded : Loaded}
    (h : t.Pulls C registry policy now env (.ok loaded)) {reference p : String}
    (hsource : t.source = .oci reference (some p)) :
  loaded.digest = p ∧ C.sha256Digest loaded.bytes = p
  := by
  obtain ⟨reference', pin, hsource', -, hpull⟩ := h
  obtain ⟨rfl, rfl⟩ := ComponentSource.oci.inj (hsource'.symm.trans hsource)
  apply Registry.pull_pinned C hpull

/-- A poll keeps a tenant coherent. -/
theorem poll_coherent (registry : OciClientConfig) (policy : HotReloadPolicy) (now : Instant)
    (env : PollEnv) {t : Tenant κ} (ht : Coherent C t) :
  Coherent C (t.poll C registry policy now env).value
  := by
  have h := polled C registry policy now env t
  generalize t.poll C registry policy now env = r at h
  cases h with
  | skipped _ => exact ht
  | refused _ _ => exact ht
  | uncompiled _ _ _ _ => exact ht
  | same _ _ _ => exact ⟨ht.digest, ht.compiled, ht.contract, ht.pinned⟩
  | failed _ => exact ⟨ht.digest, ht.compiled, ht.contract, ht.pinned⟩
  | swapped hpull hcontract _ hcompile =>
      constructor
      · rfl
      · apply hcompile
      · apply hcontract
      · intro reference p hsource
        apply hpull.pinned C hsource

/-- A poll does not swap a pinned coherent tenant. -/
theorem poll_active_of_pinned (registry : OciClientConfig) (policy : HotReloadPolicy)
    (now : Instant) (env : PollEnv) {t : Tenant κ} (ht : Coherent C t) {reference p : String}
    (hsource : t.source = .oci reference (some p)) :
  (t.poll C registry policy now env).value.active = t.active
  := by
  have h := polled C registry policy now env t
  generalize t.poll C registry policy now env = r at h
  cases h with
  | swapped hpull _ hdigest _ =>
      -- the digest that was pulled is the pin, and so is the active one
      obtain ⟨hpulled, -⟩ := hpull.pinned C hsource
      obtain ⟨hactive, -⟩ := ht.pinned reference p hsource
      exact absurd (hactive.trans hpulled.symm) hdigest
  | _ => rfl

end Tenant

/-- All tenants of a runtime are coherent. -/
def Runtime.Coherent (rt : Runtime κ) : Prop :=
  ∀ id t, rt.tenants.lookup id = some t → Ember.Coherent C t

/-- Every call keeps the tenants of a runtime coherent. -/
theorem Runtime.Coherent.step {rt rt' : Runtime κ} {call : RuntimeCall} (hrt : rt.Coherent C)
    (h : (runtimeMachine C).step rt call = some rt') :
  rt'.Coherent C
  := by
  cases call with
  | loadTenant env cfg =>
      obtain rfl := Option.some.inj h
      rw [Runtime.loadTenant]
      split
      · apply hrt
      next t hactivate =>
        intro id t' ht'
        obtain rfl | hne := eq_or_ne id t.id
        · dsimp only at ht'
          rw [AList.lookup_insert, Option.some.injEq] at ht'
          rw [← ht']
          apply Tenant.activate_coherent C hactivate
        · dsimp only at ht'
          rw [AList.lookup_insert_ne hne] at ht'
          apply hrt id t' ht'
  | pollOnce now order env =>
      obtain ⟨-, h⟩ := Option.ite_none_right_eq_some.mp h
      obtain rfl := Option.some.inj h
      apply AList.pass_induct
      · intro id t ht
        apply Tenant.poll_coherent C rt.registry rt.policy now (env id) ht
      · apply hrt

/-- The call registers a tenant under the id. -/
def RuntimeCall.Loads (id : TenantId) : RuntimeCall → Prop
  | .loadTenant _ cfg => cfg.name = id.name
  | .pollOnce .. => False

/-- The tenant is still registered, with the same source, active component and pin. -/
structure Unswapped (id : TenantId) (t : Tenant κ) (rt : Runtime κ) : Prop where
  coherent : rt.Coherent C
  kept : ∃ t', rt.tenants.lookup id = some t' ∧ t'.source = t.source ∧ t'.active = t.active

/-- No call but a load of the same id swaps a pinned tenant. -/
theorem Unswapped.step {id : TenantId} {t : Tenant κ} {rt rt' : Runtime κ} {call : RuntimeCall}
    {reference p : String} (hsource : t.source = .oci reference (some p))
    (hrt : Unswapped C id t rt) (hcall : ¬call.Loads id)
    (h : (runtimeMachine C).step rt call = some rt') :
  Unswapped C id t rt'
  := by
  obtain ⟨hcoherent, t', ht', hsource', hactive'⟩ := hrt
  constructor
  · apply hcoherent.step C h
  cases call with
  | loadTenant env cfg =>
      obtain rfl := Option.some.inj h
      rw [Runtime.loadTenant]
      split
      · exact ⟨t', ht', hsource', hactive'⟩
      next new hactivate =>
        obtain ⟨newId, _, _, _, _, hid, -, -, -, -, -, rfl⟩ := (Tenant.activate_ok C).mp hactivate
        have hne : id ≠ newId := by
          rintro rfl
          apply hcall (TenantId.new_ok.mp hid).symm
        exact ⟨t', (AList.lookup_insert_ne hne).trans ht', hsource', hactive'⟩
  | pollOnce now order env =>
      obtain ⟨horder, h⟩ := Option.ite_none_right_eq_some.mp h
      obtain rfl := Option.some.inj h
      obtain ⟨hvisited, hleft⟩ := Runtime.pollOnce_tenant C now env horder ht'
      rcases Classical.em (rt.PassReaches C now order env id) with hreach | hreach
      · refine ⟨_, hvisited hreach, ?_, ?_⟩
        · obtain ⟨_, _, _, heq⟩ := Tenant.poll_frame C rt.registry rt.policy now (env id) t'
          rw [heq]
          apply hsource'
        · apply (Tenant.poll_active_of_pinned C _ _ _ _ (hcoherent id t' ht')
            (hsource'.trans hsource)).trans hactive'
      · exact ⟨t', hleft hreach, hsource', hactive'⟩

/-- In every state reached by loading and polling, whatever the registry answers and the
cache holds, the active component of every tenant is one coherent generation: its digest is
that of the artifact, it was compiled from the bytes of the artifact, the contract is
satisfied, and under a pin both the digest and the SHA-256 of the bytes are the pin.  From
there on a pinned tenant keeps its active component until it is registered anew. -/
theorem runtime_coherent {registry : OciClientConfig} {policy : HotReloadPolicy}
    {calls : List RuntimeCall} {rt : Runtime κ}
    (hrun : (runtimeMachine C).run (Runtime.new registry policy) calls = some rt)
    {id : TenantId} {t : Tenant κ} (ht : rt.tenant id = some t) :
  (t.active.digest = t.active.loaded.digest
      ∧ C.fromBinary t.active.loaded.bytes = .ok t.active.compiled
      ∧ contractViolations t.active.loaded.exports = none
      ∧ ∀ reference p, t.source = .oci reference (some p) →
          t.active.digest = p ∧ "sha256:" ++ hexEncode (C.sha256 t.active.loaded.bytes).val = p)
    ∧ ∀ reference p, t.source = .oci reference (some p) →
        ∀ more rt', (runtimeMachine C).run rt more = some rt' → (∀ call ∈ more, ¬call.Loads id) →
          ∃ t', rt'.tenant id = some t' ∧ t'.active = t.active
  := by
  have hrt : rt.Coherent C := by
    apply (runtimeMachine C).run_invariant _ _ hrun
    · intro rt call rt' hrt h
      apply hrt.step C h
    · intro id t h
      simp [Runtime.new] at h
  have hcoherent := hrt id t ht
  constructor
  · exact ⟨hcoherent.digest, hcoherent.compiled, hcoherent.contract, hcoherent.pinned⟩
  · intro reference p hsource more rt' hmore hloads
    have hunswapped : Unswapped C id t rt' := by
      apply (runtimeMachine C).run_induct _ ⟨hrt, t, ht, rfl, rfl⟩
        ((runtimeMachine C).meets_of_forall_mem hloads rt) hmore
      intro rt call rt' hrt hcall h
      apply hrt.step C hsource hcall h
    obtain ⟨t', ht', -, hactive⟩ := hunswapped.kept
    exact ⟨t', ht', hactive⟩

/-! ### Isolation of the reload loop -/

/-- Two polls of one tenant that meet the same outcome of pulling and the same clock do the
same. -/
theorem Tenant.poll_congr {registry₁ registry₂ : OciClientConfig} {policy : HotReloadPolicy}
    {now : Instant} {env₁ env₂ : PollEnv} {t : Tenant κ}
    (hpull : ∀ reference pin, t.source = .oci reference pin →
      (Registry.pull C registry₁ env₁.upstream reference pin).2
        = (Registry.pull C registry₂ env₂.upstream reference pin).2)
    (hactivated : env₁.activatedAt = env₂.activatedAt) (hswap : env₁.lastSwap = env₂.lastSwap) :
  t.poll C registry₁ policy now env₁ = t.poll C registry₂ policy now env₂
  := by
  rw [poll, poll]
  cases hsource : t.source with
  | file path => rfl
  | oci reference pin =>
      simp only [hpull reference pin hsource, swap, hactivated, hswap]

/-- Take two reload passes from states that agree on a tenant, with the same clock and the
same outcome of pulling for the tenant, whatever the other tenants are, whatever is pulled
for them and in whatever order the passes meet them.  They leave the tenant in the same state
exactly when both reach it, or neither does, or polling it changes nothing. -/
theorem pollOnce_isolated_iff {rt₁ rt₂ : Runtime κ} {now : Instant}
    {order₁ order₂ : List TenantId} {env₁ env₂ : TenantId → PollEnv} {id : TenantId}
    {t : Tenant κ} (ht₁ : rt₁.tenant id = some t) (ht₂ : rt₂.tenant id = some t)
    (horder₁ : order₁.Perm rt₁.tenants.keys) (horder₂ : order₂.Perm rt₂.tenants.keys)
    (hpolicy : rt₁.policy = rt₂.policy)
    (hpull : ∀ reference pin, t.source = .oci reference pin →
      (Registry.pull C rt₁.registry (env₁ id).upstream reference pin).2
        = (Registry.pull C rt₂.registry (env₂ id).upstream reference pin).2)
    (hactivated : (env₁ id).activatedAt = (env₂ id).activatedAt)
    (hswap : (env₁ id).lastSwap = (env₂ id).lastSwap) :
  (rt₁.pollOnce C now order₁ env₁).1.tenant id = (rt₂.pollOnce C now order₂ env₂).1.tenant id
    ↔ (rt₁.PassReaches C now order₁ env₁ id ↔ rt₂.PassReaches C now order₂ env₂ id)
      ∨ t.Settled C rt₁.registry rt₁.policy now (env₁ id)
  := by
  obtain ⟨hreach₁, hleft₁⟩ := Runtime.pollOnce_tenant C now env₁ horder₁ ht₁
  obtain ⟨hreach₂, hleft₂⟩ := Runtime.pollOnce_tenant C now env₂ horder₂ ht₂
  have hpoll : t.poll C rt₁.registry rt₁.policy now (env₁ id)
      = t.poll C rt₂.registry rt₂.policy now (env₂ id) := by
    rw [← hpolicy]
    apply Tenant.poll_congr C hpull hactivated hswap
  rw [← Tenant.poll_value_iff]
  rcases Classical.em (rt₁.PassReaches C now order₁ env₁ id) with h₁ | h₁
  · rcases Classical.em (rt₂.PassReaches C now order₂ env₂ id) with h₂ | h₂
    · simp [hreach₁ h₁, hreach₂ h₂, hpoll, h₁, h₂]
    · simp [hreach₁ h₁, hleft₂ h₂, h₁, h₂]
  · rcases Classical.em (rt₂.PassReaches C now order₂ env₂ id) with h₂ | h₂
    · simp [hleft₁ h₁, hreach₂ h₂, ← hpoll, h₁, h₂, eq_comm]
    · simp [hleft₁ h₁, hleft₂ h₂, h₁, h₂]

/-! ### A sample runtime -/

/-- A registry in which every tag resolves to `component`, with a cache that holds it. -/
def sampleUpstream (component : Bytes) : Upstream where
  manifest _ := .ok { layers := [{ digest := digestOf sampleCrates component }] }
  blob _ _ := .ok component
  dir := (Directory.empty.create (sampleCrates.sha256Hex component)).1.write 0 component
  process := { pid := 1, renameReplaces := true }
  put := {}
  get := none

/-- A registry that cannot be reached. -/
def unreachableUpstream : Upstream :=
  { sampleUpstream [] with manifest := fun _ => .error "connection refused" }

/-- Loading from the sample registry. -/
def sampleLoadEnv : LoadEnv where
  client := .ok ()
  upstream := sampleUpstream handlerComponent
  read _ := .error "No such file or directory"
  activatedAt := 0
  lastSwap := 0

def echoId : TenantId := ⟨"echo", by decide, by decide, by decide⟩

def otherId : TenantId := ⟨"other", by decide, by decide, by decide⟩

/-- The tenant `echo`, pinned to `handlerComponent`. -/
def pinnedConfig : TenantConfig where
  name := "echo"
  component :=
    .oci "ghcr.io/acme/echo:latest" (some (digestOf sampleCrates handlerComponent))

/-- Load the pinned tenant, and poll it while its tag has moved. -/
def pinnedCalls : List RuntimeCall :=
  [.loadTenant sampleLoadEnv pinnedConfig,
    .pollOnce (Duration.ofSecs 5) [echoId] fun _ => ⟨sampleUpstream emptyComponent, 5, 5⟩]

/-- The pinned tenant still runs the component it is pinned to. -/
theorem runtime_coherent_pinned :
  ∃ rt t,
    (runtimeMachine sampleCrates).run (Runtime.new {} {}) pinnedCalls = some rt
      ∧ rt.tenant echoId = some t
      ∧ t.active.digest = digestOf sampleCrates handlerComponent
  := by
  have htenant : (((runtimeMachine sampleCrates).run (Runtime.new {} {}) pinnedCalls).bind
      (·.tenant echoId)).map (·.source) = some pinnedConfig.component := by
    decide +kernel
  obtain ⟨t, hbind, hsource⟩ := Option.map_eq_some_iff.mp htenant
  obtain ⟨rt, hrt, ht⟩ := Option.bind_eq_some_iff.mp hbind
  obtain ⟨⟨-, -, -, hpinned⟩, -⟩ := runtime_coherent sampleCrates hrt ht
  exact ⟨rt, t, hrt, ht, (hpinned _ _ hsource).1⟩

/-- A tenant that follows the tag of `reference`. -/
def followingConfig (name reference : String) : TenantConfig where
  name := name
  component := .oci reference none

/-- A runtime with the tenants `echo` and `other`. -/
def sampleRuntime : Runtime Bytes :=
  let rt := Runtime.new {} {}
  let rt :=
    (rt.loadTenant sampleCrates sampleLoadEnv
      (followingConfig "echo" "ghcr.io/acme/echo:latest")).1
  (rt.loadTenant sampleCrates sampleLoadEnv
    (followingConfig "other" "ghcr.io/acme/other:latest")).1

theorem keys_sampleRuntime :
  sampleRuntime.tenants.keys = [otherId, echoId]
  := by decide +kernel

/-- The registry cannot be reached for `echo`, and serves `other` a component that violates
the contract. -/
def sampleOutage (id : TenantId) : PollEnv :=
  if id = echoId then ⟨unreachableUpstream, 5, 5⟩ else ⟨sampleUpstream emptyComponent, 5, 5⟩

/-- Nothing is pulled from a registry that cannot be reached. -/
theorem pull_unreachable (registry : OciClientConfig) (reference : String) (pin : Option String)
    (loaded : Loaded) :
  (Registry.pull sampleCrates registry unreachableUpstream reference pin).2 ≠ .ok loaded
  := by
  intro h
  cases hresolved : OciClient.resolve sampleCrates registry reference with
  | error e => simp [Registry.pull, OciClient.fetchComponent, hresolved] at h
  | ok resolved =>
      simp [Registry.pull, OciClient.fetchComponent, hresolved, OciClient.pullManifest,
        unreachableUpstream] at h

/-- While the registry cannot be reached, the order of a pass does not matter to `echo`. -/
theorem pollOnce_isolated_outage :
  let now := Duration.ofSecs 5
  let env : TenantId → PollEnv := fun _ => ⟨unreachableUpstream, 5, 5⟩
  (sampleRuntime.pollOnce sampleCrates now [otherId, echoId] env).1.tenant echoId
    = (sampleRuntime.pollOnce sampleCrates now [echoId, otherId] env).1.tenant echoId
  := by
  intro now env
  have hisSome : (sampleRuntime.tenant echoId).isSome = true := by
    rw [Runtime.tenant, AList.lookup_isSome, AList.mem_keys, keys_sampleRuntime]
    decide
  obtain ⟨t, ht⟩ := Option.isSome_iff_exists.mp hisSome
  have hends : ∀ (id : TenantId) (t : Tenant Bytes),
      ¬t.EndsPass sampleCrates sampleRuntime.registry sampleRuntime.policy now (env id) := by
    rintro id t ⟨loaded, ⟨reference, pin, -, -, hpull⟩, -⟩
    apply pull_unreachable _ _ _ _ hpull
  apply (pollOnce_isolated_iff sampleCrates ht ht _ _ rfl _ rfl rfl).mpr
  · left
    constructor
    · intro _ id _ t _
      apply hends id t
    · intro _ id _ t _
      apply hends id t
  · rw [keys_sampleRuntime]
  · rw [keys_sampleRuntime]
    exact .swap _ _ _
  · intro _ _ _
    rfl

/-- A pass that meets `other` first ends there, and one that meets `echo` first counts the
failed pull of `echo`: the same runtime, the same answers, and only the order differs. -/
theorem pollOnce_order_observed :
  let now := Duration.ofSecs 5
  let first := sampleRuntime.pollOnce sampleCrates now [otherId, echoId] sampleOutage
  let second := sampleRuntime.pollOnce sampleCrates now [echoId, otherId] sampleOutage
  [otherId, echoId].Perm sampleRuntime.tenants.keys
    ∧ [echoId, otherId].Perm sampleRuntime.tenants.keys
    ∧ (first.1.tenant echoId).map (·.failures) = some 0
    ∧ (second.1.tenant echoId).map (·.failures) = some 1
  := by
  intro now first second
  rw [keys_sampleRuntime]
  refine ⟨.refl _, .swap _ _ _, ?_, ?_⟩
  · decide +kernel
  · decide +kernel

end Ember
