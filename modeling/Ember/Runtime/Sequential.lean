import Ember.Runtime.Server

/-!
# Calls one after the other

The calls on a runtime in `runtimeMachine` run one after the other, and a reload pass is one
call.  In `serverMachine` they are taken apart and interleaved.  A server stands for a runtime
when its tenant map leads to the tenants of the runtime (`Server.Represents`).  Every run of
calls on a runtime that reads the clock in order is the run of a server that stands for it
(`runtime_simulated`), so what holds in all runs of the server holds in all of these.
-/

namespace Ember

variable {κ : Type} (C : Crates κ)

/-- The server stands for the runtime: the references of its tenant map are distinct, and lead
to the tenants of the runtime. -/
structure Server.Represents (s : Server κ) (rt : Runtime κ) : Prop where
  registry : s.registry = rt.registry
  policy : s.policy = rt.policy
  bound : ∀ id r, s.tenants.lookup id = some r →
    ∃ o, s.objects[r]? = some o ∧ rt.tenants.lookup id = some o.calls.tenant
  unbound : ∀ id, s.tenants.lookup id = none → rt.tenants.lookup id = none
  distinct : ∀ id id' r, s.tenants.lookup id = some r → s.tenants.lookup id' = some r → id = id'

/-! ### Readings of the clock -/

/-- The visits of a pass read the clock in order, between `start` and `stop`. -/
def VisitsClocked (stop : Instant) (env : TenantId → PollEnv) :
    Instant → List TenantId → Prop
  | start, [] => start ≤ stop
  | start, id :: ids =>
      start ≤ (env id).activatedAt ∧ (env id).activatedAt ≤ (env id).lastSwap
        ∧ VisitsClocked stop env (env id).lastSwap ids

/-- The call reads the clock in order, between `start` and `stop`. -/
def RuntimeCall.Clocked (start stop : Instant) : RuntimeCall → Prop
  | .loadTenant env _ =>
      start ≤ env.activatedAt ∧ env.activatedAt ≤ env.lastSwap ∧ env.lastSwap ≤ stop
  | .pollOnce now order env => start ≤ now ∧ VisitsClocked stop env now order

/-- The calls read the clock in order, from `start` on. -/
def CallsClocked : Instant → List RuntimeCall → Prop
  | _, [] => True
  | start, call :: calls => ∃ stop, call.Clocked start stop ∧ CallsClocked stop calls

/-- The visits start before they end. -/
theorem VisitsClocked.le {stop : Instant} {env : TenantId → PollEnv} {start : Instant}
    {ids : List TenantId} (h : VisitsClocked stop env start ids) :
  start ≤ stop
  := by
  induction ids generalizing start with
  | nil => apply h
  | cons id ids ih =>
      obtain ⟨hactivated, hswap, hrest⟩ := h
      apply (hactivated.trans hswap).trans (ih hrest)

namespace Server.Represents

variable {s : Server κ} {rt : Runtime κ}

/-- A server without tenants stands for a runtime without tenants. -/
theorem new (registry : OciClientConfig) (policy : HotReloadPolicy) :
  (Server.new registry policy : Server κ).Represents (Runtime.new registry policy)
  := by
  constructor
  · rfl
  · rfl
  · rintro id r ⟨⟩
  · intro id _
    rfl
  · rintro id id' r ⟨⟩

/-- The position of the pass, the clock and the metric updates do not matter. -/
theorem resume (hs : s.Represents rt) (pass : ReloadPass) (clock : Instant)
    (metrics : List MetricUpdate) :
  { s with pass, clock }.Represents { rt with metrics }
  := by
  constructor
  · apply hs.registry
  · apply hs.policy
  · apply hs.bound
  · apply hs.unbound
  · apply hs.distinct

/-- Both maps have the same ids. -/
theorem keys (hs : s.Represents rt) :
  rt.tenants.keys.Perm s.tenants.keys
  := by
  apply (List.perm_ext_iff_of_nodup (AList.keys_nodup _) (AList.keys_nodup _)).mpr
  intro id
  rw [← AList.mem_keys, ← AList.mem_keys, ← AList.lookup_isSome, ← AList.lookup_isSome]
  cases hid : s.tenants.lookup id with
  | none =>
      rw [hs.unbound id hid]
      rfl
  | some r =>
      obtain ⟨o, -, hrt⟩ := hs.bound id r hid
      rw [hrt]
      rfl

/-- Registering a tenant on both sides. -/
theorem load (hs : s.Represents rt) (tenant : Tenant κ) (clock : Instant)
    (metrics : List MetricUpdate) :
  { s with
      tenants := s.tenants.insert tenant.id s.objects.length
      objects := s.objects ++ [Served.init tenant]
      clock }.Represents { rt with tenants := rt.tenants.insert tenant.id tenant, metrics }
  := by
  -- the new reference is none of the old ones
  have hlt : ∀ id r, s.tenants.lookup id = some r → r < s.objects.length := by
    intro id r hid
    obtain ⟨o, ho, -⟩ := hs.bound id r hid
    apply (List.getElem?_eq_some_iff.mp ho).1
  constructor
  · apply hs.registry
  · apply hs.policy
  · intro id r hid
    obtain rfl | hne := eq_or_ne id tenant.id
    · rw [AList.lookup_insert] at hid
      obtain rfl := Option.some.inj hid
      use Served.init tenant
      constructor
      · simp
      · rw [AList.lookup_insert]
        rfl
    · rw [AList.lookup_insert_ne hne] at hid
      obtain ⟨o, ho, hrt⟩ := hs.bound id r hid
      use o
      constructor
      · rw [List.getElem?_append_left (hlt id r hid), ho]
      · rw [AList.lookup_insert_ne hne, hrt]
  · intro id hid
    rw [AList.lookup_insert_eq_none] at hid
    rw [AList.lookup_insert_ne hid.1]
    apply hs.unbound id hid.2
  · intro id id' r hid hid'
    obtain rfl | hne := eq_or_ne id tenant.id
    · rw [AList.lookup_insert] at hid
      obtain rfl := Option.some.inj hid
      by_contra hne'
      rw [AList.lookup_insert_ne (Ne.symm hne')] at hid'
      apply lt_irrefl _ (hlt id' _ hid')
    · rw [AList.lookup_insert_ne hne] at hid
      obtain rfl | hne' := eq_or_ne id' tenant.id
      · rw [AList.lookup_insert] at hid'
        obtain rfl := Option.some.inj hid'
        exact absurd (hlt id _ hid) (lt_irrefl _)
      · rw [AList.lookup_insert_ne hne'] at hid'
        apply hs.distinct id id' r hid hid'

/-- Visiting a tenant on both sides. -/
theorem visit (hs : s.Represents rt) {id : TenantId} {r : ℕ} (hid : s.tenants.lookup id = some r)
    {o : Served κ} (ho : s.objects[r]? = some o) (o' : Served κ) (pass : ReloadPass)
    (clock : Instant) :
  { s with objects := s.objects.set r o', pass, clock }.Represents
    { rt with tenants := rt.tenants.insert id o'.calls.tenant }
  := by
  have hlt : r < s.objects.length := (List.getElem?_eq_some_iff.mp ho).1
  constructor
  · apply hs.registry
  · apply hs.policy
  · intro id' r' hid'
    obtain rfl | hne := eq_or_ne id' id
    · obtain rfl := Option.some.inj (hid.symm.trans hid')
      use o'
      constructor
      · apply List.getElem?_set_self hlt
      · rw [AList.lookup_insert]
    · have hr : r ≠ r' := by
        rintro rfl
        apply hne (hs.distinct id' id r hid' hid)
      obtain ⟨o₁, ho₁, hrt⟩ := hs.bound id' r' hid'
      use o₁
      constructor
      · rw [List.getElem?_set_ne hr, ho₁]
      · rw [AList.lookup_insert_ne hne, hrt]
  · intro id' hid'
    have hne : id' ≠ id := by
      rintro rfl
      cases hid.symm.trans hid'
    rw [AList.lookup_insert_ne hne]
    apply hs.unbound id' hid'
  · apply hs.distinct

end Server.Represents

/-- The reference of a tenant, by its id. -/
def Server.ref (s : Server κ) (id : TenantId) : ℕ := (s.tenants.lookup id).getD 0

/-- An order of the ids is a snapshot of the tenants. -/
theorem Server.snapshot_perm (s : Server κ) {order : List TenantId}
    (h : order.Perm s.tenants.keys) :
  (order.map s.ref).Perm s.snapshotTenants
  := by
  have hrefs : s.tenants.keys.map s.ref = s.snapshotTenants := by
    rw [AList.keys, List.keys, List.map_map, snapshotTenants]
    apply List.map_congr_left
    intro e he
    rw [Function.comp_apply, ref, AList.mem_lookup_iff.mpr he]
    rfl
  rw [← hrefs]
  apply h.map

/-! ### Simulating a call -/

/-- The server can get from `s` to a state between two passes, not after `stop`, that stands for
the runtime `rt`. -/
def Server.Simulates (s : Server κ) (stop : Instant) (rt : Runtime κ) : Prop :=
  ∃ actions t, (serverMachine C).run s actions = some t ∧ t.pass = .idle ∧ t.clock ≤ stop
    ∧ t.Represents rt

namespace Server

variable {s t : Server κ} {rt : Runtime κ} {stop : Instant}

/-- The server can take a step first. -/
theorem Simulates.cons {a : ServerAction} (h : s.step C a = some t)
    (ht : t.Simulates C stop rt) :
  s.Simulates C stop rt
  := by
  obtain ⟨actions, u, hrun, hu⟩ := ht
  use a :: actions, u
  constructor
  · apply (serverMachine C).run_cons.mpr
    use t, h
  · apply hu

/-- The server is there already. -/
theorem Simulates.nil (hidle : s.pass = .idle) (hclock : s.clock ≤ stop) (hs : s.Represents rt) :
  s.Simulates C stop rt
  := by
  use [], s, rfl

/-- The visits of a pass give what the loop over the tenants gives. -/
theorem visits_simulated {now : Instant} {env : TenantId → PollEnv} {ids : List TenantId}
    (hs : s.Represents rt) (hids : ∀ id ∈ ids, id ∈ s.tenants)
    (hpass : s.pass = .visiting now (ids.map s.ref)) (hclock : VisitsClocked stop env s.clock ids) :
  s.Simulates C stop
    { rt with
      tenants :=
        (rt.tenants.pass (fun id => Tenant.poll C rt.registry rt.policy now (env id)) ids).value }
  := by
  induction ids generalizing s rt with
  | nil =>
      have hstep : s.step C .finish = some { s with pass := .idle } := by
        simp [step, hpass]
      apply Simulates.cons C hstep
      apply Simulates.nil C
      · rfl
      · apply hclock
      · apply hs.resume .idle s.clock rt.metrics
  | cons id ids ih =>
      rw [List.forall_mem_cons] at hids
      obtain ⟨hactivated, hswap, hrest⟩ := hclock
      obtain ⟨r, hr⟩ := Option.isSome_iff_exists.mp (AList.lookup_isSome.mpr hids.1)
      obtain ⟨o, ho, hrt⟩ := hs.bound id r hr
      have href : s.ref id = r := by
        rw [ref, hr]
        rfl
      have hstep : s.step C (.poll (env id)) = some
          { s with
            objects := s.objects.set r (o.poll C rt.registry rt.policy now (env id)).1
            pass :=
              .after now (ids.map s.ref) (o.poll C rt.registry rt.policy now (env id)).2
            clock := (env id).lastSwap } := by
        simp [step, hpass, href, ho, hactivated, hswap, hs.registry, hs.policy]
      have hvisit := hs.visit hr ho (o.poll C rt.registry rt.policy now (env id)).1
        (.after now (ids.map s.ref) (o.poll C rt.registry rt.policy now (env id)).2)
        (env id).lastSwap
      apply Simulates.cons C hstep
      obtain ⟨hnone, -⟩ | ⟨v, hv, hcases⟩ := rt.tenants.pass_cons
        (fun id => Tenant.poll C rt.registry rt.policy now (env id)) id ids
      · cases hrt.symm.trans hnone
      · obtain rfl := Option.some.inj (hrt.symm.trans hv)
        have houtcome : (o.poll C rt.registry rt.policy now (env id)).2
            = (o.calls.tenant.poll C rt.registry rt.policy now (env id)).outcome := rfl
        obtain ⟨e, he, heq, -⟩ | ⟨hok, heq, -⟩ := hcases
        · rw [heq]
          apply Simulates.nil C
          · rw [houtcome, he]
            rfl
          · apply hrest.le
          · apply hvisit
        · rw [heq]
          apply ih hvisit hids.2
          · rw [houtcome, hok]
            rfl
          · apply hrest

/-- A call on the runtime is a run of the server. -/
theorem call_simulated {rt' : Runtime κ} {call : RuntimeCall} {start : Instant}
    (hs : s.Represents rt) (hidle : s.pass = .idle) (hstart : s.clock ≤ start)
    (hclock : call.Clocked start stop) (hstep : (runtimeMachine C).step rt call = some rt') :
  s.Simulates C stop rt'
  := by
  cases call with
  | loadTenant env cfg =>
      obtain ⟨hactivated, hswap, hstop⟩ := hclock
      obtain rfl := Option.some.inj hstep
      have hload : s.step C (.load env cfg) = some (s.loadTenant C env cfg).1 := by
        simp [step, hstart.trans hactivated, hswap]
      have hsame :
          Tenant.activate C s.registry env cfg = Tenant.activate C rt.registry env cfg := by
        rw [hs.registry]
      apply Simulates.cons C hload
      rw [loadTenant, Runtime.loadTenant, hsame]
      cases Tenant.activate C rt.registry env cfg with
      | error e =>
          apply Simulates.nil C hidle _ hs
          apply hstart.trans (hactivated.trans (hswap.trans hstop))
      | ok tenant =>
          apply Simulates.nil C
          · apply hidle
          · apply hstop
          · apply hs.load
  | pollOnce now order env =>
      obtain ⟨hnow, hvisits⟩ := hclock
      simp only [runtimeMachine, Option.ite_none_right_eq_some] at hstep
      obtain ⟨horder, hstep⟩ := hstep
      obtain rfl := Option.some.inj hstep
      have hperm : order.Perm s.tenants.keys := horder.trans hs.keys
      have hbegin : s.step C (.begin now) = some { s with pass := .started now, clock := now } := by
        simp [step, hidle, hstart.trans hnow]
      have hsnapshot : step C { s with pass := .started now, clock := now }
          (.snapshot (order.map s.ref))
          = some { s with pass := .visiting now (order.map s.ref), clock := now } := by
        apply if_pos
        apply s.snapshot_perm hperm
      apply Simulates.cons C hbegin
      apply Simulates.cons C hsnapshot
      have hvisited : Simulates C { s with pass := .visiting now (order.map s.ref), clock := now }
          stop
          { rt with
            tenants :=
              (rt.tenants.pass (fun id => Tenant.poll C rt.registry rt.policy now (env id))
                order).value } := by
        apply visits_simulated C (hs.resume (.visiting now (order.map s.ref)) now rt.metrics)
        · intro id hid
          apply AList.mem_keys.mpr (hperm.subset hid)
        · rfl
        · apply hvisits
      obtain ⟨actions, t, hrun, ht, htclock, hrt⟩ := hvisited
      use actions, t, hrun, ht, htclock
      apply hrt.resume t.pass t.clock

/-- Calls on the runtime, one after the other, are a run of the server. -/
theorem calls_simulated {rt' : Runtime κ} {calls : List RuntimeCall} {start : Instant}
    (hs : s.Represents rt) (hidle : s.pass = .idle) (hstart : s.clock ≤ start)
    (hclock : CallsClocked start calls) (hrun : (runtimeMachine C).run rt calls = some rt') :
  ∃ actions t, (serverMachine C).run s actions = some t ∧ t.pass = .idle ∧ t.Represents rt'
  := by
  induction calls generalizing s rt start with
  | nil =>
      obtain rfl := Option.some.inj hrun
      use [], s, rfl
  | cons call calls ih =>
      obtain ⟨stop, hcall, hrest⟩ := hclock
      obtain ⟨rt₁, hstep, hrun⟩ := (runtimeMachine C).run_cons.mp hrun
      obtain ⟨actions, s₁, hactions, hidle₁, hclock₁, hs₁⟩ :=
        call_simulated C hs hidle hstart hcall hstep
      obtain ⟨more, t, hmore, ht⟩ := ih hs₁ hidle₁ hclock₁ hrest hrun
      use actions ++ more, t
      constructor
      · apply (serverMachine C).run_append.mpr
        use s₁, hactions
      · apply ht

end Server

/-- Every run of calls on a runtime whose readings of the clock are in order is a run of the
server: it gets to a state between two passes that stands for the runtime. -/
theorem runtime_simulated {registry : OciClientConfig} {policy : HotReloadPolicy}
    {calls : List RuntimeCall} (hclock : CallsClocked 0 calls) {rt : Runtime κ}
    (hrun : (runtimeMachine C).run (Runtime.new registry policy) calls = some rt) :
  ∃ actions s, (serverMachine C).run (Server.new registry policy) actions = some s
    ∧ s.pass = .idle ∧ s.Represents rt
  := by
  apply Server.calls_simulated C (Server.Represents.new registry policy) _ _ hclock hrun
  · rfl
  · apply le_rfl

/-- Load the tenant `echo`, and visit it five seconds later. -/
def visitedCalls : List RuntimeCall :=
  [.loadTenant sampleLoadEnv (followingConfig "echo" "ghcr.io/acme/echo:latest"),
    .pollOnce (Duration.ofSecs 5) [echoId] fun _ =>
      ⟨sampleUpstream handlerComponent, Duration.ofSecs 5, Duration.ofSecs 5⟩]

/-- A server stands for the runtime after the visit of `echo`. -/
theorem runtime_simulated_visit :
  ∃ rt actions s, (runtimeMachine sampleCrates).run (Runtime.new {} {}) visitedCalls = some rt
    ∧ rt.tenantCount = 1 ∧ (serverMachine sampleCrates).run (Server.new {} {}) actions = some s
    ∧ s.Represents rt
  := by
  have hrun : ((runtimeMachine sampleCrates).run (Runtime.new {} {}) visitedCalls).map
      Runtime.tenantCount = some 1 := by
    decide +kernel
  obtain ⟨rt, hrt, hcount⟩ := Option.map_eq_some_iff.mp hrun
  have hclock : CallsClocked 0 visitedCalls := by
    use 0
    constructor
    · exact ⟨le_rfl, le_rfl, le_rfl⟩
    · use Duration.ofSecs 5
      constructor
      · exact ⟨Nat.zero_le _, le_rfl, le_rfl, le_rfl⟩
      · trivial
  obtain ⟨actions, s, hs, -, hrepresents⟩ := runtime_simulated sampleCrates hclock hrt
  exact ⟨rt, actions, s, hrt, hcount, hs, hrepresents⟩

end Ember
