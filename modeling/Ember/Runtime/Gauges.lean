import Ember.Library.Notice
import Ember.Runtime.Passes

/-!
# The gauge of active digests

`recordReload` sets the gauge `ember.tenant.active_digests` of a tenant and its new digest to
one, and nothing sets it back for the digest that was active before.  So the gauges of a tenant
tell its active digest until the first call that moves the tenant from one digest to another, be
it a reload or a load under the same name (`active_digests_iff`).
-/

namespace Ember

variable {κ : Type} (C : Crates κ)

/-! ### Gauges -/

/-- The value an update gives to the gauge with a name and labels. -/
def MetricUpdate.sets (name : String) (labels : Labels) : MetricUpdate → Option ℕ
  | .gauge name' value labels' => if name' = name ∧ labels' = labels then some value else none
  | .counter .. => none
  | .histogram .. => none

/-- The value of a gauge after some updates, which the last update of it has set. -/
def gauge (name : String) (labels : Labels) (updates : List MetricUpdate) : Option ℕ :=
  (updates.filterMap (MetricUpdate.sets name labels)).getLast?

/-- The gauge of a tenant and a digest. -/
def activeDigests (tenant digest : String) (updates : List MetricUpdate) : Option ℕ :=
  gauge "ember.tenant.active_digests" [("tenant", tenant), ("digest", digest)] updates

/-- The update that sets the gauge of a tenant and a digest to one. -/
def announcement (id : TenantId) (digest : String) : MetricUpdate :=
  .gauge "ember.tenant.active_digests" 1 [("tenant", id.name), ("digest", digest)]

theorem MetricUpdate.sets_eq_some {name : String} {labels : Labels} {value : ℕ}
    {u : MetricUpdate} :
  u.sets name labels = some value ↔ u = .gauge name value labels
  := by
  cases u with
  | gauge name' value' labels' =>
      rw [sets, Option.ite_none_right_eq_some, MetricUpdate.gauge.injEq, Option.some.injEq]
      tauto
  | counter => simp [sets]
  | histogram => simp [sets]

/-- When gauges are only ever set to one, a gauge is one exactly when it was set. -/
theorem gauge_eq_one_iff {name : String} {labels : Labels} {updates : List MetricUpdate}
    (hones : ∀ name v labels, .gauge name v labels ∈ updates → v = 1) :
  gauge name labels updates = some 1 ↔ .gauge name 1 labels ∈ updates
  := by
  have hmem : ∀ v, v ∈ updates.filterMap (MetricUpdate.sets name labels)
      ↔ .gauge name v labels ∈ updates := by
    intro v
    rw [List.mem_filterMap]
    simp [MetricUpdate.sets_eq_some]
  rw [gauge]
  constructor
  · intro h
    rw [← hmem]
    apply List.mem_of_getLast? h
  · intro h
    rw [← hmem] at h
    rw [List.getLast?_eq_some_getLast (List.ne_nil_of_mem h)]
    congr 1
    apply hones name _ labels
    rw [← hmem]
    apply List.getLast_mem

/-- The announcements of an id and a digest are those of no other. -/
theorem announcement_inj {id id' : TenantId} {digest digest' : String} :
  announcement id digest = announcement id' digest' ↔ id = id' ∧ digest = digest'
  := by
  simp only [announcement, MetricUpdate.gauge.injEq, List.cons.injEq, Prod.mk.injEq, true_and,
    and_true]
  apply and_congr_left
  intro _
  constructor
  · apply TenantId.ext
  · intro h
    rw [h]

/-- A reload sets one gauge. -/
theorem mem_recordReload {id : TenantId} {old : Option String} {new name : String} {v : ℕ}
    {labels : Labels} :
  .gauge name v labels ∈ Telemetry.recordReload id.name old new
    ↔ .gauge name v labels = announcement id new
  := by
  simp [Telemetry.recordReload, announcement]

/-! ### What a poll announces -/

namespace Tenant

variable {registry : OciClientConfig} {policy : HotReloadPolicy} {now : Instant}
  {env : PollEnv} {t : Tenant κ}

/-- A poll moves the digest exactly when it swaps. -/
theorem poll_digest :
  (t.poll C registry policy now env).value.active.digest ≠ t.active.digest
    ↔ t.Swaps C registry policy now env
  := by
  have h := polled C registry policy now env t
  generalize t.poll C registry policy now env = r at h
  cases h with
  | skipped hskip =>
      simp only [ne_eq, not_true_eq_false, false_iff]
      rintro ⟨loaded, hpull, -⟩
      apply hskip _ hpull
  | refused hpull hcontract => simp [hpull.swaps_iff, hcontract]
  | uncompiled hpull _ _ hcompile => simp [hpull.swaps_iff, hcompile]
  | swapped hpull hcontract hdigest hcompile =>
      simp [hpull.swaps_iff, swapped, hcontract, hdigest, hdigest.symm, hcompile]
  | same hpull _ hdigest => simp [hpull.swaps_iff, hdigest]
  | failed hpull =>
      simp only [ne_eq, not_true_eq_false, false_iff]
      rintro ⟨loaded, hpull', -⟩
      cases hpull.eq C hpull'

/-- A poll announces the digest that the tenant moves to, and sets no other gauge. -/
theorem mem_poll_events {name : String} {v : ℕ} {labels : Labels} :
  .gauge name v labels ∈ (t.poll C registry policy now env).events
    ↔ (t.poll C registry policy now env).value.active.digest ≠ t.active.digest
      ∧ .gauge name v labels
        = announcement t.id (t.poll C registry policy now env).value.active.digest
  := by
  have h := polled C registry policy now env t
  generalize t.poll C registry policy now env = r at h
  cases h with
  | skipped _ => simp
  | refused _ _ => simp
  | uncompiled _ _ _ _ => simp
  | swapped _ _ hdigest _ =>
      rw [mem_recordReload]
      simp [swapped, hdigest.symm]
  | same _ _ _ => simp
  | failed _ =>
      split
      · simp [Telemetry.recordParked]
      · simp

end Tenant

/-! ### What a call announces -/

/-- The active digests, and the gauges that are one. -/
def Runtime.board (rt : Runtime κ) : Board TenantId String where
  current id := (rt.tenant id).map (·.active.digest)
  posted id digest := activeDigests id.name digest rt.metrics = some 1

/-- The tenants carry the ids they are registered under, and gauges are only ever set to one. -/
structure Runtime.Gauged (rt : Runtime κ) : Prop where
  named : ∀ id t, rt.tenant id = some t → t.id = id
  ones : ∀ name v labels, .gauge name v labels ∈ rt.metrics → v = 1

/-- What a call that emits `updates` does: it unregisters nothing, and its gauge updates announce
the digests of the tenants it registers or moves. -/
structure Runtime.Called (rt rt' : Runtime κ) (updates : List MetricUpdate) : Prop where
  metrics : rt'.metrics = rt.metrics ++ updates
  named : ∀ id t, rt'.tenant id = some t → t.id = id
  kept : ∀ id t, rt.tenant id = some t → ∃ t', rt'.tenant id = some t'
  announced : ∀ id t', rt'.tenant id = some t' →
    (∃ t, rt.tenant id = some t ∧ t'.active.digest = t.active.digest)
      ∨ announcement id t'.active.digest ∈ updates
  gauges : ∀ name v labels, .gauge name v labels ∈ updates →
    ∃ id t', rt'.tenant id = some t' ∧ .gauge name v labels = announcement id t'.active.digest

namespace Runtime

variable {rt rt' : Runtime κ} {updates : List MetricUpdate}

/-- A gauge that is one was announced. -/
theorem Gauged.posted_iff (hrt : rt.Gauged) {id : TenantId} {digest : String} :
  rt.board.posted id digest ↔ announcement id digest ∈ rt.metrics
  := gauge_eq_one_iff hrt.ones

/-- The tenant that the board shows. -/
theorem board_current {id : TenantId} {digest : String} :
  rt.board.current id = some digest ↔ ∃ t, rt.tenant id = some t ∧ t.active.digest = digest
  := Option.map_eq_some_iff

/-- A call keeps gauges at one. -/
theorem Called.gauged (h : rt.Called rt' updates) (hrt : rt.Gauged) :
  rt'.Gauged
  := by
  constructor
  · apply h.named
  · intro name v labels hmem
    rw [h.metrics, List.mem_append] at hmem
    obtain hold | hnew := hmem
    · apply hrt.ones name v labels hold
    · obtain ⟨id, t', -, heq⟩ := h.gauges name v labels hnew
      rw [announcement] at heq
      apply (MetricUpdate.gauge.inj heq).2.1

/-- A call is a step of the board. -/
theorem Called.board (h : rt.Called rt' updates) (hrt : rt.Gauged) :
  rt.board.Step rt'.board
  := by
  have hrt' := h.gauged hrt
  constructor
  · intro id digest hcurrent
    obtain ⟨t, ht, -⟩ := board_current.mp hcurrent
    obtain ⟨t', ht'⟩ := h.kept id t ht
    use t'.active.digest
    rw [board_current]
    use t', ht'
  · intro id digest hposted
    rw [hrt.posted_iff] at hposted
    rw [hrt'.posted_iff, h.metrics]
    apply List.mem_append_left _ hposted
  · intro id digest hcurrent
    obtain ⟨t', ht', rfl⟩ := board_current.mp hcurrent
    obtain ⟨t, ht, hsame⟩ | hnew := h.announced id t' ht'
    · left
      rw [board_current]
      use t, ht, hsame.symm
    · right
      rw [hrt'.posted_iff, h.metrics]
      apply List.mem_append_right _ hnew
  · intro id digest hposted
    rw [hrt'.posted_iff, h.metrics, List.mem_append] at hposted
    obtain hold | hnew := hposted
    · left
      rw [hrt.posted_iff]
      apply hold
    · right
      obtain ⟨id', t', ht', heq⟩ := h.gauges _ _ _ hnew
      obtain ⟨rfl, rfl⟩ := announcement_inj.mp heq
      rw [board_current]
      use t', ht'

/-- A call moves the board when it moves the digest of a registered tenant. -/
theorem board_moves :
  rt.board.Moves rt'.board
    ↔ ∃ id t t', rt.tenant id = some t ∧ rt'.tenant id = some t'
        ∧ t'.active.digest ≠ t.active.digest
  := by
  simp only [Board.Moves, board_current]
  constructor
  · rintro ⟨id, _, _, ⟨t, ht, rfl⟩, ⟨t', ht', rfl⟩, hne⟩
    exact ⟨id, t, t', ht, ht', hne⟩
  · rintro ⟨id, t, t', ht, ht', hne⟩
    exact ⟨id, _, _, ⟨t, ht, rfl⟩, ⟨t', ht', rfl⟩, hne⟩

end Runtime

/-! ### The calls -/

/-- The bridge of a tenant is built when the client is. -/
theorem HttpBridge.new_ok {client : Except String Unit} {policy : EgressPolicy} {n : ℕ} :
  (∃ bridge, HttpBridge.new client policy n = .ok bridge) ↔ client = .ok ()
  := by
  cases client with
  | error e => simp [HttpBridge.new]
  | ok _ => simp [HttpBridge.new]

namespace Runtime

variable {rt rt' : Runtime κ}

/-- A call that changes nothing. -/
theorem Gauged.called_self (hrt : rt.Gauged) :
  rt.Called rt []
  := by
  constructor
  · rw [List.append_nil]
  · apply hrt.named
  · intro id t ht
    use t
  · intro id t ht
    left
    use t
  · intro name v labels hmem
    cases hmem

/-- What a load makes of the tenants. -/
theorem loadTenant_tenant {env : LoadEnv} {cfg : TenantConfig} {new : Tenant κ}
    (hactivate : Tenant.activate C rt.registry env cfg = .ok new) (id : TenantId) :
  (rt.loadTenant C env cfg).1.tenant id = if id = new.id then some new else rt.tenant id
  := by
  rw [loadTenant, hactivate, tenant, tenant]
  dsimp only
  split
  next heq => rw [heq, AList.lookup_insert]
  next hne => rw [AList.lookup_insert_ne hne]

/-- A load registers one tenant and announces its digest. -/
theorem loadTenant_called (hrt : rt.Gauged) (env : LoadEnv) (cfg : TenantConfig) :
  ∃ updates, rt.Called (rt.loadTenant C env cfg).1 updates
  := by
  cases hactivate : Tenant.activate C rt.registry env cfg with
  | error e =>
      use []
      rw [loadTenant, hactivate]
      apply hrt.called_self
  | ok new =>
      have htenant := loadTenant_tenant C hactivate
      use Telemetry.recordReload new.id.name none new.active.digest
      constructor
      · rw [loadTenant, hactivate]
      · intro id t ht
        rw [htenant] at ht
        split at ht
        next heq =>
          obtain rfl := Option.some.inj ht
          apply heq.symm
        next => apply hrt.named id t ht
      · intro id t ht
        rw [htenant]
        split
        · use new
        · use t
      · intro id t ht
        rw [htenant] at ht
        split at ht
        next heq =>
          right
          obtain rfl := Option.some.inj ht
          rw [heq]
          apply mem_recordReload.mpr rfl
        next =>
          left
          use t, ht
      · intro name v labels hmem
        use new.id, new
        rw [htenant, if_pos rfl]
        use rfl
        apply mem_recordReload.mp hmem

/-- The tenants after a pass: those the pass reaches were polled, the others are as before. -/
theorem pollOnce_inv {now : Instant} {order : List TenantId} {env : TenantId → PollEnv}
    (horder : order.Perm rt.tenants.keys) {id : TenantId} {t' : Tenant κ}
    (ht' : (rt.pollOnce C now order env).1.tenant id = some t') :
  ∃ t, rt.tenant id = some t
    ∧ ((rt.PassReaches C now order env id
          ∧ t' = (t.poll C rt.registry rt.policy now (env id)).value)
        ∨ ¬rt.PassReaches C now order env id ∧ t' = t)
  := by
  cases ht : rt.tenant id with
  | none =>
      have hid : id ∉ order := by
        rw [horder.mem_iff, ← AList.mem_keys, ← AList.lookup_eq_none]
        apply ht
      rw [pollOnce, tenant, AList.lookup_pass_of_notMem _ hid] at ht'
      rw [tenant, ht'] at ht
      cases ht
  | some t =>
      use t, rfl
      obtain ⟨hvisited, hleft⟩ := Runtime.pollOnce_tenant C now env horder ht
      rcases Classical.em (rt.PassReaches C now order env id) with hreach | hreach
      · left
        rw [hvisited hreach, Option.some.injEq] at ht'
        exact ⟨hreach, ht'.symm⟩
      · right
        rw [hleft hreach, Option.some.injEq] at ht'
        exact ⟨hreach, ht'.symm⟩

/-- The updates of a pass are those of the polls of the tenants it reaches. -/
theorem mem_pollOnce_events {now : Instant} {order : List TenantId} {env : TenantId → PollEnv}
    (horder : order.Perm rt.tenants.keys) {u : MetricUpdate} :
  u ∈ (rt.tenants.pass (fun id => Tenant.poll C rt.registry rt.policy now (env id)) order).events
    ↔ ∃ id t, rt.tenant id = some t ∧ rt.PassReaches C now order env id
        ∧ u ∈ (t.poll C rt.registry rt.policy now (env id)).events
  := by
  rw [AList.mem_events_pass _ (horder.nodup_iff.mpr rt.tenants.keys_nodup)]
  simp only [AList.Reaches, Tenant.poll_ok_iff]
  constructor
  · rintro ⟨id, -, hreach, t, ht, hu⟩
    exact ⟨id, t, ht, hreach, hu⟩
  · rintro ⟨id, t, ht, hreach, hu⟩
    exact ⟨id, mem_order horder ht, hreach, t, ht, hu⟩

/-- A pass announces the digests of the tenants it swaps. -/
theorem pollOnce_called (hrt : rt.Gauged) {now : Instant} {order : List TenantId}
    {env : TenantId → PollEnv} (horder : order.Perm rt.tenants.keys) :
  ∃ updates, rt.Called (rt.pollOnce C now order env).1 updates
  := by
  refine ⟨_, rfl, ?_, ?_, ?_, ?_⟩
  · intro id t' ht'
    obtain ⟨t, ht, ⟨-, rfl⟩ | ⟨-, rfl⟩⟩ := pollOnce_inv C horder ht'
    · obtain ⟨_, _, _, heq⟩ := t.poll_frame C rt.registry rt.policy now (env id)
      rw [heq]
      apply hrt.named id t ht
    · apply hrt.named id _ ht
  · intro id t ht
    obtain ⟨hvisited, hleft⟩ := Runtime.pollOnce_tenant C now env horder ht
    rcases Classical.em (rt.PassReaches C now order env id) with hreach | hreach
    · exact ⟨_, hvisited hreach⟩
    · exact ⟨_, hleft hreach⟩
  · intro id t' ht'
    obtain ⟨t, ht, ⟨hreach, rfl⟩ | ⟨-, rfl⟩⟩ := pollOnce_inv C horder ht'
    · rcases Classical.em ((t.poll C rt.registry rt.policy now (env id)).value.active.digest
          = t.active.digest) with hsame | hmoved
      · left
        use t
      · right
        rw [mem_pollOnce_events C horder]
        use id, t, ht, hreach
        apply (Tenant.mem_poll_events C).mpr
        use hmoved
        rw [hrt.named id t ht]
        rfl
    · left
      use t'
  · intro name v labels hmem
    rw [mem_pollOnce_events C horder] at hmem
    obtain ⟨id, t, ht, hreach, hu⟩ := hmem
    obtain ⟨-, heq⟩ := (Tenant.mem_poll_events C).mp hu
    use id, (t.poll C rt.registry rt.policy now (env id)).value
    use (Runtime.pollOnce_tenant C now env horder ht).1 hreach
    rw [heq, hrt.named id t ht]

/-- The call moves the active digest of a registered tenant.  A load does when another digest is
loaded under the name of the tenant.  A pass does when it reaches the tenant, and another digest
was pulled for it. -/
def Moves (rt : Runtime κ) : RuntimeCall → Prop
  | .loadTenant env cfg => ∃ id t loaded compiled, rt.tenant id = some t ∧ id.name = cfg.name
      ∧ cfg.limits.validate = .ok () ∧ env.client = .ok ()
      ∧ cfg.component.load C rt.registry env = .ok loaded
      ∧ contractViolations loaded.exports = none ∧ C.fromBinary loaded.bytes = .ok compiled
      ∧ loaded.digest ≠ t.active.digest
  | .pollOnce now order env => ∃ id t, rt.tenant id = some t
      ∧ rt.PassReaches C now order env id ∧ t.Swaps C rt.registry rt.policy now (env id)

/-- The loads that move a tenant. -/
theorem moves_loadTenant {env : LoadEnv} {cfg : TenantConfig} :
  rt.Moves C (.loadTenant env cfg)
    ↔ ∃ new t, Tenant.activate C rt.registry env cfg = .ok new ∧ rt.tenant new.id = some t
        ∧ new.active.digest ≠ t.active.digest
  := by
  simp only [Tenant.activate_ok, TenantId.new_ok, Sandbox.new_ok]
  constructor
  · rintro ⟨id, t, loaded, compiled, ht, hname, hlimits, hclient, hload, hcontract, hcompile, hne⟩
    obtain ⟨bridge, hbridge⟩ := HttpBridge.new_ok.mpr hclient
    exact ⟨_, t, ⟨id, _, bridge, loaded, compiled, hname, ⟨hlimits, rfl⟩, hbridge, hload,
      hcontract, hcompile, rfl⟩, ht, hne⟩
  · rintro ⟨_, t, ⟨id, _, bridge, loaded, compiled, hname, ⟨hlimits, rfl⟩, hbridge, hload,
      hcontract, hcompile, rfl⟩, ht, hne⟩
    have hclient := HttpBridge.new_ok.mp ⟨bridge, hbridge⟩
    exact ⟨id, t, loaded, compiled, ht, hname, hlimits, hclient, hload, hcontract, hcompile, hne⟩

/-- A call moves the digest of a registered tenant under the condition of `Moves`. -/
theorem moves_iff {call : RuntimeCall} (h : (runtimeMachine C).step rt call = some rt') :
  rt.Moves C call ↔ rt.board.Moves rt'.board
  := by
  rw [board_moves]
  cases call with
  | loadTenant env cfg =>
      obtain rfl := Option.some.inj h
      rw [moves_loadTenant]
      cases hactivate : Tenant.activate C rt.registry env cfg with
      | error e =>
          simp only [loadTenant, hactivate, reduceCtorEq, false_and, exists_false, false_iff]
          rintro ⟨id, t, t', ht, ht', hne⟩
          rw [ht, Option.some.injEq] at ht'
          rw [ht'] at hne
          exact absurd rfl hne
      | ok new =>
          simp only [loadTenant_tenant C hactivate, Except.ok.injEq]
          constructor
          · rintro ⟨_, t, rfl, ht, hne⟩
            use new.id, t, new, ht
            rw [if_pos rfl]
            use rfl
          · rintro ⟨id, t, t', ht, ht', hne⟩
            split at ht'
            next heq =>
              obtain rfl := Option.some.inj ht'
              rw [heq] at ht
              exact ⟨_, t, rfl, ht, hne⟩
            next =>
              rw [ht, Option.some.injEq] at ht'
              rw [ht'] at hne
              exact absurd rfl hne
  | pollOnce now order env =>
      obtain ⟨horder, h⟩ := Option.ite_none_right_eq_some.mp h
      obtain rfl := Option.some.inj h
      constructor
      · rintro ⟨id, t, ht, hreach, hswaps⟩
        refine ⟨id, t, _, ht, (Runtime.pollOnce_tenant C now env horder ht).1 hreach, ?_⟩
        apply (Tenant.poll_digest C).mpr hswaps
      · rintro ⟨id, t, t', ht, ht', hne⟩
        obtain ⟨s, hs, hcases⟩ := pollOnce_inv C horder ht'
        obtain rfl := Option.some.inj (ht.symm.trans hs)
        obtain ⟨hreach, rfl⟩ | ⟨-, rfl⟩ := hcases
        · use id, t, ht, hreach
          apply (Tenant.poll_digest C).mp hne
        · exact absurd rfl hne

end Runtime

/-- What every call does to the gauges. -/
theorem Runtime.Gauged.step {rt rt' : Runtime κ} {call : RuntimeCall} (hrt : rt.Gauged)
    (h : (runtimeMachine C).step rt call = some rt') :
  ∃ updates, rt.Called rt' updates
  := by
  cases call with
  | loadTenant env cfg =>
      obtain rfl := Option.some.inj h
      apply Runtime.loadTenant_called C hrt
  | pollOnce now order env =>
      obtain ⟨horder, h⟩ := Option.ite_none_right_eq_some.mp h
      obtain rfl := Option.some.inj h
      apply Runtime.pollOnce_called C hrt horder

/-- For every registered tenant, the gauge of the tenant and a digest is one for its active
digest, and for no other. -/
def Runtime.GaugesActive (rt : Runtime κ) : Prop :=
  ∀ id t, rt.tenant id = some t → ∀ digest,
    activeDigests id.name digest rt.metrics = some 1 ↔ digest = t.active.digest

/-- The gauges tell the active digests when the board is faithful. -/
theorem Runtime.gaugesActive_iff {rt : Runtime κ} :
  rt.GaugesActive ↔ rt.board.Faithful
  := by
  constructor
  · intro h id digest hcurrent
    obtain ⟨t, ht, rfl⟩ := Runtime.board_current.mp hcurrent
    apply h id t ht
  · intro h id t ht
    apply h id
    rw [Runtime.board_current]
    use t, ht

/-- Take any run of `load_tenant` and `poll_once` calls, whatever the registry answers and the
cache holds.  In every state between calls, the gauge `ember.tenant.active_digests` of every
registered tenant is one for its active digest and for no other, exactly when no call of the run
moves a registered tenant from one digest to another.  Nothing lowers the gauge of the digest
that was active before. -/
theorem active_digests_iff {registry : OciClientConfig} {policy : HotReloadPolicy}
    {calls : List RuntimeCall} {rt : Runtime κ}
    (hrun : (runtimeMachine C).run (Runtime.new registry policy) calls = some rt) :
  (runtimeMachine C).Always Runtime.GaugesActive (Runtime.new registry policy) calls
    ↔ (runtimeMachine C).Meets (fun rt call => ¬rt.Moves C call)
        (Runtime.new registry policy) calls
  := by
  have hstart : (Runtime.new registry policy : Runtime κ).Gauged := by
    constructor
    · intro id t ht
      simp [Runtime.new, Runtime.tenant] at ht
    · intro name v labels hmem
      cases hmem
  have hboard : Runtime.GaugesActive = fun rt : Runtime κ => rt.board.Faithful := by
    funext rt
    rw [Runtime.gaugesActive_iff]
  rw [hboard]
  apply (runtimeMachine C).always_faithful_iff _ _ _ hstart _ _ hrun
  · intro rt call rt' hrt h
    obtain ⟨updates, hcalled⟩ := hrt.step C h
    apply hcalled.gauged hrt
  · intro rt call rt' hrt h
    obtain ⟨updates, hcalled⟩ := hrt.step C h
    apply hcalled.board hrt
  · intro rt call rt' _ h
    rw [Runtime.moves_iff C h]
  · intro id digest hcurrent
    simp [Runtime.board, Runtime.new, Runtime.tenant] at hcurrent
  · intro id digest hposted
    rw [hstart.posted_iff] at hposted
    cases hposted

/-- Load the tenant `echo`, and poll it while the registry cannot be reached. -/
def outageCalls : List RuntimeCall :=
  [.loadTenant sampleLoadEnv (followingConfig "echo" "ghcr.io/acme/echo:latest"),
    .pollOnce (Duration.ofSecs 5) [echoId] fun _ => outage]

/-- The gauges tell the active digest of `echo` throughout an outage of the registry. -/
theorem active_digests_outage :
  (runtimeMachine sampleCrates).Always Runtime.GaugesActive (Runtime.new {} {}) outageCalls
  := by
  have hisSome : ((runtimeMachine sampleCrates).run (Runtime.new {} {}) outageCalls).isSome := by
    decide +kernel
  obtain ⟨rt, hrun⟩ := Option.isSome_iff_exists.mp hisSome
  apply (active_digests_iff sampleCrates hrun).mpr
  constructor
  · rintro ⟨id, t, _, _, ht, -⟩
    cases ht
  · intro rt _
    constructor
    · rintro ⟨id, t, -, -, loaded, ⟨reference, pin, -, -, hpull⟩, -⟩
      apply pull_unreachable _ _ _ _ hpull
    · intro _ _
      trivial

/-- Load the tenant `echo`, and poll it after its tag has moved. -/
def movedCalls : List RuntimeCall :=
  [.loadTenant sampleLoadEnv (followingConfig "echo" "ghcr.io/acme/echo:latest"),
    .pollOnce (Duration.ofSecs 5) [echoId] fun _ =>
      ⟨movedUpstream, Duration.ofSecs 5, Duration.ofSecs 5⟩]

/-- After the reload, the gauges of `echo` are one for the new digest and for the old one. -/
theorem active_digests_moved :
  ¬(runtimeMachine movedCrates).Always Runtime.GaugesActive (Runtime.new {} {}) movedCalls
  := by
  have hgauges : (((runtimeMachine movedCrates).run (Runtime.new {} {}) movedCalls).bind fun rt =>
      (rt.tenant echoId).map fun t =>
        (t.active.digest == digestOf movedCrates movedComponent,
          activeDigests "echo" (digestOf movedCrates movedComponent) rt.metrics,
          activeDigests "echo" (digestOf sampleCrates handlerComponent) rt.metrics))
      = some (true, some 1, some 1) := by
    decide +kernel
  have hne : digestOf sampleCrates handlerComponent ≠ digestOf movedCrates movedComponent := by
    decide +kernel
  intro halways
  obtain ⟨rt, hrun, heq⟩ := Option.bind_eq_some_iff.mp hgauges
  obtain ⟨t, ht, heq⟩ := Option.map_eq_some_iff.mp heq
  simp only [Prod.mk.injEq, beq_iff_eq] at heq
  obtain ⟨hactive, -, hold⟩ := heq
  apply hne
  rw [← hactive]
  apply (halways _ rt List.prefix_rfl hrun echoId t ht _).mp hold

end Ember
