import Ember.Library.Stutter
import Ember.Runtime.Objects
import Ember.Runtime.Passes

/-!
# The history of a tenant

What a tenant has gone through, in any run of the server.

The generations of a tenant are what was pulled for it, without the pulls that could not be used
and the digests that repeat the one before (`reload_follows`).  So a tenant whose source has
settled is reloaded at most once, and runs what the source offers from its next pull on
(`reload_converges`).

A tenant records every reload, every invocation that is answered, and every failed pull after
its budget of failures is spent.  The updates are emitted one by one, by the reload loop and by
the invocations, and read together they are an account of the generations from the load to the
active one, and of the invocations delivered, each under the digest of one of the generations
(`metrics_account`).
-/

namespace Ember

variable {κ : Type} (C : Crates κ)

/-! ### The generations of a tenant -/

/-- The digest of what was pulled, if it satisfies the contract and compiles. -/
def PullRecord.usable (p : PullRecord) : Option String :=
  match p.outcome with
  | .error _ => none
  | .ok loaded =>
      match contractViolations loaded.exports, C.fromBinary loaded.bytes with
      | none, .ok _ => some loaded.digest
      | _, _ => none

/-- What was pulled is usable when it satisfies the contract and compiles. -/
theorem PullRecord.usable_eq_some {p : PullRecord} {d : String} :
  p.usable C = some d
    ↔ ∃ loaded, p.outcome = .ok loaded ∧ contractViolations loaded.exports = none
      ∧ (∃ compiled, C.fromBinary loaded.bytes = .ok compiled) ∧ loaded.digest = d
  := by
  rw [usable]
  cases p.outcome with
  | error e => simp
  | ok loaded =>
      cases hcontract : contractViolations loaded.exports with
      | some e => simp [hcontract]
      | none => cases hcompile : C.fromBinary loaded.bytes with
        | error e => simp [hcompile]
        | ok compiled => simp [hcontract, hcompile]

namespace Served

/-- The digests of what the tenant was pulled that can be used, the latest first, and last the
digest it was loaded with. -/
def offered (first : String) (o : Served κ) : List String :=
  o.pulls.filterMap (PullRecord.usable C) ++ [first]

/-- The tenant follows what it is offered: its generations are what it was offered, up to digests
that repeat the one before, the active one is what it was offered last, and when that was just
now, no failure is counted. -/
structure Follows (first : String) (o : Served κ) : Prop where
  active : (o.offered C first).head? = some o.calls.tenant.active.digest
  generations : o.calls.generations.map ActiveComponent.digest
    = (o.offered C first).destutter (· ≠ ·)
  failures : ∀ p older, o.pulls = p :: older → (p.usable C).isSome → o.calls.tenant.failures = 0
  first : ∃ newer g, o.calls.generations = newer ++ [g] ∧ g.digest = first

namespace Follows

variable {first : String} {o o' : Served κ}

/-- A tenant that was just loaded was offered the digest it was loaded with. -/
theorem init (tenant : Tenant κ) :
  (Served.init tenant).Follows C tenant.active.digest
  := by
  constructor
  · rfl
  · rfl
  · rintro p older ⟨⟩
  · exact ⟨[], tenant.active, rfl, rfl⟩

/-- What leaves the pulls and the reload loop's part of the tenant alone keeps this. -/
theorem of_eq (ho : o.Follows C first)
    (hactive : o'.calls.tenant.active = o.calls.tenant.active)
    (hfailures : o'.calls.tenant.failures = o.calls.tenant.failures)
    (hgenerations : o'.calls.generations = o.calls.generations) (hpulls : o'.pulls = o.pulls) :
  o'.Follows C first
  := by
  have hoffered : o'.offered C first = o.offered C first := by
    rw [offered, offered, hpulls]
  constructor
  · rw [hoffered, hactive, ho.active]
  · rw [hoffered, hgenerations, ho.generations]
  · rw [hpulls, hfailures]
    apply ho.failures
  · rw [hgenerations]
    apply ho.first

/-- A pull that leaves the active component, and is of no use or offers its digest once more, keeps
this. -/
theorem of_same (ho : o.Follows C first) {p : PullRecord} (hpulls : o'.pulls = p :: o.pulls)
    (hactive : o'.calls.tenant.active = o.calls.tenant.active)
    (hgenerations : o'.calls.generations = o.calls.generations)
    (hp : ∀ d, p.usable C = some d →
      d = o.calls.tenant.active.digest ∧ o'.calls.tenant.failures = 0) :
  o'.Follows C first
  := by
  have hfailures : ∀ p' older, o'.pulls = p' :: older → (p'.usable C).isSome →
      o'.calls.tenant.failures = 0 := by
    intro p' older hpulls' husable
    obtain ⟨rfl, -⟩ := List.cons.inj (hpulls.symm.trans hpulls')
    obtain ⟨d, hd⟩ := Option.isSome_iff_exists.mp husable
    apply (hp d hd).2
  cases husable : p.usable C with
  | none =>
      have hoffered : o'.offered C first = o.offered C first := by
        rw [offered, offered, hpulls, List.filterMap_cons_none husable]
      constructor
      · rw [hoffered, hactive, ho.active]
      · rw [hoffered, hgenerations, ho.generations]
      · apply hfailures
      · rw [hgenerations]
        apply ho.first
  | some d =>
      obtain ⟨rfl, -⟩ := hp d husable
      have hoffered : o'.offered C first = o.calls.tenant.active.digest :: o.offered C first := by
        rw [offered, offered, hpulls, List.filterMap_cons_some husable, List.cons_append]
      constructor
      · rw [hoffered, hactive]
        rfl
      · rw [hoffered, hgenerations, ho.generations, List.destutter_ne_cons_same ho.active]
      · apply hfailures
      · rw [hgenerations]
        apply ho.first

/-- A visit of the reload loop keeps this. -/
theorem poll {registry : OciClientConfig} {policy : HotReloadPolicy} {now : Instant}
    {env : PollEnv} (ho : o.Follows C first) :
  (o.poll C registry policy now env).1.Follows C first
  := by
  have h := o.visited C registry policy now env
  generalize o.poll C registry policy now env = visited at h
  cases h with
  | skipped _ => apply ho
  | @ended loaded e hpull hends =>
      apply ho.of_same C
      · rfl
      · rfl
      · rfl
      intro d hd
      obtain ⟨loaded', heq, hcontract, ⟨compiled, hcompile⟩, -⟩ :=
        (PullRecord.usable_eq_some C).mp hd
      obtain rfl := Except.ok.inj heq
      rw [hpull.endsPass_iff C] at hends
      simp [hcontract, hcompile] at hends
  | @same loaded hpull _ hdigest =>
      apply ho.of_same C
      · rfl
      · rfl
      · rfl
      intro d hd
      obtain ⟨loaded', heq, -, -, hd⟩ := (PullRecord.usable_eq_some C).mp hd
      obtain rfl := Except.ok.inj heq
      exact ⟨hd.symm.trans hdigest.symm, rfl⟩
  | failed hpull _ =>
      apply ho.of_same C
      · rfl
      · rfl
      · rfl
      intro d hd
      obtain ⟨loaded', heq, -⟩ := (PullRecord.usable_eq_some C).mp hd
      cases heq
  | @swapped loaded compiled events hpull hends hdigest _ =>
      rw [hpull.endsPass_iff C, not_or, not_not, not_and, not_forall] at hends
      obtain ⟨hcontract, hcompile⟩ := hends
      obtain ⟨compiled', hcompile⟩ := hcompile hdigest
      have husable :
          PullRecord.usable C { outcome := .ok loaded, events } = some loaded.digest := by
        apply (PullRecord.usable_eq_some C).mpr
        exact ⟨loaded, rfl, hcontract, ⟨compiled', not_not.mp hcompile⟩, rfl⟩
      have hoffered : ∀ o' : Served κ, o'.pulls = { outcome := .ok loaded, events } :: o.pulls →
          o'.offered C first = loaded.digest :: o.offered C first := by
        intro o' hpulls
        rw [offered, offered, hpulls, List.filterMap_cons_some husable, List.cons_append]
      constructor
      · rw [hoffered _ rfl]
        rfl
      · have hnew : (o.offered C first).head? ≠ some loaded.digest := by
          rw [ho.active]
          intro heq
          apply hdigest (Option.some.inj heq)
        rw [hoffered _ rfl, List.destutter_ne_cons_new hnew, ← ho.generations]
        rfl
      · intro _ _ _ _
        rfl
      · obtain ⟨newer, g, hgenerations, hg⟩ := ho.first
        use (o.calls.tenant.swapped loaded compiled env).active :: newer, g
        dsimp only
        rw [hgenerations]
        exact ⟨rfl, hg⟩

/-- Nothing that happens to a tenant ends this. -/
theorem evolve {s : Server κ} {a : ServerAction} {r : ℕ} (ho : o.Follows C first)
    (h : o.Evolved C s a r o') :
  o'.Follows C first
  := by
  cases h with
  | kept => apply ho
  | polled _ _ => apply ho.poll C
  | invoked _ hb hstep =>
      obtain ⟨hactive, -, hfailures, hgenerations⟩ :=
        Invocations.step_reload_eq C hstep (InvokeAction.ne_swap hb)
      exact ho.of_eq C hactive hfailures hgenerations rfl
  | ticked _ =>
      apply ho.of_eq C
      · rfl
      · rfl
      · rfl
      · rfl

end Follows

/-- The pulls and the generations of a tenant only grow. -/
structure Grows (o o' : Served κ) : Prop where
  pulls : o.pulls <:+ o'.pulls
  generations : o.calls.generations <:+ o'.calls.generations

theorem Grows.refl (o : Served κ) :
  o.Grows o
  := ⟨List.suffix_rfl, List.suffix_rfl⟩

theorem Grows.trans {o o' o'' : Served κ} (h : o.Grows o') (h' : o'.Grows o'') :
  o.Grows o''
  := ⟨h.pulls.trans h'.pulls, h.generations.trans h'.generations⟩

/-- Nothing that happens to a tenant forgets a pull or a generation. -/
theorem Evolved.grows {s : Server κ} {a : ServerAction} {r : ℕ} {o o' : Served κ}
    (h : o.Evolved C s a r o') :
  o.Grows o'
  := by
  cases h with
  | kept => exact ⟨List.suffix_rfl, List.suffix_rfl⟩
  | @polled env now rest _ _ =>
      have hvisited := o.visited C s.registry s.policy now env
      generalize o.poll C s.registry s.policy now env = visited at hvisited
      cases hvisited with
      | skipped _ => exact ⟨List.suffix_rfl, List.suffix_rfl⟩
      | swapped _ _ _ _ => exact ⟨List.suffix_cons _ _, List.suffix_cons _ _⟩
      | _ => exact ⟨List.suffix_cons _ _, List.suffix_rfl⟩
  | invoked _ hb hstep =>
      use List.suffix_rfl
      rw [(Invocations.step_reload_eq C hstep (InvokeAction.ne_swap hb)).2.2.2]
  | ticked _ => exact ⟨List.suffix_rfl, List.suffix_rfl⟩

end Served

/-- Every tenant of a server follows what it is offered. -/
theorem Server.follows {registry : OciClientConfig} {policy : HotReloadPolicy}
    {actions : List ServerAction} {s : Server κ}
    (hrun : (serverMachine C).run (Server.new registry policy) actions = some s) {r : ℕ}
    {o : Served κ} (ho : s.objects[r]? = some o) :
  ∃ first, o.Follows C first
  := by
  have hs : ∀ (r : ℕ) (o : Served κ), s.objects[r]? = some o → ∃ first, o.Follows C first := by
    apply (serverMachine C).run_invariant _ _ hrun
    · intro s a t hs h r o ho
      cases hold : s.objects[r]? with
      | none =>
          obtain ⟨-, env, cfg, tenant, -, -, rfl⟩ := Server.appears C h ho hold
          use tenant.active.digest
          apply Served.Follows.init
      | some old =>
          obtain ⟨o', ho', hevolved⟩ := Server.evolves C h hold
          obtain rfl := Option.some.inj (ho.symm.trans ho')
          obtain ⟨first, hfollows⟩ := hs r old hold
          use first
          apply hfollows.evolve C hevolved
    · rintro r o ⟨⟩
  apply hs r o ho

/-- Take any run of the server: loads, reload passes, invocations and ticks, interleaved in any
way, whatever the registry answers.  The generations of a tenant, from the load to the active one,
have the digests of what was pulled for it, without the pulls that failed, violated the contract or
did not compile, and without those that repeat the digest just before them; a digest that comes back
later is a generation again.  So the active one has the digest of the last pull that could be used;
and when that was the last pull of all, no failure is counted. -/
theorem reload_follows {registry : OciClientConfig} {policy : HotReloadPolicy}
    {actions : List ServerAction} {s : Server κ}
    (hrun : (serverMachine C).run (Server.new registry policy) actions = some s) :
  ∀ o ∈ s.objects, ∃ newer first, o.calls.generations = newer ++ [first]
    ∧ o.calls.generations.map ActiveComponent.digest
      = (o.offered C first.digest).destutter (· ≠ ·)
    ∧ (o.offered C first.digest).head? = some o.calls.tenant.active.digest
    ∧ ∀ p older, o.pulls = p :: older → (p.usable C).isSome → o.calls.tenant.failures = 0
  := by
  intro o ho
  obtain ⟨r, hr⟩ := List.mem_iff_getElem?.mp ho
  obtain ⟨first, ho⟩ := Server.follows C hrun hr
  obtain ⟨newer, g, hgenerations, rfl⟩ := ho.first
  exact ⟨newer, g, hgenerations, ho.generations, ho.active, ho.failures⟩

/-- A second pass over the tenant `echo`, which finds the tag where the first one found it. -/
def movedTwice : List ServerAction :=
  samplePass (Duration.ofSecs 5) movedUpstream
    ++ .finish :: samplePass (Duration.ofSecs 10) movedUpstream

/-- The tenant `echo` was pulled twice and has gone through two generations. -/
theorem reload_follows_moved :
  ∃ s o first, (serverMachine movedCrates).run (Server.new {} {}) (loadEcho :: movedTwice) = some s
    ∧ o ∈ s.objects ∧ o.pulls.length = 2 ∧ o.calls.generations.length = 2
    ∧ o.calls.generations.map ActiveComponent.digest
      = (o.offered movedCrates first).destutter (· ≠ ·)
  := by
  have hlengths : ((serverMachine movedCrates).run (Server.new {} {}) (loadEcho :: movedTwice)).map
      (fun s => s.objects.map fun o => (o.pulls.length, o.calls.generations.length))
      = some [(2, 2)] := by
    decide +kernel
  obtain ⟨s, hs, hlengths⟩ := Option.map_eq_some_iff.mp hlengths
  obtain ⟨o, hobjects, hlengths⟩ := List.map_eq_singleton_iff.mp hlengths
  obtain ⟨hpulls, hlength⟩ := Prod.mk.inj hlengths
  have ho : o ∈ s.objects := by
    rw [hobjects]
    apply List.mem_singleton_self
  obtain ⟨-, first, -, hgenerations, -⟩ := reload_follows movedCrates hs o ho
  exact ⟨s, o, first.digest, hs, ho, hpulls, hlength, hgenerations⟩

/-- Take a run of the server, from a state that it can reach to a later one, and a tenant.  When
everything that is pulled for the tenant in between can be used and has one digest, then the tenant
is reloaded at most once, and not if it has the digest already.  And as soon as it is pulled at all,
it has the digest, and no failure is counted. -/
theorem reload_converges {registry : OciClientConfig} {policy : HotReloadPolicy}
    {actions later : List ServerAction} {s t : Server κ}
    (hrun : (serverMachine C).run (Server.new registry policy) actions = some s)
    (hlater : (serverMachine C).run s later = some t) {r : ℕ} {o : Served κ}
    (ho : s.objects[r]? = some o) :
  ∃ o' newer, t.objects[r]? = some o' ∧ o'.pulls = newer ++ o.pulls
    ∧ ∀ d, (∀ p ∈ newer, p.usable C = some d) →
        (o'.calls.generations = o.calls.generations
          ∨ (o.calls.tenant.active.digest ≠ d
            ∧ ∃ g, o'.calls.generations = g :: o.calls.generations ∧ g.digest = d))
        ∧ (newer ≠ [] → o'.calls.tenant.active.digest = d ∧ o'.calls.tenant.failures = 0)
  := by
  obtain ⟨first, hfollows⟩ := Server.follows C hrun ho
  obtain ⟨o', ho', hgrows, hfollows'⟩ :
      ∃ o', t.objects[r]? = some o' ∧ o.Grows o' ∧ o'.Follows C first := by
    apply (serverMachine C).run_invariant
      (I := fun s => ∃ o', s.objects[r]? = some o' ∧ o.Grows o' ∧ o'.Follows C first) _ _ hlater
    · rintro s a t ⟨o', ho', hgrows, hfollows⟩ h
      obtain ⟨o'', ho'', hevolved⟩ := Server.evolves C h ho'
      exact ⟨o'', ho'', hgrows.trans (hevolved.grows C), hfollows.evolve C hevolved⟩
    · exact ⟨o, ho, .refl o, hfollows⟩
  obtain ⟨newer, hnewer⟩ := hgrows.pulls
  obtain ⟨added, hadded⟩ := hgrows.generations
  refine ⟨o', newer, ho', hnewer.symm, ?_⟩
  intro d hd
  -- what was offered in between is the digest, once for each pull
  have hdigests : ∀ d' ∈ newer.filterMap (PullRecord.usable C), d' = d := by
    intro d' hd'
    obtain ⟨p, hp, husable⟩ := List.mem_filterMap.mp hd'
    rw [hd p hp] at husable
    apply (Option.some.inj husable).symm
  have hoffered : o'.offered C first
      = newer.filterMap (PullRecord.usable C) ++ o.offered C first := by
    rw [Served.offered, Served.offered, ← hnewer, List.filterMap_append, List.append_assoc]
  obtain ⟨hhead, hgenerations⟩ := List.destutter_ne_append hdigests (o.offered C first)
  rw [← hoffered, ← hfollows'.generations, ← hfollows.generations, ← hadded, List.map_append,
    hfollows.active] at hgenerations
  rw [← hoffered, hfollows'.active] at hhead
  constructor
  · obtain hsame | ⟨hne, hone⟩ := hgenerations
    · left
      rw [← hadded, List.map_eq_nil_iff.mp (List.append_left_eq_self.mp hsame)]
      rfl
    · right
      constructor
      · intro heq
        apply hne
        rw [heq]
      · have hone : added.map ActiveComponent.digest = [d] := by
          apply List.append_cancel_right
          apply hone
        obtain ⟨g, rfl, hg⟩ := List.map_eq_singleton_iff.mp hone
        exact ⟨g, hadded.symm, hg⟩
  · intro hne
    obtain ⟨p, rest, rfl⟩ := List.exists_cons_of_ne_nil hne
    have husable := hd p List.mem_cons_self
    constructor
    · obtain hnil | hhead := hhead
      · rw [List.filterMap_cons_some husable] at hnil
        cases hnil
      · apply Option.some.inj hhead
    · apply hfollows'.failures p (rest ++ o.pulls) hnewer.symm
      rw [husable]
      rfl

/-- From its load on, both passes find one digest for the tenant `echo`, which is reloaded once. -/
theorem reload_converges_moved :
  ∃ s o t o', (serverMachine movedCrates).run (Server.new {} {}) [loadEcho] = some s
    ∧ s.objects[0]? = some o ∧ (serverMachine movedCrates).run s movedTwice = some t
    ∧ t.objects[0]? = some o' ∧ o.pulls = [] ∧ o'.pulls.length = 2
    ∧ o'.calls.tenant.active.digest = digestOf movedCrates movedComponent
  := by
  have hpulls : ((serverMachine movedCrates).run (Server.new {} {}) [loadEcho]).bind (fun s =>
      ((serverMachine movedCrates).run s movedTwice).map fun t =>
        (s.objects.map (·.pulls.length),
          t.objects.map fun o => o.pulls.map (PullRecord.usable movedCrates)))
      = some ([0], [[some (digestOf movedCrates movedComponent),
          some (digestOf movedCrates movedComponent)]]) := by
    decide +kernel
  obtain ⟨s, hs, hpulls⟩ := Option.bind_eq_some_iff.mp hpulls
  obtain ⟨t, ht, hpulls⟩ := Option.map_eq_some_iff.mp hpulls
  obtain ⟨hnone, hpulls⟩ := Prod.mk.inj hpulls
  obtain ⟨o, hobjects, hnone⟩ := List.map_eq_singleton_iff.mp hnone
  have ho : s.objects[0]? = some o := by
    rw [hobjects]
    rfl
  obtain ⟨o', newer, ho', hnewer, hconverges⟩ := reload_converges movedCrates hs ht ho
  rw [List.length_eq_zero_iff.mp hnone, List.append_nil] at hnewer
  obtain ⟨o'', hobjects', hpulls⟩ := List.map_eq_singleton_iff.mp hpulls
  rw [hobjects'] at ho'
  obtain rfl := Option.some.inj ho'
  rw [hnewer] at hpulls
  have husable : ∀ p ∈ newer,
      p.usable movedCrates = some (digestOf movedCrates movedComponent) := by
    intro p hp
    have hmem := List.mem_map_of_mem (f := PullRecord.usable movedCrates) hp
    rw [hpulls] at hmem
    simpa using hmem
  have hlength : newer.length = 2 := by simpa using congrArg List.length hpulls
  have hne : newer ≠ [] := by
    rintro rfl
    cases hlength
  refine ⟨s, o, t, o'', hs, ho, ht, ?_, List.length_eq_zero_iff.mp hnone, ?_, ?_⟩
  · rw [hobjects']
    rfl
  · rw [hnewer, hlength]
  · apply ((hconverges _ husable).2 hne).1

/-! ### The metric updates of a tenant -/

/-- The update is about a reload. -/
def MetricUpdate.ofReload (u : MetricUpdate) : Bool :=
  u.name = "ember.reload.total" || u.name = "ember.tenant.active_digests"

/-- The update is about an invocation. -/
def MetricUpdate.ofInvoke (u : MetricUpdate) : Bool :=
  u.name = "ember.invoke.duration_us" || u.name = "ember.invoke.total"
    || u.name = "ember.invoke.errors"

/-- The updates that tell of the reloads of a tenant whose generations had the given digests, the
latest first.  Each reload is counted under the digest before and the digest after it, and the gauge
of the digest after it is set. -/
def reloadTrail (tenant : String) : List String → List MetricUpdate
  | [] => []
  | digest :: older =>
      reloadTrail tenant older
        ++ [.counter "ember.reload.total" 1
            [("tenant", tenant), ("from", older.head?.getD "none"), ("to", digest)],
          .gauge "ember.tenant.active_digests" 1 [("tenant", tenant), ("digest", digest)]]

/-- An invocation that was delivered: the digest of its snapshot, the time it took, and the status
of its response. -/
structure Delivery where
  digest : String
  elapsed : Duration
  status : ℕ

/-- The updates that tell of a delivery.  Its time in microseconds is recorded under its digest, it
is counted under its digest and its status, and a server error is counted under its digest. -/
def Delivery.record (d : Delivery) : List MetricUpdate :=
  let delivered : List MetricUpdate :=
    [.histogram "ember.invoke.duration_us" (d.elapsed / 1000) [("digest", d.digest)],
      .counter "ember.invoke.total" 1 [("digest", d.digest), ("status", toString d.status)]]
  if 500 ≤ d.status then
    delivered ++ [.counter "ember.invoke.errors" 1 [("digest", d.digest)]]
  else delivered

/-- The update that tells that a tenant is parked after so many failures. -/
def parkedUpdate (tenant : String) (failures : ℕ) : MetricUpdate :=
  .counter "ember.reload.parked" 1 [("tenant", tenant), ("failures", toString failures)]

/-- `record_invoke` tells of a delivery. -/
theorem recordInvoke_eq (digest : String) (elapsed : Duration) (status : ℕ) :
  Telemetry.recordInvoke digest elapsed status = Delivery.record ⟨digest, elapsed, status⟩
  := by
  rw [Telemetry.recordInvoke, Delivery.record]
  split
  · rfl
  · rfl

/-- The response an invocation returns has a status of three digits. -/
theorem Response.toHttp_status {resp : Response} {r : HttpResponse} (h : resp.toHttp = .ok r) :
  100 ≤ r.status ∧ r.status ≤ 999
  := by
  rw [toHttp] at h
  split at h
  next hcode =>
    split at h
    · cases h
    · obtain rfl := Except.ok.inj h
      simpa [isStatusCode] using hcode
  · cases h

/-! ### The updates by what they are about -/

/-- The record of a delivery is about an invocation. -/
theorem Delivery.filter_record (d : Delivery) :
  d.record.filter MetricUpdate.ofReload = [] ∧ d.record.filter MetricUpdate.ofInvoke = d.record
  := by
  rw [record]
  split
  · exact ⟨rfl, rfl⟩
  · exact ⟨rfl, rfl⟩

/-- Every update of the record of a delivery is about an invocation. -/
theorem Delivery.ofInvoke_of_mem {d : Delivery} {u : MetricUpdate} (hu : u ∈ d.record) :
  u.ofInvoke = true
  := by
  rw [← d.filter_record.2] at hu
  apply (List.mem_filter.mp hu).2

/-! ### The account -/

/-- The updates of a tenant are an account of its generations and of the given deliveries, the
first of them first. -/
structure Invocations.Account (policy : HotReloadPolicy) (s : Invocations κ)
    (deliveries : List Delivery) : Prop where
  active : s.generations.head? = some s.tenant.active
  snapshot : ∀ i g, (s.calls i).snapshot = some g → g ∈ s.generations
  reloads : s.metrics.filter MetricUpdate.ofReload
    = reloadTrail s.tenant.id.name (s.generations.map ActiveComponent.digest)
  invokes : s.metrics.filter MetricUpdate.ofInvoke = deliveries.flatMap Delivery.record
  invocations : s.tenant.invocations = deliveries.length
  delivered : ∀ d ∈ deliveries,
    (∃ g ∈ s.generations, g.digest = d.digest) ∧ 100 ≤ d.status ∧ d.status ≤ 999
  parked : ∀ u ∈ s.metrics, u.ofReload = false → u.ofInvoke = false →
    ∃ failures, policy.exhausted failures = true
      ∧ u = parkedUpdate s.tenant.id.name failures

/-- Every step of an invocation leaves the generations as they are, and records nothing, or the
delivery of an invocation that worked with a snapshot. -/
theorem Invocations.step_metrics {s t : Invocations κ} {a : InvokeAction}
    (h : s.step C a = some t) (ha : ∀ loaded env, a ≠ .swap loaded env) :
  (t.generations = s.generations ∧ t.tenant.active = s.tenant.active
      ∧ t.tenant.id = s.tenant.id)
    ∧ ((t.metrics = s.metrics ∧ t.tenant.invocations = s.tenant.invocations)
      ∨ ∃ (i : ℕ) (g : ActiveComponent κ) (d : Delivery),
        (s.calls i).snapshot = some g ∧ g.digest = d.digest ∧ 100 ≤ d.status ∧ d.status ≤ 999
          ∧ t.metrics = s.metrics ++ d.record ∧ t.tenant.invocations = s.tenant.invocations + 1)
  := by
  cases Invocations.stepped C h with
  | swapped _ hswap => exact absurd hswap (ha _ _)
  | @returned i inv p resp elapsed r hcall _ hresp _ =>
      obtain ⟨hlow, hhigh⟩ := Response.toHttp_status hresp
      use ⟨rfl, rfl, rfl⟩
      right
      use i, inv.active, ⟨inv.active.digest, elapsed, r.status⟩
      refine ⟨congrArg Phase.snapshot hcall, rfl, hlow, hhigh, ?_, rfl⟩
      rw [← recordInvoke_eq]
      rfl
  | _ => exact ⟨⟨rfl, rfl, rfl⟩, .inl ⟨rfl, rfl⟩⟩

namespace Invocations.Account

variable {policy : HotReloadPolicy} {s t : Invocations κ} {deliveries : List Delivery}

/-- A tenant that was just loaded has recorded its load. -/
theorem init {tenant : Tenant κ} (htenant : tenant.invocations = 0) :
  (Served.init tenant).calls.Account policy []
  := by
  constructor
  · rfl
  · rintro i g ⟨⟩
  · rfl
  · rfl
  · apply htenant
  · rintro d ⟨⟩
  · intro u hu hreload
    have hrecord : ∀ u ∈ Telemetry.recordReload tenant.id.name none tenant.active.digest,
        u.ofReload = true := by
      simp [Telemetry.recordReload, MetricUpdate.ofReload, MetricUpdate.name]
    rw [hrecord u hu] at hreload
    cases hreload

/-- A step of an invocation keeps the account, with at most one delivery more. -/
theorem step (hs : s.Account policy deliveries) {a : InvokeAction} (h : s.step C a = some t)
    (ha : ∀ loaded env, a ≠ .swap loaded env) :
  ∃ deliveries', t.Account policy deliveries'
  := by
  obtain ⟨⟨hgenerations, hactive, hid⟩, hmetrics⟩ := Invocations.step_metrics C h ha
  have hsnapshot : ∀ i g, (t.calls i).snapshot = some g → g ∈ s.generations := by
    intro i g hg
    obtain hsame | rfl := (Invocations.stepped C h).snapshot C hg
    · apply hs.snapshot i g hsame
    · apply List.mem_of_head? hs.active
  obtain ⟨hmetrics, hinvocations⟩ | ⟨i, g, d, hg, hdigest, hlow, hhigh, hmetrics, hinvocations⟩ :=
    hmetrics
  · use deliveries
    constructor
    · rw [hgenerations, hactive, hs.active]
    · rw [hgenerations]
      apply hsnapshot
    · rw [hmetrics, hgenerations, hid, hs.reloads]
    · rw [hmetrics, hs.invokes]
    · rw [hinvocations, hs.invocations]
    · rw [hgenerations]
      apply hs.delivered
    · rw [hmetrics, hid]
      apply hs.parked
  · use deliveries ++ [d]
    constructor
    · rw [hgenerations, hactive, hs.active]
    · rw [hgenerations]
      apply hsnapshot
    · rw [hmetrics, hgenerations, hid, List.filter_append, d.filter_record.1, List.append_nil,
        hs.reloads]
    · rw [hmetrics, List.filter_append, d.filter_record.2, hs.invokes, List.flatMap_append,
        List.flatMap_singleton]
    · rw [hinvocations, hs.invocations, List.length_append, List.length_singleton]
    · rw [hgenerations]
      intro d' hd'
      obtain hd' | hd' := List.mem_append.mp hd'
      · apply hs.delivered d' hd'
      · obtain rfl := List.mem_singleton.mp hd'
        exact ⟨⟨g, hs.snapshot i g hg, hdigest⟩, hlow, hhigh⟩
    · rw [hmetrics, hid]
      intro u hu hreload hinvoke
      obtain hu | hu := List.mem_append.mp hu
      · apply hs.parked u hu hreload hinvoke
      · rw [Delivery.ofInvoke_of_mem hu] at hinvoke
        cases hinvoke

/-- The account stays one when the tenant was parked, and its count of failures may change. -/
theorem append_parked (hs : s.Account policy deliveries) {events : List MetricUpdate}
    (hevents : ∀ u ∈ events, u.ofReload = false ∧ u.ofInvoke = false
      ∧ ∃ failures, policy.exhausted failures = true
        ∧ u = parkedUpdate s.tenant.id.name failures) (failures : ℕ) :
  Account policy
    { s with tenant := { s.tenant with failures }, metrics := s.metrics ++ events } deliveries
  := by
  have hreload : events.filter MetricUpdate.ofReload = [] := by
    apply List.filter_eq_nil_iff.mpr
    intro u hu
    simp [(hevents u hu).1]
  have hinvoke : events.filter MetricUpdate.ofInvoke = [] := by
    apply List.filter_eq_nil_iff.mpr
    intro u hu
    simp [(hevents u hu).2.1]
  constructor
  · apply hs.active
  · apply hs.snapshot
  · dsimp only
    rw [List.filter_append, hreload, List.append_nil, hs.reloads]
  · dsimp only
    rw [List.filter_append, hinvoke, List.append_nil, hs.invokes]
  · apply hs.invocations
  · apply hs.delivered
  · intro u hu hreload hinvoke
    obtain hu | hu := List.mem_append.mp hu
    · apply hs.parked u hu hreload hinvoke
    · apply (hevents u hu).2.2

/-- A reload adds its record to the account. -/
theorem append_reload (hs : s.Account policy deliveries) (loaded : Loaded) (compiled : κ)
    (env : PollEnv) :
  Account policy
    { s with
      tenant := s.tenant.swapped loaded compiled env
      metrics := s.metrics
        ++ Telemetry.recordReload s.tenant.id.name (some s.tenant.active.digest) loaded.digest
      generations := (s.tenant.swapped loaded compiled env).active :: s.generations } deliveries
  := by
  constructor
  · rfl
  · intro i g hg
    apply List.mem_cons_of_mem
    apply hs.snapshot i g hg
  · have hhead : (s.generations.map ActiveComponent.digest).head?
        = some s.tenant.active.digest := by
      rw [List.head?_map, hs.active]
      rfl
    dsimp only
    rw [List.filter_append, hs.reloads, List.map_cons, reloadTrail, hhead]
    rfl
  · dsimp only
    rw [List.filter_append, hs.invokes]
    apply List.append_nil
  · apply hs.invocations
  · intro d hd
    obtain ⟨⟨g, hg, hdigest⟩, hstatus⟩ := hs.delivered d hd
    exact ⟨⟨g, List.mem_cons_of_mem _ hg, hdigest⟩, hstatus⟩
  · intro u hu hreload hinvoke
    obtain hu | hu := List.mem_append.mp hu
    · apply hs.parked u hu hreload hinvoke
    · rcases List.mem_pair.mp hu with rfl | rfl
      · cases hreload
      · cases hreload

/-- A visit of the reload loop keeps the account. -/
theorem poll {o : Served κ} {registry : OciClientConfig} {now : Instant} {env : PollEnv}
    (ho : o.calls.Account policy deliveries) :
  (o.poll C registry policy now env).1.calls.Account policy deliveries
  := by
  have h := Tenant.polled C registry policy now env o.calls.tenant
  rw [Served.poll]
  dsimp only
  generalize o.calls.tenant.poll C registry policy now env = visit at h
  have hsame : ∀ failures, Account policy
      { o.calls with
        tenant := { o.calls.tenant with failures }, metrics := o.calls.metrics ++ [] }
      deliveries := by
    intro failures
    apply ho.append_parked
    rintro u ⟨⟩
  cases h with
  | skipped _ => apply hsame
  | refused _ _ => apply hsame
  | uncompiled _ _ _ _ => apply hsame
  | same _ _ _ => apply hsame
  | swapped _ _ _ _ => apply ho.append_reload
  | failed _ =>
      dsimp only
      split
      next hexhausted =>
        apply ho.append_parked
        intro u hu
        obtain rfl := List.mem_singleton.mp hu
        exact ⟨rfl, rfl, _, hexhausted, rfl⟩
      · apply hsame

end Invocations.Account

/-- Take any run of the server: loads, reload passes, invocations and ticks, interleaved in any
way.  The metric updates a tenant has emitted tell its history.  Those about reloads are the chain
of its generations, from the load to the active one: each names the digest before and the digest
after, `none` for the load.  Those about invocations tell of as many deliveries as the tenant
counts, each under the digest of one of its generations and its status, which has three digits.
And the others say that the tenant is parked, after as many failures as the policy allows or
more. -/
theorem metrics_account {registry : OciClientConfig} {policy : HotReloadPolicy}
    {actions : List ServerAction} {s : Server κ}
    (hrun : (serverMachine C).run (Server.new registry policy) actions = some s) :
  ∀ o ∈ s.objects,
    (∃ older, o.calls.generations = o.calls.tenant.active :: older)
      ∧ o.calls.metrics.filter MetricUpdate.ofReload
        = reloadTrail o.calls.tenant.id.name (o.calls.generations.map ActiveComponent.digest)
      ∧ (∃ deliveries : List Delivery,
          o.calls.metrics.filter MetricUpdate.ofInvoke = deliveries.flatMap Delivery.record
            ∧ o.calls.tenant.invocations = deliveries.length
            ∧ ∀ d ∈ deliveries, (∃ g ∈ o.calls.generations, g.digest = d.digest)
                ∧ 100 ≤ d.status ∧ d.status ≤ 999)
      ∧ ∀ u ∈ o.calls.metrics, u.ofReload = false → u.ofInvoke = false →
          ∃ failures, policy.exhausted failures = true
            ∧ u = parkedUpdate o.calls.tenant.id.name failures
  := by
  have hs : s.policy = policy
      ∧ ∀ o ∈ s.objects, ∃ deliveries, o.calls.Account policy deliveries := by
    apply (serverMachine C).run_invariant
      (I := fun s => s.policy = policy ∧ ∀ o ∈ s.objects, ∃ deliveries,
        o.calls.Account policy deliveries) _ ⟨rfl, List.forall_mem_nil _⟩ hrun
    rintro s a t ⟨hpolicy, hs⟩ h
    have hstepped := Server.stepped C h
    use (hstepped.config_eq C).2.trans hpolicy
    apply hstepped.forall_objects C
      (Q := fun o => ∃ deliveries, o.calls.Account policy deliveries) hs
    · intro o ho
      apply ho
    · intro env cfg tenant _ _ _ _ hactivate
      obtain ⟨_, _, _, _, _, -, -, -, -, -, -, rfl⟩ := (Tenant.activate_ok C).mp hactivate
      use []
      apply Invocations.Account.init rfl
    · rintro env now r rest o _ _ _ _ _ _ ⟨deliveries, ho⟩
      use deliveries
      rw [hpolicy]
      apply ho.poll C
    · rintro o b calls ⟨deliveries, ho⟩ hb hstep
      apply ho.step C hstep hb
  intro o ho
  obtain ⟨deliveries, ho⟩ := hs.2 o ho
  refine ⟨?_, ho.reloads, ⟨deliveries, ho.invokes, ho.invocations, ho.delivered⟩, ho.parked⟩
  apply List.head?_eq_some_iff.mp ho.active

/-- The component of `echo` is replaced, and then an invocation of it is answered. -/
def movedDeliveredRun : List ServerAction :=
  movedRun ++ ([.load 0 sampleInbound, .enter 0 sampleHost, .lock 0, .arm 0,
    .instantiated 0 (.ok ()), .answered 0 (.response { status := 200, headers := [], body := [] }),
    .release 0 0] : List InvokeAction).map (ServerAction.invoke 0)

/-- The metrics of `echo` name both generations, and record one delivery under one of them. -/
theorem metrics_account_moved :
  ∃ s o g g' d, (serverMachine movedCrates).run (Server.new {} {}) movedDeliveredRun = some s
    ∧ o ∈ s.objects ∧ o.calls.generations = [g, g']
    ∧ o.calls.metrics.filter MetricUpdate.ofReload
      = [.counter "ember.reload.total" 1
            [("tenant", "echo"), ("from", "none"), ("to", g'.digest)],
          .gauge "ember.tenant.active_digests" 1 [("tenant", "echo"), ("digest", g'.digest)],
          .counter "ember.reload.total" 1
            [("tenant", "echo"), ("from", g'.digest), ("to", g.digest)],
          .gauge "ember.tenant.active_digests" 1 [("tenant", "echo"), ("digest", g.digest)]]
    ∧ o.calls.metrics.filter MetricUpdate.ofInvoke = Delivery.record d
    ∧ (d.digest = g.digest ∨ d.digest = g'.digest)
  := by
  have hcounts : ((serverMachine movedCrates).run (Server.new {} {}) movedDeliveredRun).map
      (fun s => s.objects.map fun o =>
        (o.calls.tenant.id.name, o.calls.generations.length, o.calls.tenant.invocations))
      = some [("echo", 2, 1)] := by
    decide +kernel
  obtain ⟨s, hs, hcounts⟩ := Option.map_eq_some_iff.mp hcounts
  obtain ⟨o, hobjects, hcounts⟩ := List.map_eq_singleton_iff.mp hcounts
  obtain ⟨hname, hcounts⟩ := Prod.mk.inj hcounts
  obtain ⟨hlength, hone⟩ := Prod.mk.inj hcounts
  obtain ⟨g, g', hgenerations⟩ := List.length_eq_two.mp hlength
  have ho : o ∈ s.objects := by
    rw [hobjects]
    apply List.mem_singleton_self
  obtain ⟨-, hreloads, ⟨deliveries, hinvokes, hinvocations, hdelivered⟩, -⟩ :=
    metrics_account movedCrates hs o ho
  obtain ⟨d, rfl⟩ := List.length_eq_one_iff.mp (hinvocations.symm.trans hone)
  rw [hname, hgenerations] at hreloads
  obtain ⟨⟨h, hh, hdigest⟩, -⟩ := hdelivered d List.mem_cons_self
  rw [hgenerations] at hh
  refine ⟨s, o, g, g', d, hs, ho, hgenerations, hreloads, ?_, ?_⟩
  · rw [hinvokes, List.flatMap_singleton]
  · rcases List.mem_pair.mp hh with rfl | rfl
    · left
      apply hdigest.symm
    · right
      apply hdigest.symm

end Ember
