import Ember.Runtime.Server

/-!
# Reload passes

What the passes of the reload loop do to a tenant, whatever happens in between.

A swap needs the debounce to have elapsed since the last one, by the clock that the pass read
when it began.  As no reading of the clock is earlier than the one before, the generations of a
tenant are spaced by the debounce (`reload_debounced`).

A load that fails leaves everything as it was, and so does a visit that meets an error, up to
the count of failures (`reload_atomic`).
-/

namespace Ember

variable {κ : Type} (C : Crates κ)

/-- No step of an invocation touches what the reload loop reads and writes. -/
theorem Invocations.step_reload_eq {s t : Invocations κ} {a : InvokeAction}
    (h : s.step C a = some t) (ha : ∀ loaded env, a ≠ .swap loaded env) :
  t.tenant.active = s.tenant.active ∧ t.tenant.lastSwap = s.tenant.lastSwap
    ∧ t.tenant.failures = s.tenant.failures ∧ t.generations = s.generations
  := by
  cases Invocations.stepped C h with
  | swapped _ hswap => exact absurd hswap (ha _ _)
  | _ => exact ⟨rfl, rfl, rfl, rfl⟩

/-! ### What a visit leaves alone -/

/-- Polling the tenant swaps it: what was pulled for it has another digest than the active
component, satisfies the contract and compiles. -/
def Tenant.Swaps (registry : OciClientConfig) (policy : HotReloadPolicy) (now : Instant)
    (env : PollEnv) (t : Tenant κ) : Prop :=
  ∃ loaded, t.Pulls C registry policy now env (.ok loaded)
    ∧ t.active.digest ≠ loaded.digest ∧ contractViolations loaded.exports = none
    ∧ ∃ compiled, C.fromBinary loaded.bytes = .ok compiled

/-- Polling the tenant meets an error: the pull fails, or what was pulled violates the contract
or is new and does not compile.  A pull includes the validation of the artifact and the check of
the pin. -/
def Tenant.MeetsError (registry : OciClientConfig) (policy : HotReloadPolicy) (now : Instant)
    (env : PollEnv) (t : Tenant κ) : Prop :=
  (∃ e, t.Pulls C registry policy now env (.error e)) ∨ t.EndsPass C registry policy now env

section Visit

variable {registry : OciClientConfig} {policy : HotReloadPolicy} {now : Instant} {env : PollEnv}

/-- What was pulled for a tenant decides whether polling swaps it. -/
theorem Tenant.Pulls.swaps_iff {t : Tenant κ} {loaded : Loaded}
    (h : t.Pulls C registry policy now env (.ok loaded)) :
  t.Swaps C registry policy now env
    ↔ t.active.digest ≠ loaded.digest ∧ contractViolations loaded.exports = none
      ∧ ∃ compiled, C.fromBinary loaded.bytes = .ok compiled
  := by
  constructor
  · rintro ⟨loaded', h', hswaps⟩
    obtain rfl := Except.ok.inj (h.eq C h')
    apply hswaps
  · intro hswaps
    use loaded

/-- A swap meets no error. -/
theorem Tenant.Swaps.not_meetsError {t : Tenant κ} (h : t.Swaps C registry policy now env) :
  ¬t.MeetsError C registry policy now env
  := by
  obtain ⟨loaded, hpull, -, hcontract, compiled, hcompile⟩ := h
  rintro (⟨e, hfail⟩ | hends)
  · cases hpull.eq C hfail
  · rw [hpull.endsPass_iff C] at hends
    simp [hcontract, hcompile] at hends

/-- A visit that does not swap changes at most the count of failures. -/
theorem Served.poll_unswapped {o : Served κ}
    (h : ¬o.calls.tenant.Swaps C registry policy now env) :
  ∃ failures,
    (o.poll C registry policy now env).1.calls.tenant = { o.calls.tenant with failures }
  := by
  have hvisited := o.visited C registry policy now env
  generalize o.poll C registry policy now env = r at hvisited
  cases hvisited with
  | swapped hpull hends hdigest _ =>
      rw [hpull.endsPass_iff C, not_or, not_not, not_and, not_forall] at hends
      obtain ⟨hcontract, hcompile⟩ := hends
      obtain ⟨compiled, hcompile⟩ := hcompile hdigest
      apply absurd _ h
      apply (hpull.swaps_iff C).mpr
      exact ⟨hdigest, hcontract, compiled, not_not.mp hcompile⟩
  | _ => exact ⟨_, rfl⟩

/-- No visit changes more of a tenant than the active component, the last swap and the count of
failures, and none touches its invocations. -/
theorem Served.poll_frame (o : Served κ) :
  (∃ active lastSwap failures, (o.poll C registry policy now env).1.calls.tenant
      = { o.calls.tenant with active, lastSwap, failures })
    ∧ (o.poll C registry policy now env).1.calls.calls = o.calls.calls
    ∧ (o.poll C registry policy now env).1.calls.mutex = o.calls.mutex
  := by
  have hvisited := o.visited C registry policy now env
  generalize o.poll C registry policy now env = r at hvisited
  cases hvisited
  all_goals exact ⟨⟨_, _, _, rfl⟩, rfl, rfl⟩

end Visit

/-! ### Spacing -/

/-- A generation is activated at least `debounce` after the one before it, and has another
digest. -/
def Spaced (debounce : Duration) (newer older : ActiveComponent κ) : Prop :=
  older.activatedAt + debounce ≤ newer.activatedAt ∧ newer.digest ≠ older.digest

/-- The invariant of a tenant: the active component was activated before the last swap was noted,
which was before `clock`, and the generations up to the active one are spaced. -/
structure Served.Timely (debounce : Duration) (clock : Instant) (o : Served κ) : Prop where
  activated : o.calls.tenant.active.activatedAt ≤ o.calls.tenant.lastSwap
  swapped : o.calls.tenant.lastSwap ≤ clock
  active : ∃ older, o.calls.generations = o.calls.tenant.active :: older
  spaced : o.calls.generations.IsChain (Spaced debounce)

/-- Five readings of the clock.  When the debounce has elapsed between the last swap and the start
of the pass, it has elapsed between the two activations around them; it is zero when the pass
began before the last swap. -/
theorem debounced {debounce activated swapped now clock reactivated : ℕ}
    (hactivated : activated ≤ swapped) (hswapped : swapped ≤ clock) (hnow : now ≤ clock)
    (hclock : clock ≤ reactivated) (hdebounce : debounce ≤ now - swapped) :
  activated + debounce ≤ reactivated
  := by
  omega

namespace Served.Timely

variable {debounce : Duration} {clock clock' : Instant} {o : Served κ}

/-- Time passes. -/
theorem mono (ho : o.Timely debounce clock) (hle : clock ≤ clock') :
  o.Timely debounce clock'
  := by
  constructor
  · apply ho.activated
  · apply ho.swapped.trans hle
  · apply ho.active
  · apply ho.spaced

/-- The invariant looks only at what the reload loop reads and writes. -/
theorem congr {o' : Served κ} (ho : o.Timely debounce clock)
    (hactive : o'.calls.tenant.active = o.calls.tenant.active)
    (hswap : o'.calls.tenant.lastSwap = o.calls.tenant.lastSwap)
    (hgenerations : o'.calls.generations = o.calls.generations) :
  o'.Timely debounce clock
  := by
  constructor
  · rw [hactive, hswap]
    apply ho.activated
  · rw [hswap]
    apply ho.swapped
  · rw [hactive, hgenerations]
    apply ho.active
  · rw [hgenerations]
    apply ho.spaced

/-- A visit keeps the invariant, by the readings of the clock: the pass began before `clock`, and
a swap is noted after it. -/
theorem poll {registry : OciClientConfig} {policy : HotReloadPolicy} {now : Instant}
    {env : PollEnv} (ho : o.Timely policy.debounce clock) (hnow : now ≤ clock)
    (hclock : clock ≤ env.activatedAt) (hswap : env.activatedAt ≤ env.lastSwap) :
  (o.poll C registry policy now env).1.Timely policy.debounce env.lastSwap
  := by
  have ho' := ho.mono (hclock.trans hswap)
  have h := o.visited C registry policy now env
  generalize o.poll C registry policy now env = r at h
  cases h with
  | skipped _ => apply ho'
  | ended _ _ =>
      apply ho'.congr
      · rfl
      · rfl
      · rfl
  | same _ _ _ =>
      apply ho'.congr
      · rfl
      · rfl
      · rfl
  | failed _ _ =>
      apply ho'.congr
      · rfl
      · rfl
      · rfl
  | @swapped loaded compiled events hpull _ hdigest _ =>
      obtain ⟨-, -, -, hdebounce, -⟩ := hpull
      obtain ⟨older, hgenerations⟩ := ho.active
      constructor
      · apply hswap
      · apply le_rfl
      · exact ⟨_, rfl⟩
      · have hspaced := ho.spaced
        dsimp only
        rw [hgenerations] at hspaced ⊢
        apply hspaced.cons_cons
        constructor
        · apply debounced ho.activated ho.swapped hnow hclock hdebounce
        · apply hdigest.symm

end Served.Timely

/-- The invariant of the server: a pass in progress has read the clock before, and all tenants are
timely. -/
structure Server.Timely (s : Server κ) : Prop where
  now : ∀ now ∈ s.pass.now?, now ≤ s.clock
  objects : ∀ o ∈ s.objects, o.Timely s.policy.debounce s.clock

/-- Every step keeps the invariant. -/
theorem Server.Timely.step {s t : Server κ} {a : ServerAction} (hs : s.Timely)
    (h : s.step C a = some t) :
  t.Timely
  := by
  have hstepped := Server.stepped C h
  obtain ⟨hclock, hnow⟩ := hstepped.clock C hs.now
  constructor
  · apply hnow
  · rw [(hstepped.config_eq C).2]
    apply hstepped.forall_objects C (Q := Served.Timely s.policy.debounce t.clock) hs.objects
    · intro o ho
      apply ho.mono hclock
    · intro env cfg tenant _ _ hswap hlater hactivate
      obtain ⟨_, _, _, _, _, -, -, -, -, -, -, rfl⟩ := (Tenant.activate_ok C).mp hactivate
      rw [hlater]
      constructor
      · apply hswap
      · apply le_rfl
      · exact ⟨[], rfl⟩
      · apply List.isChain_singleton
    · intro env now r rest o _ hpass _ hbefore hswap hlater ho
      rw [hlater]
      apply ho.poll C _ hbefore hswap
      apply hs.now
      rw [hpass]
      rfl
    · intro o b calls ho hb hstep
      obtain ⟨hactive, hswap, -, hgenerations⟩ := Invocations.step_reload_eq C hstep hb
      apply (ho.mono hclock).congr hactive hswap hgenerations

/-- Take any run of the server: loads, reload passes one after the other, invocations and ticks,
with a clock that never goes back, whatever the registry answers.  The generations of every
tenant, from its load to the active one, are activated at least `debounce` apart, each with
another digest than the one before.  A visit that pulls the active digest leaves the active
component, the last swap and the pool as they are. -/
theorem reload_debounced {registry : OciClientConfig} {policy : HotReloadPolicy}
    {actions : List ServerAction} {s : Server κ}
    (hrun : (serverMachine C).run (Server.new registry policy) actions = some s) :
  (∀ o ∈ s.objects,
      (∃ older, o.calls.generations = o.calls.tenant.active :: older)
        ∧ o.calls.generations.IsChain fun newer older =>
            older.activatedAt + policy.debounce ≤ newer.activatedAt
              ∧ newer.digest ≠ older.digest)
    ∧ ∀ env now r rest o loaded t, s.pass = .visiting now (r :: rest) → s.objects[r]? = some o →
        o.calls.tenant.Pulls C registry policy now env (.ok loaded) →
        loaded.digest = o.calls.tenant.active.digest →
        (serverMachine C).step s (.poll env) = some t →
        ∃ o', t.objects[r]? = some o' ∧ o'.calls.tenant.active = o.calls.tenant.active
          ∧ o'.calls.tenant.lastSwap = o.calls.tenant.lastSwap
          ∧ o'.calls.tenant.pool = o.calls.tenant.pool
  := by
  have hregistry : s.registry = registry := (Server.run_config C hrun).1
  have hpolicy : s.policy = policy := (Server.run_config C hrun).2
  constructor
  · have hs : s.Timely := by
      apply (serverMachine C).run_invariant _ _ hrun
      · intro s a t hs h
        apply hs.step C h
      · constructor
        · rintro now ⟨⟩
        · apply List.forall_mem_nil
    intro o ho
    have hspaced := (hs.objects o ho).spaced
    rw [hpolicy] at hspaced
    exact ⟨(hs.objects o ho).active, hspaced⟩
  · intro env now r rest o loaded t hpass ho hpull hdigest h
    obtain ⟨hvisited, -⟩ := Server.step_poll C hpass ho h
    refine ⟨_, hvisited, ?_⟩
    have hsame : ¬o.calls.tenant.Swaps C s.registry s.policy now env := by
      rw [hregistry, hpolicy]
      rintro ⟨loaded', hpull', hmoved, -⟩
      obtain rfl := Except.ok.inj (hpull.eq C hpull')
      apply hmoved hdigest.symm
    obtain ⟨failures, heq⟩ := Served.poll_unswapped C hsame
    rw [heq]
    exact ⟨rfl, rfl, rfl⟩

/-! ### A reload -/

/-- A pass at `now` that visits the first tenant. -/
def samplePass (now : Instant) (upstream : Upstream) : List ServerAction :=
  [.begin now, .snapshot [0], .poll ⟨upstream, now, now⟩]

/-- The registry after the tag of `echo` moved to `movedComponent`. -/
def movedUpstream : Upstream :=
  { sampleUpstream [] with
    manifest := fun _ => .ok { layers := [{ digest := digestOf movedCrates movedComponent }] }
    blob := fun _ _ => .ok movedComponent }

/-- Load the tenant `echo`. -/
def loadEcho : ServerAction :=
  .load sampleLoadEnv (followingConfig "echo" "ghcr.io/acme/echo:latest")

/-- The reload loop finds the tag of `echo` moved, five seconds after the load. -/
def movedRun : List ServerAction := loadEcho :: samplePass (Duration.ofSecs 5) movedUpstream

/-- The swap to `movedComponent` comes five seconds after the load. -/
theorem reload_debounced_moved :
  ∃ s o g g', (serverMachine movedCrates).run (Server.new {} {}) movedRun = some s
    ∧ o ∈ s.objects ∧ o.calls.generations = [g, g']
    ∧ g'.activatedAt + Duration.ofSecs 5 ≤ g.activatedAt ∧ g.digest ≠ g'.digest
  := by
  have hlengths : ((serverMachine movedCrates).run (Server.new {} {}) movedRun).map
      (fun s => s.objects.map fun o => o.calls.generations.length) = some [2] := by
    decide +kernel
  obtain ⟨s, hs, hlengths⟩ := Option.map_eq_some_iff.mp hlengths
  obtain ⟨o, hobjects, hlength⟩ := List.map_eq_singleton_iff.mp hlengths
  obtain ⟨g, g', hgenerations⟩ := List.length_eq_two.mp hlength
  have ho : o ∈ s.objects := by
    rw [hobjects]
    apply List.mem_singleton_self
  obtain ⟨-, hchain⟩ := (reload_debounced movedCrates hs).1 o ho
  rw [hgenerations] at hchain
  use s, o, g, g', hs, ho, hgenerations
  apply (List.isChain_cons_cons.mp hchain).1

/-! ### Failed loads and reloads -/

/-- A `load_tenant` that returns an error leaves the server as it was.  A visit of the reload loop
leaves the tenant map and every other tenant as they were, and the invocations of the tenant it
visits; when it meets an error, it changes at most the count of failures of the tenant, and
otherwise at most the active component, the last swap and the count of failures, where the first
two change only by a swap. -/
theorem reload_atomic (s : Server κ) :
  (∀ env cfg e, (s.loadTenant C env cfg).2 = .error e → (s.loadTenant C env cfg).1 = s)
    ∧ ∀ env now r rest o t, s.pass = .visiting now (r :: rest) → s.objects[r]? = some o →
        (serverMachine C).step s (.poll env) = some t →
        t.tenants = s.tenants ∧ (∀ r', r' ≠ r → t.objects[r']? = s.objects[r']?)
          ∧ ∃ o', t.objects[r]? = some o'
            ∧ o'.calls.calls = o.calls.calls ∧ o'.calls.mutex = o.calls.mutex
            ∧ (o.calls.tenant.MeetsError C s.registry s.policy now env →
                ∃ failures, o'.calls.tenant = { o.calls.tenant with failures })
            ∧ (o.calls.tenant.Swaps C s.registry s.policy now env →
                ∃ active lastSwap failures,
                  o'.calls.tenant = { o.calls.tenant with active, lastSwap, failures })
            ∧ (¬o.calls.tenant.Swaps C s.registry s.policy now env →
                ∃ failures, o'.calls.tenant = { o.calls.tenant with failures })
  := by
  constructor
  · intro env cfg e he
    rw [Server.loadTenant] at he ⊢
    split
    · rfl
    next tenant hactivate =>
      rw [hactivate] at he
      cases he
  · intro env now r rest o t hpass ho h
    obtain ⟨hvisited, hothers, htenants, -⟩ := Server.step_poll C hpass ho h
    obtain ⟨htenant, hcalls, hmutex⟩ := Served.poll_frame C o
    refine ⟨htenants, hothers, _, hvisited, hcalls, hmutex, ?_, ?_, ?_⟩
    · intro herror
      apply Served.poll_unswapped C
      intro hswaps
      apply hswaps.not_meetsError C herror
    · intro _
      apply htenant
    · intro hswaps
      apply Served.poll_unswapped C hswaps

/-- The reload loop is about to visit the tenant `echo`, which is due. -/
def dueRun : List ServerAction := [loadEcho, .begin (Duration.ofSecs 5), .snapshot [0]]

/-- Polling `echo` while the registry cannot be reached. -/
def outage : PollEnv := ⟨unreachableUpstream, Duration.ofSecs 5, Duration.ofSecs 5⟩

/-- The visit of `echo` fails, and leaves all but its failures. -/
theorem reload_atomic_outage :
  ∃ s o t o' failures, (serverMachine sampleCrates).run (Server.new {} {}) dueRun = some s
    ∧ s.objects[0]? = some o ∧ (serverMachine sampleCrates).step s (.poll outage) = some t
    ∧ t.objects[0]? = some o' ∧ o'.calls.tenant = { o.calls.tenant with failures }
  := by
  have hrun : ((serverMachine sampleCrates).run (Server.new {} {}) dueRun).map (fun s =>
      (s.pass, s.objects.map fun o =>
        (o.calls.tenant.pulled sampleCrates s.registry s.policy (Duration.ofSecs 5) outage).isSome,
        (s.step sampleCrates (.poll outage)).isSome))
      = some (.visiting (Duration.ofSecs 5) [0], [true], true) := by
    decide +kernel
  obtain ⟨s, hs, heq⟩ := Option.map_eq_some_iff.mp hrun
  obtain ⟨hpass, heq⟩ := Prod.mk.inj heq
  obtain ⟨hpulled, hstep⟩ := Prod.mk.inj heq
  obtain ⟨o, hobjects, hpulled⟩ := List.map_eq_singleton_iff.mp hpulled
  obtain ⟨t, ht⟩ := Option.isSome_iff_exists.mp hstep
  obtain ⟨outcome, houtcome⟩ := Option.isSome_iff_exists.mp hpulled
  have hpull := (Tenant.pulled_eq_some sampleCrates).mp houtcome
  have ho : s.objects[0]? = some o := by
    rw [hobjects]
    rfl
  have herror : o.calls.tenant.MeetsError sampleCrates s.registry s.policy (Duration.ofSecs 5)
      outage := by
    left
    cases outcome with
    | error e => exact ⟨e, hpull⟩
    | ok loaded =>
        obtain ⟨reference, pin, -, -, hloaded⟩ := hpull
        exact absurd hloaded (pull_unreachable _ _ _ _)
  obtain ⟨-, -, o', ho', -, -, hfailed, -⟩ :=
    (reload_atomic sampleCrates s).2 outage _ _ _ o t hpass ho ht
  obtain ⟨failures, htenant⟩ := hfailed herror
  exact ⟨s, o, t, o', failures, hs, ho, ht, ho', htenant⟩

end Ember
