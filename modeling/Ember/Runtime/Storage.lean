import Ember.Runtime.Guests

/-!
# What the guests of a tenant have stored

State that must persist across invocations lives in the scratch filesystem of the tenant.  We
state what the host replies to the guests of a tenant in terms of the calls they made before,
in whichever instance and under whichever component (`Answered`): a read gives what was last
written, whoever wrote it, and the files stay within the quota.
-/

namespace Ember

/-- The bytes that were last written under a key, in the calls of a log. -/
def lastStored : List HostEvent → List PathComponent → Option Bytes
  | [], _ => none
  | ⟨.scratchWrite path data, .wrote (.ok ())⟩ :: log, key =>
      if components path = key then some data else lastStored log key
  | _ :: log, key => lastStored log key

/-- The filesystem holds what the calls of the log have stored. -/
def MemFs.Holds (fs : MemFs) (log : List HostEvent) : Prop :=
  ∀ key, fs.files.lookup key = lastStored log key

/-- After a write the bytes in all files are within the quota. -/
def MemFs.Admits (fs : MemFs) (path : String) (data : Bytes) : Prop :=
  fs.bytesAfter path data ≤ fs.quotaBytes

/-- What the host replies to a guest of a tenant with the sandbox `sandbox`, when `fs` is what the
guests of the tenant have stored. -/
inductive Answered (sandbox : Sandbox) (fs : MemFs) : HostEvent → Prop
  | tenantId : Answered sandbox fs ⟨.tenantId, .tenantId sandbox.tenant.name⟩
  | config (key : String) :
      Answered sandbox fs ⟨.getConfig key, .config (sandbox.config.lookup key)⟩
  | wrote {path : String} {data : Bytes} (hpath : ValidScratchPath path)
      (hadmits : fs.Admits path data) :
      Answered sandbox fs ⟨.scratchWrite path data, .wrote (.ok ())⟩
  | refused {path : String} {data : Bytes}
      (h : ¬(ValidScratchPath path ∧ fs.Admits path data)) :
      Answered sandbox fs ⟨.scratchWrite path data, .wrote (.error .quotaExceeded)⟩
  | read (path : String) :
      Answered sandbox fs ⟨.scratchRead path, .content (fs.files.lookup (components path))⟩
  | bytes : Answered sandbox fs ⟨.scratchBytes, .bytes fs.storedBytes⟩

/-- The reply depends on the id and the configuration of the sandbox alone. -/
theorem Answered.of_eq {sandbox sandbox' : Sandbox} {fs : MemFs} {e : HostEvent}
    (h : Answered sandbox fs e) (htenant : sandbox.tenant = sandbox'.tenant)
    (hconfig : sandbox.config = sandbox'.config) :
  Answered sandbox' fs e
  := by
  cases h with
  | tenantId =>
      rw [htenant]
      exact .tenantId
  | config key =>
      rw [hconfig]
      exact .config key
  | wrote hpath hadmits => exact .wrote hpath hadmits
  | refused h => exact .refused h
  | read path => exact .read path
  | bytes => exact .bytes

/-- The stored bytes and the buffer of a writing guest are live allocations: together they are
fewer than `isize::MAX`. -/
def HostCall.Fits (sandbox : Sandbox) : HostCall → Prop
  | .scratchWrite path data => sandbox.scratch.Fits (.write path data)
  | _ => True

instance (sandbox : Sandbox) : ∀ c : HostCall, Decidable (c.Fits sandbox)
  | .scratchWrite path data =>
      inferInstanceAs (Decidable (sandbox.scratch.Fits (.write path data)))
  | .tenantId | .getConfig _ | .scratchRead _ | .scratchBytes => inferInstanceAs (Decidable True)

/-- The scratch filesystem of the sandbox holds what the calls of the log have stored, its counter
is right, and it is within the quota of the tenant. -/
structure StorageOk (log : List HostEvent) (sandbox : Sandbox) : Prop where
  refines : ∃ m, sandbox.scratch.Represents m ∧ m.quota = sandbox.limits.memfsQuotaBytes
  small : sandbox.scratch.used < 2 ^ 63
  holds : sandbox.scratch.Holds log

namespace StorageOk

variable {log : List HostEvent} {sandbox : Sandbox}

/-- An empty scratch filesystem holds what no call has stored. -/
theorem fresh (sandbox : Sandbox) :
  StorageOk [] sandbox.fresh
  := by
  constructor
  · exact ⟨QuotaMap.empty _, ⟨rfl, rfl, rfl⟩, rfl⟩
  · apply Nat.two_pow_pos 63
  · intro key
    rfl

/-- The counter is the number of bytes stored, and they are within the quota. -/
theorem within (h : StorageOk log sandbox) :
  sandbox.scratch.used = sandbox.scratch.storedBytes
    ∧ sandbox.scratch.storedBytes ≤ sandbox.limits.memfsQuotaBytes
    ∧ sandbox.scratch.quotaBytes = sandbox.limits.memfsQuotaBytes
  := by
  obtain ⟨m, hrep, hquota⟩ := h.refines
  have hused := hrep.used_eq
  refine ⟨hused, ?_, hrep.quota.trans hquota⟩
  rw [← hused, hrep.used, ← hquota]
  apply m.within

/-- A write that succeeds stores its bytes, and one that is refused stores nothing. -/
theorem holds_write (h : StorageOk log sandbox) (path : String) (data : Bytes) :
  (HostCtx.scratchWrite sandbox.scratch path data).1.Holds
    (⟨.scratchWrite path data, .wrote (HostCtx.scratchWrite sandbox.scratch path data).2⟩ :: log)
  := by
  intro key
  rw [HostCtx.scratchWrite_eq, MemFs.write_files]
  cases (sandbox.scratch.write path data).2 with
  | error e => apply h.holds
  | ok _ =>
      rw [lastStored]
      obtain rfl | hne := eq_or_ne (components path) key
      · rw [if_pos rfl, AList.lookup_insert]
      · rw [if_neg hne, AList.lookup_insert_ne hne.symm]
        apply h.holds

/-- Every call keeps the storage in order. -/
theorem answer (h : StorageOk log sandbox) {call : HostCall} (hfits : call.Fits sandbox) :
  StorageOk (⟨call, (sandbox.answer call).2⟩ :: log) (sandbox.answer call).1
  := by
  cases call with
  | scratchWrite path data =>
      obtain ⟨m, hrep, hquota⟩ := h.refines
      have hwrite : (HostCtx.scratchWrite sandbox.scratch path data).1
          = (sandbox.scratch.call (.write path data)).1 := by
        rw [HostCtx.scratchWrite_eq]
        rfl
      constructor
      · obtain ⟨m', hstep, hrep'⟩ := MemFs.call_refines (c := .write path data) hrep h.small hfits
        refine ⟨m', ?_, hstep.quota_eq.trans hquota⟩
        rw [Sandbox.answer, hwrite]
        apply hrep'
      · rw [Sandbox.answer, hwrite]
        apply MemFs.call_used_lt (c := .write path data) hrep h.small hfits
      · apply h.holds_write
  | _ => exact ⟨h.refines, h.small, h.holds⟩

/-- Under a quota below `2 ^ 63` a write succeeds exactly when the path is valid and the files stay
within the quota. -/
theorem write_ok_iff (h : StorageOk log sandbox) (hquota : sandbox.limits.memfsQuotaBytes < 2 ^ 63)
    (path : String) {data : Bytes} (hfits : sandbox.scratch.Fits (.write path data)) :
  (sandbox.scratch.write path data).2 = .ok ()
    ↔ ValidScratchPath path ∧ sandbox.scratch.Admits path data
  := by
  obtain ⟨hused, hstored, hsame⟩ := h.within
  have hafter := sandbox.scratch.bytesAfter_add path data
  rw [sandbox.scratch.write_ok_iff, MemFs.charge_isOk_iff hused hfits, MemFs.Admits, hsame,
    asI64_of_lt hquota]
  apply and_congr_right
  intro _
  omega

/-- What a sandbox answers when its storage is in order and its quota below `2 ^ 63`. -/
theorem answered (h : StorageOk log sandbox) (hquota : sandbox.limits.memfsQuotaBytes < 2 ^ 63)
    {call : HostCall} (hfits : call.Fits sandbox) :
  Answered sandbox sandbox.scratch ⟨call, (sandbox.answer call).2⟩
  := by
  obtain ⟨hused, -, -⟩ := h.within
  cases call with
  | tenantId => exact .tenantId
  | getConfig key => exact .config key
  | scratchRead path => exact .read path
  | scratchBytes =>
      rw [Sandbox.answer, HostCtx.scratchBytes, MemFs.usedBytes, hused]
      exact .bytes
  | scratchWrite path data =>
      have hiff := h.write_ok_iff hquota path hfits
      rw [Sandbox.answer, HostCtx.scratchWrite_eq]
      cases hwrite : (sandbox.scratch.write path data).2 with
      | ok _ =>
          obtain ⟨hpath, hadmits⟩ := hiff.mp hwrite
          exact .wrote hpath hadmits
      | error e =>
          apply Answered.refused
          intro hvalid
          rw [hiff.mpr hvalid] at hwrite
          cases hwrite

end StorageOk

variable {κ : Type} (C : Crates κ)

/-- Take any run of a server and its guests in which the buffers of the guests are live
allocations, and a tenant at the end of it.  The scratch filesystem of the tenant holds what its
guests have stored and is within its quota.  When the quota is below `2 ^ 63`, every reply to the
guests was right for what they had stored before: it gave the id and the configuration the tenant
was registered with, the bytes last written to the path, by any invocation and under any component
since the registration, or the number of bytes in all files; and a write succeeded exactly when the
path was valid and the files stayed within the quota. -/
theorem guests_answered {registry : OciClientConfig} {policy : HotReloadPolicy}
    {actions : List HostedAction} {h : Hosted κ}
    (hfits : (hostedMachine C).Meets (fun h a => a.Meets (fun sandbox c => c.Fits sandbox) h)
      (Hosted.new registry policy) actions)
    (hrun : (hostedMachine C).run (Hosted.new registry policy) actions = some h) {r : ℕ}
    {o : Served κ} (ho : h.server.objects[r]? = some o) :
  (o.calls.tenant.sandbox.scratch.Holds (h.log r)
      ∧ o.calls.tenant.sandbox.scratch.usedBytes ≤ o.calls.tenant.sandbox.limits.memfsQuotaBytes)
    ∧ (o.calls.tenant.sandbox.limits.memfsQuotaBytes < 2 ^ 63 →
        ∀ newer e older, h.log r = newer ++ e :: older →
        ∃ fs : MemFs, fs.Holds older
          ∧ fs.quotaBytes = o.calls.tenant.sandbox.limits.memfsQuotaBytes
          ∧ fs.storedBytes ≤ fs.quotaBytes
          ∧ Answered o.calls.tenant.sandbox fs e)
  := by
  have hexplained := (Hosted.Explained.of_run C hfits hrun).tenants r o ho
  have hok : ∀ {log}, sandboxService.Faithful o.calls.tenant.sandbox.fresh log →
      sandboxService.Meets (fun sandbox c => c.Fits sandbox) o.calls.tenant.sandbox.fresh log →
      StorageOk log (sandboxService.after o.calls.tenant.sandbox.fresh log)
        ∧ (sandboxService.after o.calls.tenant.sandbox.fresh log).fresh
          = o.calls.tenant.sandbox.fresh := by
    intro log hfaithful hmeets
    apply hfaithful.induction (I := fun log sandbox => StorageOk log sandbox
      ∧ sandbox.fresh = o.calls.tenant.sandbox.fresh) _ _ hmeets
    · exact ⟨StorageOk.fresh _, rfl⟩
    · rintro log sandbox call ⟨hlog, hsame⟩ hcall
      use hlog.answer hcall
      cases call
      all_goals exact hsame
  have hnow := (hok hexplained.faithful hexplained.meets).1
  rw [hexplained.after] at hnow
  constructor
  · use hnow.holds
    obtain ⟨hused, hle, -⟩ := hnow.within
    rw [MemFs.usedBytes, hused]
    apply hle
  · intro hbelow newer e older hlog
    have hfaithful := hexplained.faithful
    have hmeets := hexplained.meets
    rw [hlog] at hfaithful hmeets
    obtain ⟨hreply, hfaithful⟩ := hfaithful.of_append
    obtain ⟨hcall, hmeets⟩ := hmeets.of_append
    obtain ⟨hthen, hsame⟩ := hok hfaithful hmeets
    generalize sandboxService.after o.calls.tenant.sandbox.fresh older = sandbox
      at hthen hsame hreply hcall
    obtain ⟨-, hle, hquota⟩ := hthen.within
    have hlimits := congrArg Sandbox.limits hsame
    have htenant := congrArg Sandbox.tenant hsame
    have hconfig := congrArg Sandbox.config hsame
    dsimp only [Sandbox.fresh] at hlimits htenant hconfig
    use sandbox.scratch, hthen.holds
    rw [hlimits] at hle hquota
    refine ⟨hquota, hle.trans hquota.ge, ?_⟩
    have hanswered := hthen.answered (hlimits ▸ hbelow) hcall
    rw [show (sandbox.answer e.call).2 = e.reply from hreply.symm] at hanswered
    apply hanswered.of_eq htenant hconfig

/-- Invocation 0 of the tenant `echo` writes a file and is answered, and invocation 1 reads it. -/
def storedRun : List HostedAction :=
  guestRun 0 [.scratchWrite "a" [1]]
    ++ ([.answered 0 (.response { status := 200, headers := [], body := [] }), .release 0 0,
      .load 1 sampleInbound, .enter 1 sampleHost, .lock 1] : List InvokeAction).map
        (fun a => .server (.invoke 0 a))
    ++ [.host 0 1 (.scratchRead "a")]

/-- Invocation 1 reads what invocation 0 has written. -/
theorem guests_answered_echo :
  ∃ h o, (hostedMachine sampleCrates).run (Hosted.new {} {})
      (.server (.load fileLoadEnv fileConfig) :: storedRun) = some h
    ∧ h.server.objects[0]? = some o
    ∧ h.log 0 = [⟨.scratchRead "a", .content (some [1])⟩, ⟨.scratchWrite "a" [1], .wrote (.ok ())⟩]
    ∧ o.calls.tenant.sandbox.scratch.Holds (h.log 0)
    ∧ ∃ fs : MemFs, fs.Holds [⟨.scratchWrite "a" [1], .wrote (.ok ())⟩]
      ∧ Answered o.calls.tenant.sandbox fs ⟨.scratchRead "a", .content (some [1])⟩
  := by
  have hfits : (hostedMachine sampleCrates).Meets
      (fun h a => a.Meets (fun sandbox c => c.Fits sandbox) h) (Hosted.new {} {})
      (.server (.load fileLoadEnv fileConfig) :: storedRun) := by
    use trivial
    intro h hload
    obtain rfl := Option.some.inj ((Hosted.step_loadEcho rfl rfl).symm.trans hload)
    -- the five steps that start the guest, its write, and the five steps up to its next start
    iterate 5
      use trivial
      rintro h ⟨⟩
    constructor
    · rintro o ⟨⟩
      decide
    rintro h ⟨⟩
    iterate 5
      use trivial
      rintro h ⟨⟩
    constructor
    · intro o _
      trivial
    · intro _ _
      trivial
  have hrun := (Machine.run_cons (hostedMachine sampleCrates)).mpr
    ⟨_, Hosted.step_loadEcho (h := Hosted.new {} {}) rfl rfl,
      (rfl : (hostedMachine sampleCrates).run _ storedRun = some _)⟩
  obtain ⟨⟨hholds, -⟩, hreplies⟩ := guests_answered sampleCrates hfits hrun (r := 0) rfl
  obtain ⟨fs, hfs, -, -, hanswered⟩ := hreplies (by decide) [] _ _ rfl
  exact ⟨_, _, hrun, rfl, rfl, hholds, fs, hfs, hanswered⟩

end Ember
