import Mathlib.Tactic

/-!
# Services and their logs

A service answers calls on its state, one at a time.  A log lists the calls that were answered
together with their replies, the latest first.

A log is faithful from a state when every reply in it is the one the service gives after the
calls before it.  A faithful log is determined by its calls (`Service.Faithful.unique`), and
whatever the service keeps holds along with it (`Service.Faithful.induction`).
-/

universe u v w

/-- A service with states `σ`, calls `α` and replies `β`. -/
structure Service (σ : Type u) (α : Type v) (β : Type w) where
  call : σ → α → σ × β

namespace Service

/-- A call together with its reply. -/
structure Event (α : Type v) (β : Type w) where
  call : α
  reply : β
  deriving DecidableEq

variable {σ : Type u} {α : Type v} {β : Type w} (S : Service σ α β)

/-- The state after the calls of a log. -/
def after (start : σ) : List (Event α β) → σ
  | [] => start
  | e :: log => (S.call (after start log) e.call).1

/-- Every reply is the one the service gives after the calls before it. -/
def Faithful (start : σ) : List (Event α β) → Prop
  | [] => True
  | e :: log => e.reply = (S.call (S.after start log) e.call).2 ∧ Faithful start log

/-- Every call of the log satisfies `P` in the state it is made in. -/
def Meets (P : σ → α → Prop) (start : σ) : List (Event α β) → Prop
  | [] => True
  | e :: log => P (S.after start log) e.call ∧ Meets P start log

variable {S} {start : σ} {log log' : List (Event α β)}

/-- The older part of a faithful log is faithful. -/
theorem Faithful.of_append {newer : List (Event α β)} (h : S.Faithful start (newer ++ log)) :
  S.Faithful start log
  := by
  induction newer with
  | nil => apply h
  | cons e newer ih => apply ih h.2

/-- The older part of a log that meets `P` meets it. -/
theorem Meets.of_append {P : σ → α → Prop} {newer : List (Event α β)}
    (h : S.Meets P start (newer ++ log)) :
  S.Meets P start log
  := by
  induction newer with
  | nil => apply h
  | cons e newer ih => apply ih h.2

/-- Two faithful logs from the same state with the same calls have the same replies. -/
theorem Faithful.unique (h : S.Faithful start log) (h' : S.Faithful start log')
    (hcalls : log.map Event.call = log'.map Event.call) :
  log = log'
  := by
  induction log generalizing log' with
  | nil =>
      symm
      apply List.map_eq_nil_iff.mp hcalls.symm
  | cons e log ih =>
      cases log' with
      | nil => cases hcalls
      | cons e' log' =>
          obtain ⟨hcall, hrest⟩ := List.cons.inj hcalls
          obtain rfl := ih h.2 h'.2 hrest
          have hreply : e.reply = e'.reply := by
            rw [h.1, h'.1, hcall]
          cases e
          cases e'
          congr

/-- What holds at the start with an empty log, and is kept by every call that satisfies `P`,
holds of a faithful log that meets `P` and the state after it. -/
theorem Faithful.induction {P : σ → α → Prop} {I : List (Event α β) → σ → Prop}
    (hstart : I [] start)
    (hcall : ∀ log s c, I log s → P s c → I (⟨c, (S.call s c).2⟩ :: log) (S.call s c).1)
    (h : S.Faithful start log) (hmeets : S.Meets P start log) :
  I log (S.after start log)
  := by
  induction log with
  | nil => apply hstart
  | cons e log ih =>
      have hI := hcall log (S.after start log) e.call (ih h.2 hmeets.2) hmeets.1
      rw [← h.1] at hI
      apply hI

end Service
