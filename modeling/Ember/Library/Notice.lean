import Ember.Library.Machine

/-!
# Notices that are never taken down

A board shows values of keys.  A step may give a key another value and then puts up a notice of
it, and no notice is ever taken down.  The board is faithful when it shows, for every key that
has a value, this value and no other.  It stays faithful along a run exactly when no step moves
a key from one value to another (`Machine.always_faithful_iff`).
-/

universe u v w

/-- The values of keys, and the notices about them. -/
structure Board (κ : Type u) (β : Type v) where
  current : κ → Option β
  posted : κ → β → Prop

namespace Board

variable {κ : Type u} {β : Type v}

/-- For every key that has a value, the board shows this value and no other. -/
def Faithful (b : Board κ β) : Prop :=
  ∀ k v, b.current k = some v → ∀ w, b.posted k w ↔ w = v

/-- Every value is posted. -/
def Complete (b : Board κ β) : Prop :=
  ∀ k v, b.current k = some v → b.posted k v

/-- Every notice is of a current value. -/
def Sound (b : Board κ β) : Prop :=
  ∀ k v, b.posted k v → b.current k = some v

/-- A key goes from one value to another. -/
def Moves (b b' : Board κ β) : Prop :=
  ∃ k v w, b.current k = some v ∧ b'.current k = some w ∧ w ≠ v

/-- What a step does: no key loses its value, no notice is taken down, the new values are posted
and nothing else is. -/
structure Step (b b' : Board κ β) : Prop where
  kept : ∀ k v, b.current k = some v → ∃ w, b'.current k = some w
  stays : ∀ k v, b.posted k v → b'.posted k v
  posts : ∀ k v, b'.current k = some v → b.current k = some v ∨ b'.posted k v
  only : ∀ k v, b'.posted k v → b.posted k v ∨ b'.current k = some v

variable {b b' : Board κ β}

/-- A complete board all of whose notices are current is faithful. -/
theorem Complete.faithful (hcomplete : b.Complete) (hsound : b.Sound) :
  b.Faithful
  := by
  intro k v hv w
  constructor
  · intro hw
    apply Option.some.inj
    rw [← hsound k w hw, hv]
  · rintro rfl
    apply hcomplete k w hv

/-- A step keeps the board complete. -/
theorem Step.complete (h : b.Step b') (hb : b.Complete) :
  b'.Complete
  := by
  intro k v hv
  obtain hold | hnew := h.posts k v hv
  · apply h.stays k v (hb k v hold)
  · apply hnew

/-- After a step that moves a key, the board still shows the old value of the key. -/
theorem Step.not_moves (h : b.Step b') (hb : b.Complete) (hfaithful : b'.Faithful) :
  ¬b.Moves b'
  := by
  rintro ⟨k, v, w, hv, hw, hne⟩
  have hold : b'.posted k v := h.stays k v (hb k v hv)
  apply hne
  symm
  apply (hfaithful k w hw v).mp hold

/-- A step that moves no key leaves no notice behind. -/
theorem Step.sound (h : b.Step b') (hb : b.Sound) (hmoves : ¬b.Moves b') :
  b'.Sound
  := by
  intro k v hv
  obtain hold | hnew := h.only k v hv
  · have hcurrent := hb k v hold
    obtain ⟨w, hw⟩ := h.kept k v hcurrent
    obtain rfl | hne := eq_or_ne w v
    · apply hw
    · exact absurd ⟨k, v, w, hcurrent, hw, hne⟩ hmoves
  · apply hnew

end Board

/-- When every step of a machine is one of its board, the board is faithful all along a run
exactly when no step of the run moves a key. -/
theorem Machine.always_faithful_iff {σ : Type u} {α : Type v} {κ β : Type w} (M : Machine σ α)
    {board : σ → Board κ β} {I : σ → Prop} {P : σ → α → Prop}
    (hI : ∀ s a t, I s → M.step s a = some t → I t)
    (hboard : ∀ s a t, I s → M.step s a = some t → (board s).Step (board t))
    (hP : ∀ s a t, I s → M.step s a = some t → (P s a ↔ ¬(board s).Moves (board t)))
    {s t : σ} {as : List α} (hs : I s) (hcomplete : (board s).Complete)
    (hsound : (board s).Sound) (hrun : M.run s as = some t) :
  M.Always (fun s => (board s).Faithful) s as ↔ M.Meets P s as
  := by
  apply M.always_iff_meets (I := fun s => I s ∧ (board s).Complete)
    (J := fun s => (board s).Sound) _ _ _ _ ⟨hs, hcomplete⟩ hsound hrun
  · rintro s a t ⟨hs, hcomplete⟩ h
    exact ⟨hI s a t hs h, (hboard s a t hs h).complete hcomplete⟩
  · rintro s a t ⟨hs, hcomplete⟩ h hfaithful
    rw [hP s a t hs h]
    apply (hboard s a t hs h).not_moves hcomplete hfaithful
  · rintro s a t ⟨hs, -⟩ hsound hPs h
    rw [hP s a t hs h] at hPs
    apply (hboard s a t hs h).sound hsound hPs
  · rintro s ⟨-, hcomplete⟩ hsound
    apply hcomplete.faithful hsound
