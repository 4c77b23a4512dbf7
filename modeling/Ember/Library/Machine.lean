import Mathlib.Tactic

/-!
# Machines and their runs

A machine is a partial transition function `step` on states, driven by actions.  A run is
the list of actions taken from a start state; it is defined when every action is enabled in
the state it is taken in.  `Machine.Meets` says that the actions of a run satisfy a condition
in the states they are taken in.  A property that every step meeting the condition
preserves holds at the end of every run meeting it (`Machine.run_induct`).
-/

universe u v

/-- A machine with states `σ` and actions `α`: `step s a` is the state after the action `a`
in the state `s`, or `none` when `a` is not enabled there. -/
structure Machine (σ : Type u) (α : Type v) where
  step : σ → α → Option σ

namespace Machine

variable {σ : Type u} {α : Type v} (M : Machine σ α)

/-- The state after taking the actions of a list in order, when all of them are enabled. -/
def run : σ → List α → Option σ
  | s, [] => some s
  | s, a :: as => (M.step s a).bind (fun t => run t as)

/-- Every state on the way of a run from `s`, its ends included, satisfies `B`. -/
def Always (B : σ → Prop) (s : σ) (as : List α) : Prop :=
  ∀ pre t, pre <+: as → M.run s pre = some t → B t

/-- Every action of a run from `s` satisfies `P` in the state it is taken in. -/
def Meets (P : σ → α → Prop) : σ → List α → Prop
  | _, [] => True
  | s, a :: as => P s a ∧ ∀ t, M.step s a = some t → Meets P t as

@[simp]
theorem run_nil (s : σ) :
  M.run s [] = some s
  := rfl

/-- A run of `a :: as` takes `a` and continues with `as`. -/
theorem run_cons {s t : σ} {a : α} {as : List α} :
  M.run s (a :: as) = some t ↔ ∃ r, M.step s a = some r ∧ M.run r as = some t
  := by
  rw [run, Option.bind_eq_some_iff]

/-- A run of `as ++ bs` is a run of `as` that goes on with `bs`. -/
theorem run_append {s t : σ} {as bs : List α} :
  M.run s (as ++ bs) = some t ↔ ∃ r, M.run s as = some r ∧ M.run r bs = some t
  := by
  induction as generalizing s with
  | nil => simp
  | cons a as ih =>
      rw [List.cons_append, run_cons]
      simp only [ih, run_cons]
      tauto

/-- Whether a run meets a condition that can be decided can be computed. -/
instance Meets.decidable {P : σ → α → Prop} [∀ s a, Decidable (P s a)] :
    ∀ (s : σ) (as : List α), Decidable (M.Meets P s as)
  | _, [] => inferInstanceAs (Decidable True)
  | s, a :: as =>
      have : Decidable (∀ t, M.step s a = some t → M.Meets P t as) :=
        match M.step s a with
        | none => .isTrue (by simp)
        | some t =>
            have : Decidable (M.Meets P t as) := Meets.decidable t as
            decidable_of_iff (M.Meets P t as) (by simp)
      inferInstanceAs (Decidable (_ ∧ _))

/-- A run whose actions keep an invariant meets a condition that these actions satisfy in the
states of the invariant. -/
theorem meets_of_invariant {P : σ → α → Prop} {I : σ → Prop} {Q : α → Prop}
    (hstep : ∀ s a t, I s → Q a → M.step s a = some t → I t)
    (hmeets : ∀ s a, I s → Q a → P s a) {s : σ} (hs : I s) {as : List α} (h : ∀ a ∈ as, Q a) :
  M.Meets P s as
  := by
  induction as generalizing s with
  | nil => trivial
  | cons a as ih =>
      rw [List.forall_mem_cons] at h
      constructor
      · apply hmeets s a hs h.1
      · intro t ht
        apply ih (hstep s a t hs h.1 ht) h.2

/-- A run all of whose actions satisfy `Q` meets it. -/
theorem meets_of_forall_mem {Q : α → Prop} {as : List α} (h : ∀ a ∈ as, Q a) (s : σ) :
  M.Meets (fun _ a => Q a) s as
  := by
  apply M.meets_of_invariant (I := fun _ => True) (Q := Q) _ _ trivial h
  · intro _ _ _ _ _ _
    trivial
  · intro _ _ _ hQ
    apply hQ

/-- A run meeting `P` whose actions all satisfy `Q` meets both. -/
theorem Meets.and {P : σ → α → Prop} {Q : α → Prop} :
  ∀ {s : σ} {as : List α}, M.Meets P s as → (∀ a ∈ as, Q a) →
    M.Meets (fun s a => P s a ∧ Q a) s as
  | _, [], _, _ => trivial
  | _, a :: as, hP, hQ => by
      rw [List.forall_mem_cons] at hQ
      constructor
      · exact ⟨hP.1, hQ.1⟩
      · intro t ht
        apply Meets.and (hP.2 t ht) hQ.2

/-- A run that meets `P`, followed by one that does, meets `P`. -/
theorem Meets.append {P : σ → α → Prop} :
  ∀ {s : σ} {as bs : List α}, M.Meets P s as → (∀ t, M.run s as = some t → M.Meets P t bs) →
    M.Meets P s (as ++ bs)
  | s, [], _, _, hbs => hbs s rfl
  | s, a :: as, bs, has, hbs => by
      constructor
      · apply has.1
      · intro t ht
        apply Meets.append (has.2 t ht)
        intro r hr
        apply hbs r (M.run_cons.mpr ⟨t, ht, hr⟩)

/-- A property of states preserved by every step that meets `P` is preserved by every run
that meets `P`. -/
theorem run_induct {P : σ → α → Prop} {I : σ → Prop}
    (hstep : ∀ s a t, I s → P s a → M.step s a = some t → I t) :
  ∀ {s t : σ} {as : List α}, I s → M.Meets P s as → M.run s as = some t → I t
  | s, t, [], hs, _, hrun => by
      obtain rfl : s = t := by simpa using hrun
      apply hs
  | s, t, a :: as, hs, hmeets, hrun => by
      obtain ⟨r, hr, hrun'⟩ := M.run_cons.mp hrun
      apply run_induct hstep (hstep s a r hs hmeets.1 hr) (hmeets.2 r hr) hrun'

/-- The start of a run that meets `P` meets `P`. -/
theorem Meets.of_prefix {P : σ → α → Prop} :
  ∀ {s : σ} {as bs : List α}, as <+: bs → M.Meets P s bs → M.Meets P s as
  | _, [], _, _, _ => trivial
  | _, a :: as, [], hpre, _ => by simp at hpre
  | _, a :: as, b :: bs, hpre, hmeets => by
      obtain ⟨rfl, htail⟩ := List.cons_prefix_cons.mp hpre
      constructor
      · apply hmeets.1
      · intro t ht
        apply Meets.of_prefix htail (hmeets.2 t ht)

/-- A property of states preserved by every step that meets `P` holds all along every run
that meets `P`. -/
theorem always_of_meets {P : σ → α → Prop} {I : σ → Prop}
    (hstep : ∀ s a t, I s → P s a → M.step s a = some t → I t) {s : σ} {as : List α}
    (hs : I s) (hmeets : M.Meets P s as) :
  M.Always I s as
  := by
  intro pre t hpre hrun
  apply M.run_induct hstep hs (Meets.of_prefix M hpre hmeets) hrun

/-- If a step can lead to `B` only when it meets `P`, then a run all along which `B` holds
meets `P`. -/
theorem meets_of_always {P : σ → α → Prop} {I B : σ → Prop}
    (hstep : ∀ s a t, I s → M.step s a = some t → I t)
    (hmeets : ∀ s a t, I s → M.step s a = some t → B t → P s a) {s t : σ} {as : List α}
    (hs : I s) (hrun : M.run s as = some t) (halways : M.Always B s as) :
  M.Meets P s as
  := by
  induction as generalizing s with
  | nil => trivial
  | cons a as ih =>
      obtain ⟨r, hr, hrun'⟩ := M.run_cons.mp hrun
      constructor
      · apply hmeets s a r hs hr
        apply halways [a] r (by simp)
        apply M.run_cons.mpr
        use r, hr
        apply M.run_nil
      · intro r' hr'
        obtain rfl := Option.some.inj (hr.symm.trans hr')
        apply ih (hstep s a r hs hr) hrun'
        intro pre u hpre hu
        apply halways (a :: pre) u (List.cons_prefix_cons.mpr ⟨rfl, hpre⟩)
        apply M.run_cons.mpr
        use r, hr

/-- The exact condition for `B` to hold all along a run.  Every step keeps `I`; a step that
leads to `B` meets `P`; and `J`, which gives `B`, is kept by the steps that meet `P`.  Then `B`
holds all along a run exactly when the run meets `P`. -/
theorem always_iff_meets {P : σ → α → Prop} {I J B : σ → Prop}
    (hI : ∀ s a t, I s → M.step s a = some t → I t)
    (hmeets : ∀ s a t, I s → M.step s a = some t → B t → P s a)
    (hJ : ∀ s a t, I s → J s → P s a → M.step s a = some t → J t)
    (hB : ∀ s, I s → J s → B s) {s t : σ} {as : List α} (hs : I s) (hs' : J s)
    (hrun : M.run s as = some t) :
  M.Always B s as ↔ M.Meets P s as
  := by
  constructor
  · apply M.meets_of_always hI hmeets hs hrun
  · intro hP pre r hpre hr
    have hstep : ∀ s a t, I s ∧ J s → P s a → M.step s a = some t → I t ∧ J t := by
      rintro s a t ⟨hIs, hJs⟩ hPs h
      constructor
      · apply hI s a t hIs h
      · apply hJ s a t hIs hJs hPs h
    obtain ⟨hIr, hJr⟩ := M.always_of_meets hstep ⟨hs, hs'⟩ hP pre r hpre hr
    apply hB r hIr hJr

/-- A property of states preserved by every step is preserved by every run. -/
theorem run_invariant {I : σ → Prop}
    (hstep : ∀ s a t, I s → M.step s a = some t → I t) {s t : σ} {as : List α}
    (hs : I s) (hrun : M.run s as = some t) :
  I t
  := by
  apply M.run_induct (P := fun _ _ => True) _ hs _ hrun
  · intro s a t hs _ h
    apply hstep s a t hs h
  · apply M.meets_of_forall_mem
    intro _ _
    trivial

end Machine
