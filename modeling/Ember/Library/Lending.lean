import Mathlib.Logic.Function.Basic
import Mathlib.Tactic
import Ember.Library.Census

/-!
# Lending pools

A lending pool holds resources in a bounded queue and lends them to clients.  A client takes
a resource from the queue, or is given a new one when the queue has none for it; it gives the
resource back, or drops it, and then the resource is retired.  Resources are numbered as they
are made.

Every number is in one place at a time (`Lending.Placed`): not made yet, queued, held by one
client, or retired.  That no resource is held twice, or held and queued, or held or queued
after it was retired, follows from there.

The number of resources that are queued or held grows only when one is made
(`Step.live_le`).  As long as none is thrown away, the resources made are queued, held or retired
(`Step.conserve`).
-/

universe u v

/-- A lending pool with clients `ι` and resources `τ`. -/
structure Lending (ι : Type u) (τ : Type v) where
  queue : List τ
  held : ι → Option τ
  /-- The number of the next resource to be made. -/
  next : ℕ
  /-- The numbers of the resources that clients dropped. -/
  retired : List ℕ

namespace Lending

variable {ι : Type u} {τ : Type v} (num : τ → ℕ) (cap : ℕ)

/-- Where the resource with a given number is. -/
inductive Place (ι : Type u) where
  | unmade
  | queued
  | held (i : ι)
  | retired

/-- The numbers of all resources are where `place` says. -/
structure Placed (s : Lending ι τ) (place : ℕ → Place ι) : Prop where
  queue : ∀ p ∈ s.queue, place (num p) = .queued
  held : ∀ i p, s.held i = some p → place (num p) = .held i
  retired : ∀ n ∈ s.retired, place n = .retired
  unmade : ∀ n, s.next ≤ n → place n = .unmade
  nodup : (s.queue.map num).Nodup
  length : s.queue.length ≤ cap

/-- The pool is well formed. -/
def Ok (s : Lending ι τ) : Prop := ∃ place, s.Placed num cap place

/-- The number of clients that hold a resource. -/
noncomputable def lent (s : Lending ι τ) : ℕ∞ := census (· ≠ none) s.held

/-- The number of resources that are queued or held. -/
noncomputable def live (s : Lending ι τ) : ℕ∞ := s.lent + s.queue.length

/-- The resource is queued or held. -/
def Mem (s : Lending ι τ) (p : τ) : Prop := p ∈ s.queue ∨ ∃ i, s.held i = some p

variable {num : τ → ℕ} {cap : ℕ} {s t : Lending ι τ} {place : ℕ → Place ι}

/-- A number somewhere else is another number. -/
theorem place_ne {place : ℕ → Place ι} {m n : ℕ} {x y : Place ι} (hm : place m = x)
    (hn : place n = y) (hxy : x ≠ y) :
  m ≠ n
  := by
  rintro rfl
  apply hxy (hm.symm.trans hn)

/-- A pool without resources is well formed. -/
theorem ok_empty {s : Lending ι τ} (hqueue : s.queue = []) (hheld : ∀ i, s.held i = none)
    (hretired : s.retired = []) :
  s.Ok num cap
  := by
  use fun _ => .unmade
  constructor
  · simp [hqueue]
  · simp [hheld]
  · simp [hretired]
  · simp
  · simp [hqueue]
  · simp [hqueue]

namespace Ok

variable (hs : s.Ok num cap)
include hs

/-- The queue is bounded by the capacity. -/
theorem length_le :
  s.queue.length ≤ cap
  := by
  obtain ⟨place, hs⟩ := hs
  apply hs.length

/-- No resource is held by two clients. -/
theorem held_unique {i j : ι} {p q : τ} (hp : s.held i = some p) (hq : s.held j = some q)
    (h : num p = num q) :
  i = j
  := by
  obtain ⟨place, hs⟩ := hs
  have heq := (hs.held i p hp).symm.trans ((congrArg place h).trans (hs.held j q hq))
  injection heq

/-- No resource is both held and queued. -/
theorem held_ne_queued {i : ι} {p q : τ} (hp : s.held i = some p) (hq : q ∈ s.queue) :
  num p ≠ num q
  := by
  obtain ⟨place, hs⟩ := hs
  apply place_ne (hs.held i p hp) (hs.queue q hq) (by simp)

/-- No resource is held or queued after it was retired. -/
theorem mem_ne_retired {p : τ} (hp : s.Mem p) {n : ℕ} (hn : n ∈ s.retired) :
  num p ≠ n
  := by
  obtain ⟨place, hs⟩ := hs
  rcases hp with hp | ⟨i, hp⟩
  · apply place_ne (hs.queue p hp) (hs.retired n hn) (by simp)
  · apply place_ne (hs.held i p hp) (hs.retired n hn) (by simp)

end Ok

/-! ### Steps -/

section Step

/-- What can happen in a lending pool. -/
inductive Step [DecidableEq ι] (num : τ → ℕ) (cap : ℕ) : Lending ι τ → Lending ι τ → Prop
  /-- Nothing. -/
  | keep (s : Lending ι τ) : Step num cap s s
  /-- A client takes a resource from the queue; the ones before it are thrown away. -/
  | take (s : Lending ι τ) (i : ι) (p : τ) (rest : List τ) (hqueue : (p :: rest) <:+ s.queue)
      (hheld : s.held i = none) :
      Step num cap s { s with queue := rest, held := Function.update s.held i (some p) }
  /-- The queue is thrown away. -/
  | drain (s : Lending ι τ) : Step num cap s { s with queue := [] }
  /-- A client is given a new resource. -/
  | make (s : Lending ι τ) (i : ι) (p : τ) (hnum : num p = s.next) (hheld : s.held i = none) :
      Step num cap s { s with held := Function.update s.held i (some p), next := s.next + 1 }
  /-- A client drops its resource. -/
  | drop (s : Lending ι τ) (i : ι) (p : τ) (hheld : s.held i = some p) :
      Step num cap s
        { s with held := Function.update s.held i none, retired := num p :: s.retired }
  /-- A client gives its resource back. -/
  | giveBack (s : Lending ι τ) (i : ι) (p : τ) (hheld : s.held i = some p)
      (hcap : s.queue.length < cap) :
      Step num cap s { s with queue := s.queue ++ [p], held := Function.update s.held i none }

/-- Throwing the queue away moves no number. -/
theorem Placed.drain (hs : s.Placed num cap place) :
  Placed num cap { s with queue := [] } place
  := by
  constructor
  · intro q hq
    cases hq
  · apply hs.held
  · apply hs.retired
  · apply hs.unmade
  · apply List.nodup_nil
  · apply Nat.zero_le

variable [DecidableEq ι]

/-- What a client holds after the holding of client `i` was set to `x`. -/
theorem held_update {i j : ι} {x : Option τ} {p : τ}
    (h : Function.update s.held i x j = some p) :
  (j = i ∧ x = some p) ∨ (j ≠ i ∧ s.held j = some p)
  := by
  obtain rfl | hne := eq_or_ne j i
  · left
    rw [Function.update_self] at h
    use rfl, h
  · right
    rw [Function.update_of_ne hne] at h
    use hne, h

/-- Taking a resource from the queue moves its number to the client. -/
theorem Placed.take (hs : s.Placed num cap place) {i : ι} {p : τ} {rest : List τ}
    (hqueue : (p :: rest) <:+ s.queue) (hheld : s.held i = none) :
  Placed num cap { s with queue := rest, held := Function.update s.held i (some p) }
    (Function.update place (num p) (.held i))
  := by
  have hp : place (num p) = .queued := hs.queue p (hqueue.subset List.mem_cons_self)
  have hnodup : ((p :: rest).map num).Nodup := hs.nodup.sublist (hqueue.sublist.map num)
  rw [List.map_cons, List.nodup_cons] at hnodup
  constructor
  · intro q hq
    have hne : num q ≠ num p := by
      intro heq
      apply hnodup.1
      rw [← heq]
      apply List.mem_map_of_mem hq
    rw [Function.update_of_ne hne]
    apply hs.queue q (hqueue.subset (List.mem_cons_of_mem p hq))
  · intro j q hq
    obtain ⟨rfl, heq⟩ | ⟨-, hq⟩ := held_update hq
    · obtain rfl := Option.some.inj heq
      apply Function.update_self
    · have hne : num q ≠ num p := place_ne (hs.held j q hq) hp (by simp)
      rw [Function.update_of_ne hne]
      apply hs.held j q hq
  · intro n hn
    have hne : n ≠ num p := place_ne (hs.retired n hn) hp (by simp)
    rw [Function.update_of_ne hne]
    apply hs.retired n hn
  · intro n hn
    have hne : n ≠ num p := place_ne (hs.unmade n hn) hp (by simp)
    rw [Function.update_of_ne hne]
    apply hs.unmade n hn
  · apply hnodup.2
  · have := hqueue.length_le
    have := hs.length
    rw [List.length_cons] at *
    dsimp only
    omega

/-- Making a resource moves its number to the client. -/
theorem Placed.make (hs : s.Placed num cap place) {i : ι} {p : τ} (hnum : num p = s.next)
    (hheld : s.held i = none) :
  Placed num cap { s with held := Function.update s.held i (some p), next := s.next + 1 }
    (Function.update place s.next (.held i))
  := by
  have hnext : place s.next = .unmade := hs.unmade s.next le_rfl
  constructor
  · intro q hq
    rw [Function.update_of_ne (place_ne (hs.queue q hq) hnext (by simp))]
    apply hs.queue q hq
  · intro j q hq
    obtain ⟨rfl, heq⟩ | ⟨-, hq⟩ := held_update hq
    · obtain rfl := Option.some.inj heq
      rw [hnum]
      apply Function.update_self
    · rw [Function.update_of_ne (place_ne (hs.held j q hq) hnext (by simp))]
      apply hs.held j q hq
  · intro n hn
    rw [Function.update_of_ne (place_ne (hs.retired n hn) hnext (by simp))]
    apply hs.retired n hn
  · intro n hn
    dsimp only at hn
    rw [Function.update_of_ne (by omega)]
    apply hs.unmade n (by omega)
  · apply hs.nodup
  · apply hs.length

/-- Dropping a resource moves its number to the retired ones. -/
theorem Placed.drop (hs : s.Placed num cap place) {i : ι} {p : τ} (hheld : s.held i = some p) :
  Placed num cap { s with held := Function.update s.held i none, retired := num p :: s.retired }
    (Function.update place (num p) .retired)
  := by
  have hp : place (num p) = .held i := hs.held i p hheld
  constructor
  · intro q hq
    rw [Function.update_of_ne (place_ne (hs.queue q hq) hp (by simp))]
    apply hs.queue q hq
  · intro j q hq
    obtain ⟨-, heq⟩ | ⟨hne, hq⟩ := held_update hq
    · cases heq
    · rw [Function.update_of_ne (place_ne (hs.held j q hq) hp (by simpa using hne))]
      apply hs.held j q hq
  · intro n hn
    obtain rfl | hne := eq_or_ne n (num p)
    · apply Function.update_self
    · rw [Function.update_of_ne hne]
      apply hs.retired n ((List.mem_cons.mp hn).resolve_left hne)
  · intro n hn
    rw [Function.update_of_ne (place_ne (hs.unmade n hn) hp (by simp))]
    apply hs.unmade n hn
  · apply hs.nodup
  · apply hs.length

/-- Giving a resource back moves its number to the queue. -/
theorem Placed.giveBack (hs : s.Placed num cap place) {i : ι} {p : τ}
    (hheld : s.held i = some p) (hcap : s.queue.length < cap) :
  Placed num cap { s with queue := s.queue ++ [p], held := Function.update s.held i none }
    (Function.update place (num p) .queued)
  := by
  have hp : place (num p) = .held i := hs.held i p hheld
  constructor
  · intro q hq
    rcases List.mem_append.mp hq with hq | hq
    · rw [Function.update_of_ne (place_ne (hs.queue q hq) hp (by simp))]
      apply hs.queue q hq
    · rw [List.mem_singleton.mp hq]
      apply Function.update_self
  · intro j q hq
    obtain ⟨-, heq⟩ | ⟨hne, hq⟩ := held_update hq
    · cases heq
    · rw [Function.update_of_ne (place_ne (hs.held j q hq) hp (by simpa using hne))]
      apply hs.held j q hq
  · intro n hn
    rw [Function.update_of_ne (place_ne (hs.retired n hn) hp (by simp))]
    apply hs.retired n hn
  · intro n hn
    rw [Function.update_of_ne (place_ne (hs.unmade n hn) hp (by simp))]
    apply hs.unmade n hn
  · rw [List.map_append, List.nodup_append]
    refine ⟨hs.nodup, List.nodup_singleton _, ?_⟩
    intro m hm n hn
    obtain ⟨q, hq, rfl⟩ := List.mem_map.mp hm
    rw [List.map_singleton, List.mem_singleton] at hn
    rw [hn]
    apply place_ne (hs.queue q hq) hp (by simp)
  · rw [List.length_append, List.length_singleton]
    apply hcap

/-- Every step keeps a pool well formed. -/
theorem Step.ok (h : Step num cap s t) (hs : s.Ok num cap) :
  t.Ok num cap
  := by
  obtain ⟨place, hs⟩ := hs
  cases h with
  | keep => use place
  | take i p rest hqueue hheld => exact ⟨_, hs.take hqueue hheld⟩
  | drain => exact ⟨_, hs.drain⟩
  | make i p hnum hheld => exact ⟨_, hs.make hnum hheld⟩
  | drop i p hheld => exact ⟨_, hs.drop hheld⟩
  | giveBack i p hheld hcap => exact ⟨_, hs.giveBack hheld hcap⟩

/-- A resource that is queued after a step was queued or held before. -/
theorem Step.mem_of_mem_queue (h : Step num cap s t) {p : τ} (hp : p ∈ t.queue) :
  s.Mem p
  := by
  cases h with
  | take i q rest hqueue hheld =>
      left
      apply hqueue.subset (List.mem_cons_of_mem q hp)
  | drain => cases hp
  | giveBack i q hheld hcap =>
      rcases List.mem_append.mp hp with hp | hp
      · left
        apply hp
      · right
        use i
        rw [List.mem_singleton.mp hp]
        apply hheld
  | _ =>
      left
      apply hp

/-! ### Counting -/

/-- A client that receives a resource is one more. -/
theorem lent_some {i : ι} (p : τ) (hheld : s.held i = none) :
  census (· ≠ none) (Function.update s.held i (some p)) = s.lent + 1
  := by
  apply census_update_add
  · simp [hheld]
  · simp

/-- Making a resource adds one. -/
theorem live_make {i : ι} (p : τ) (hheld : s.held i = none) :
  live { s with held := Function.update s.held i (some p), next := s.next + 1 } = s.live + 1
  := by
  rw [live, lent, lent_some p hheld, live, add_right_comm]

/-- A step adds no resource unless it makes one. -/
theorem Step.live_le (h : Step num cap s t) :
  t.live ≤ s.live ∨ t.live = s.live + 1 ∧ t.next = s.next + 1
  := by
  cases h with
  | keep =>
      left
      apply le_refl
  | take i p rest hqueue hheld =>
      left
      have hlength : (rest.length : ℕ∞) + 1 ≤ s.queue.length := by
        exact_mod_cast hqueue.length_le
      rw [live, lent, lent_some p hheld]
      calc s.lent + 1 + rest.length
          = s.lent + (rest.length + 1) := by rw [add_assoc, add_comm 1]
        _ ≤ s.live := by
            rw [live]
            gcongr
  | drain =>
      left
      rw [live, live]
      apply add_le_add_right
      apply Nat.cast_le.mpr
      apply Nat.zero_le
  | make i p hnum hheld =>
      right
      exact ⟨live_make p hheld, rfl⟩
  | drop i p hheld =>
      left
      rw [live, live]
      apply add_le_add_left
      apply census_update_le
      simp
  | giveBack i p hheld hcap =>
      left
      have hlent : census (· ≠ none) (Function.update s.held i none) + 1 = s.lent :=
        census_update_sub (by simp [hheld]) (by simp)
      rw [live, live, lent, ← hlent]
      simp [add_assoc, add_comm]

/-- A step that throws no resource away keeps account of those made: they are live or retired. -/
theorem Step.conserve (h : Step num cap s t) (hs : s.Ok num cap)
    (hkeep : ∀ p ∈ s.queue, t.Mem p) :
  t.live + t.retired.length + s.next = s.live + s.retired.length + t.next
  := by
  cases h with
  | keep => rfl
  | take i p rest hqueue hheld =>
      -- what is before the resource that is taken would be lost
      obtain ⟨place, hs⟩ := hs
      obtain ⟨lost, hlost⟩ := hqueue
      have hnodup := hs.nodup
      rw [← hlost, List.map_append, List.nodup_append] at hnodup
      have hnone : lost = [] := by
        apply List.eq_nil_iff_forall_not_mem.mpr
        intro q hq
        have hmem : q ∈ s.queue := by
          rw [← hlost]
          apply List.mem_append_left _ hq
        have hne : ∀ q' ∈ p :: rest, num q ≠ num q' := by
          intro q' hq'
          apply hnodup.2.2 _ (List.mem_map_of_mem hq) _ (List.mem_map_of_mem hq')
        rcases hkeep q hmem with hq' | ⟨j, hj⟩
        · apply hne q (List.mem_cons_of_mem p hq') rfl
        · obtain ⟨rfl, heq⟩ | ⟨-, hj⟩ := held_update hj
          · obtain rfl := Option.some.inj heq
            apply hne p List.mem_cons_self rfl
          · apply place_ne (hs.held j q hj) (hs.queue q hmem) _ rfl
            simp
      have hlength : (s.queue.length : ℕ∞) = rest.length + 1 := by
        rw [← hlost, hnone]
        simp
      rw [live, lent, lent_some p hheld, live, hlength]
      ring
  | drain =>
      have hempty : s.queue = [] := by
        apply List.eq_nil_iff_forall_not_mem.mpr
        intro q hq
        rcases hkeep q hq with hq' | ⟨j, hj⟩
        · cases hq'
        · apply hs.held_ne_queued hj hq rfl
      rw [live, live, hempty]
      rfl
  | make i p hnum hheld =>
      rw [live_make p hheld]
      push_cast
      ring
  | drop i p hheld =>
      have hlent : census (· ≠ none) (Function.update s.held i none) + 1 = s.lent :=
        census_update_sub (by simp [hheld]) (by simp)
      rw [live, live, lent, ← hlent, List.length_cons]
      push_cast
      ring
  | giveBack i p hheld hcap =>
      have hlent : census (· ≠ none) (Function.update s.held i none) + 1 = s.lent :=
        census_update_sub (by simp [hheld]) (by simp)
      rw [live, live, lent, ← hlent, List.length_append, List.length_singleton]
      push_cast
      ring

end Step

end Lending
