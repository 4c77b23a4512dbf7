import Ember.Component.Loader

/-!
# The documented exports

The contract names the exports under which a component may provide the handler: the world, the
bare interface, and the fully-qualified interface with an optional version.  The check looks for
`:runtime/handler` anywhere in a name, so it also takes other packages and longer interface
names.  Here we determine on which lists of exports the check accepts exactly what the contract
names.
-/

namespace Ember

/-- The documented names of the handler, where `isVersion` says what counts as a version. -/
def IsHandlerExport (isVersion : String → Prop) (e : String) : Prop :=
  e = "ember-guest" ∨ e = "#ember-guest" ∨ e = "ember-handler" ∨ e = "handler"
    ∨ e = "ember:runtime/handler" ∨ ∃ v, isVersion v ∧ e = "ember:runtime/handler@" ++ v

/-- The names the check looks for as they are. -/
def IsShortExport (e : String) : Prop :=
  e = "ember-guest" ∨ e = "#ember-guest" ∨ e = "ember-handler" ∨ e = "handler"

/-- The contract check passes exactly when some export is one of the short names or contains
`:runtime/handler`. -/
theorem contractViolations_none {exports : List String} :
  contractViolations exports = none
    ↔ ∃ e ∈ exports, IsShortExport e ∨ containsStr e ":runtime/handler" = true
  := by
  have hworld : ∀ e : String, (e == emberWorld || e == s!"#{emberWorld}") = true
      ↔ e = "ember-guest" ∨ e = "#ember-guest" := by
    intro e
    rw [(by decide : s!"#{emberWorld}" = "#ember-guest"), Bool.or_eq_true, beq_iff_eq, beq_iff_eq]
    rfl
  have hinterface : ∀ e : String,
      (e == handlerInterface || e == "handler" || containsStr e ":runtime/handler") = true
        ↔ e = "ember-handler" ∨ e = "handler" ∨ containsStr e ":runtime/handler" = true := by
    intro e
    rw [Bool.or_eq_true, Bool.or_eq_true, beq_iff_eq, beq_iff_eq, or_assoc]
    rfl
  have hpasses : ((exports.any fun e => e == emberWorld || e == s!"#{emberWorld}")
      || exports.any fun e =>
          e == handlerInterface || e == "handler" || containsStr e ":runtime/handler") = true
        ↔ ∃ e ∈ exports, IsShortExport e ∨ containsStr e ":runtime/handler" = true := by
    rw [Bool.or_eq_true, List.any_eq_true, List.any_eq_true, ← exists_or]
    apply exists_congr
    intro e
    rw [← and_or_left, hworld, hinterface, or_assoc, IsShortExport, or_assoc, or_assoc, or_assoc]
  rw [← hpasses, contractViolations]
  split
  next h => simp only [h]
  next h => simp only [h, reduceCtorEq]

/-- What follows a text that contains a pattern still contains it. -/
theorem containsStr_append {s p : String} (h : containsStr s p = true) (t : String) :
  containsStr (s ++ t) p = true
  := by
  simp only [containsStr, decide_eq_true_eq, String.toList_append] at h ⊢
  apply h.trans
  apply (List.prefix_append _ _).isInfix

/-- Every documented name is accepted. -/
theorem IsHandlerExport.accepted {isVersion : String → Prop} {e : String}
    (h : IsHandlerExport isVersion e) :
  IsShortExport e ∨ containsStr e ":runtime/handler" = true
  := by
  rcases h with h | h | h | h | rfl | ⟨v, -, rfl⟩
  · exact .inl (.inl h)
  · exact .inl (.inr (.inl h))
  · exact .inl (.inr (.inr (.inl h)))
  · exact .inl (.inr (.inr (.inr h)))
  · exact .inr (by decide)
  · exact .inr (containsStr_append (by decide) v)

/-- The short names are documented. -/
theorem IsShortExport.documented {isVersion : String → Prop} {e : String} (h : IsShortExport e) :
  IsHandlerExport isVersion e
  := by
  rcases h with h | h | h | h
  · exact .inl h
  · exact .inr (.inl h)
  · exact .inr (.inr (.inl h))
  · exact .inr (.inr (.inr (.inl h)))

/-- Whatever counts as a version: the contract check accepts an artifact exactly when one of its
exports is a documented name of the handler, unless none is and some export contains
`:runtime/handler`. -/
theorem ensureContract_documented_iff (isVersion : String → Prop) (loaded : Loaded) :
  ((contractViolations loaded.exports = none
        ↔ ∃ e ∈ loaded.exports, IsHandlerExport isVersion e)
      ∧ (ensureContract loaded = .ok () ↔ ∃ e ∈ loaded.exports, IsHandlerExport isVersion e))
    ↔ (∃ e ∈ loaded.exports, IsHandlerExport isVersion e)
      ∨ ∀ e ∈ loaded.exports, ¬containsStr e ":runtime/handler" = true
  := by
  rw [ensureContract_ok, and_self, contractViolations_none]
  constructor
  · intro h
    by_cases hsome : ∃ e ∈ loaded.exports, containsStr e ":runtime/handler" = true
    · left
      obtain ⟨e, he, hcontains⟩ := hsome
      apply h.mp ⟨e, he, .inr hcontains⟩
    · right
      intro e he hcontains
      apply hsome ⟨e, he, hcontains⟩
  · intro h
    constructor
    · rintro ⟨e, he, hshort | hcontains⟩
      · exact ⟨e, he, hshort.documented⟩
      · rcases h with hdocumented | hnone
        · apply hdocumented
        · exact absurd hcontains (hnone e he)
    · rintro ⟨e, he, hdocumented⟩
      exact ⟨e, he, hdocumented.accepted⟩

/-- An artifact that exports a longer interface of another package is accepted, although no
export is a documented name of the handler, with any text as a version. -/
theorem ensureContract_undocumented :
  ∃ loaded : Loaded, loaded.exports = ["acme:runtime/handlers"]
    ∧ ensureContract loaded = .ok ()
    ∧ ¬∃ e ∈ loaded.exports, IsHandlerExport (fun _ => True) e
  := by
  let loaded : Loaded :=
    { source := "acme.wasm"
      bytes := []
      digest := ""
      size := 0
      worldId := none
      exports := ["acme:runtime/handlers"] }
  refine ⟨loaded, rfl, ?_, ?_⟩
  · rw [ensureContract_ok, contractViolations_none]
    exact ⟨"acme:runtime/handlers", List.mem_singleton_self _, .inr (by decide)⟩
  · rintro ⟨e, he, h⟩
    rw [List.mem_singleton.mp he] at h
    simp only [IsHandlerExport, String.reduceEq, true_and, false_or] at h
    obtain ⟨v, h⟩ := h
    have hhead := congrArg (fun s : String => s.toList.head?) h
    simp at hhead

end Ember
