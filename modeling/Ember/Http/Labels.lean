import Mathlib
import Ember.Library.Labels
import Ember.Http.Egress

/-!
# Label boundaries of the allowlist

`hostMatches` compares lists of labels.  Here we say which hosts a rule covers in terms of the
texts themselves, and show that a policy whose rules name no scheme and no port allows exactly
the hosts that one of its rules covers, however the host is decorated with a scheme and a port.
-/

namespace Ember

/-- Texts without colons, slashes and closing brackets. -/
def Plain (t : Text) : Prop := ':' ∉ t ∧ '/' ∉ t ∧ ']' ∉ t

instance (t : Text) : Decidable (Plain t) := inferInstanceAs (Decidable (_ ∧ _ ∧ _))

/-- The authority `[scheme://]host[:port]`. -/
def decorate (scheme : Option String) (host : String) (port : Option String) : String :=
  scheme.elim "" (· ++ "://") ++ host ++ port.elim "" (":" ++ ·)

/-- The rule `r` covers the host `h`.  The rule `*` covers every host, a rule `*.s` covers `s` and
the hosts that end with `.s`, and any other rule the hosts that have its labels, where a label
`*` stands for any label. -/
def RuleCovers (r h : Text) : Prop :=
  r = ['*']
    ∨ (∃ s, r = '*' :: '.' :: s
        ∧ (eqIgnoreAsciiCase h s = true
          ∨ ∃ pre t, h = pre ++ t ∧ eqIgnoreAsciiCase t ('.' :: s) = true))
    ∨ ((r.splitOn '.').head? ≠ some ['*']
        ∧ List.Forall₂ (fun a b => a = ['*'] ∨ eqIgnoreAsciiCase a b = true)
            (r.splitOn '.') (h.splitOn '.'))

/-! ### Taking decorations off -/

/-- Up to its first colon a text is not split. -/
theorem splitFirst_append {t : Text} (ht : ':' ∉ t) (rest : Text) :
  splitFirst "://".toList (t ++ rest)
    = (splitFirst "://".toList rest).map fun p => (t ++ p.1, p.2)
  := by
  induction t with
  | nil => simp
  | cons c t ih =>
      rw [List.mem_cons, not_or] at ht
      have hpre : "://".toList.isPrefixOf (c :: (t ++ rest)) = false := by
        simp [List.isPrefixOf, ht.1]
      rw [List.cons_append, splitFirst, if_neg (Bool.eq_false_iff.mp hpre), ih ht.2,
        Option.map_map]
      rfl

/-- A text without slashes has no scheme. -/
theorem splitFirst_of_not_mem {t : Text} (ht : '/' ∉ t) :
  splitFirst "://".toList t = none
  := by
  induction t with
  | nil => rfl
  | cons c t ih =>
      rw [List.mem_cons, not_or] at ht
      have hpre : "://".toList.isPrefixOf (c :: t) = false := by
        cases t with
        | nil => simp [List.isPrefixOf]
        | cons d t =>
            have hd : '/' ≠ d := by
              intro h
              apply ht.2
              rw [h]
              apply List.mem_cons_self
            simp [List.isPrefixOf, hd]
      rw [splitFirst, if_neg (Bool.eq_false_iff.mp hpre), ih ht.2, Option.map_none]

/-- A text without colons has no port. -/
theorem rsplitOnce_of_not_mem {t : Text} (ht : ':' ∉ t) :
  rsplitOnce ':' t = none
  := by
  induction t with
  | nil => rfl
  | cons c t ih =>
      rw [List.mem_cons, not_or] at ht
      rw [rsplitOnce, ih ht.2]
      simp only
      rw [if_neg (Ne.symm ht.1)]

/-- A text is split at a colon that no other follows. -/
theorem rsplitOnce_append {port : Text} (hport : ':' ∉ port) (h : Text) :
  rsplitOnce ':' (h ++ ':' :: port) = some (h, port)
  := by
  induction h with
  | nil =>
      rw [List.nil_append, rsplitOnce, rsplitOnce_of_not_mem hport]
      simp only [if_true]
  | cons c h ih => rw [List.cons_append, rsplitOnce, ih]

/-- The scheme of a decorated host is taken off. -/
theorem splitScheme_decorate {scheme : Option String} {h : String} {port : Option String}
    (hscheme : ∀ s ∈ scheme, Plain s.toList) (hh : Plain h.toList)
    (hport : ∀ p ∈ port, Plain p.toList) :
  splitScheme (decorate scheme h port).toList
    = (scheme.map String.toList, (decorate none h port).toList)
  := by
  have hrest : splitFirst "://".toList (decorate none h port).toList = none := by
    apply splitFirst_of_not_mem
    cases port with
    | none => simpa [decorate] using hh.2.1
    | some p => simpa [decorate] using ⟨hh.2.1, (hport p rfl).2.1⟩
  cases scheme with
  | none =>
      rw [splitScheme, hrest]
      rfl
  | some s =>
      have htext : (decorate (some s) h port).toList
          = s.toList ++ ("://".toList ++ (decorate none h port).toList) := by
        simp [decorate]
      have hhere : splitFirst "://".toList ("://".toList ++ (decorate none h port).toList)
          = some ([], (decorate none h port).toList) := by
        simp [splitFirst, List.isPrefixOf]
      rw [splitScheme, htext, splitFirst_append (hscheme s rfl).1, hhere, Option.map_some]
      simp

/-- The port of a decorated host is taken off. -/
theorem splitAuthority_decorate {h : String} {port : Option String} (hh : Plain h.toList)
    (hport : ∀ p ∈ port, Plain p.toList) :
  splitAuthority (decorate none h port).toList = (h.toList, port.map String.toList)
  := by
  cases port with
  | none =>
      have htext : (decorate none h none).toList = h.toList := by simp [decorate]
      rw [splitAuthority, htext, rsplitOnce_of_not_mem hh.1]
      rfl
  | some p =>
      have htext : (decorate none h (some p)).toList = h.toList ++ ':' :: p.toList := by
        simp [decorate]
      rw [splitAuthority, htext, rsplitOnce_append (hport p rfl).1]
      simp [hh.2.2]

/-- A rule that names no scheme and no port is matched against the host alone. -/
theorem patternMatches_decorate {rule : Text} {scheme : Option String} {h : String}
    {port : Option String} (hrule : ':' ∉ rule) (hscheme : ∀ s ∈ scheme, Plain s.toList)
    (hh : Plain h.toList) (hport : ∀ p ∈ port, Plain p.toList) :
  patternMatches rule (decorate scheme h port).toList = hostMatches rule h.toList
  := by
  have hruleScheme : splitScheme rule = (none, rule) := by
    have hsplit := splitFirst_append hrule []
    rw [List.append_nil] at hsplit
    rw [splitScheme, hsplit]
    rfl
  have hruleAuthority : splitAuthority rule = (rule, none) := by
    rw [splitAuthority, rsplitOnce_of_not_mem hrule]
  simp [patternMatches, hruleScheme, hruleAuthority, splitScheme_decorate hscheme hh hport,
    splitAuthority_decorate hh hport]

/-! ### Matching labels -/

theorem eqIgnoreAsciiCase_iff {a b : Text} :
  eqIgnoreAsciiCase a b = true ↔ a.map Char.toLower = b.map Char.toLower
  := by
  rw [eqIgnoreAsciiCase, beq_iff_eq]

/-- Only a character itself is that character in lower case, when it is not a letter. -/
theorem eq_of_toLower {c d : Char} (hd : d.isAlpha = false) (h : c.toLower = d.toLower) :
  c = d
  := by
  rw [Char.isAlpha, Bool.or_eq_false_iff] at hd
  have hlower : d.toLower = d := by
    apply Char.toLower_eq_of_not_isUpper
    rw [hd.1]
    simp
  rw [hlower] at h
  rw [← h]
  symm
  apply Char.toLower_eq_of_not_isUpper
  intro hupper
  have hlower : c.toLower.isLower = true := by
    rw [Char.isLower_toLower_eq_isAlpha, Char.isAlpha, hupper, Bool.true_or]
  rw [h, hd.2] at hlower
  cases hlower

/-- The labels of a text in lower case. -/
theorem splitOn_map_toLower (t : Text) :
  (t.map Char.toLower).splitOn '.' = (t.splitOn '.').map (List.map Char.toLower)
  := by
  have hdot : '.'.toLower = '.' := by decide
  rw [← splitOn_map (fun _ => eq_of_toLower (by decide)) t, hdot]

/-- The labels of `s` are the last ones of `h`, up to case, when `h` is `s` or ends with `.s`, up
to case. -/
theorem labels_suffix_iff (s h : Text) :
  (s.splitOn '.').map (List.map Char.toLower) <:+ (h.splitOn '.').map (List.map Char.toLower)
    ↔ eqIgnoreAsciiCase h s = true
      ∨ ∃ pre t, h = pre ++ t ∧ eqIgnoreAsciiCase t ('.' :: s) = true
  := by
  rw [← splitOn_map_toLower, ← splitOn_map_toLower, splitOn_suffix_iff, eqIgnoreAsciiCase_iff]
  apply or_congr
  · apply eq_comm
  · constructor
    · rintro ⟨l, hl⟩
      obtain ⟨pre, t, rfl, -, ht⟩ := List.map_eq_append_iff.mp hl.symm
      refine ⟨pre, t, rfl, ?_⟩
      rw [eqIgnoreAsciiCase_iff, ht, List.map_cons]
      rfl
    · rintro ⟨pre, t, rfl, ht⟩
      rw [eqIgnoreAsciiCase_iff, List.map_cons] at ht
      rw [List.map_append, ht]
      apply List.suffix_append

/-- A host matches a pattern exactly when the pattern covers it. -/
theorem hostMatches_iff (r h : Text) :
  hostMatches r h = true ↔ RuleCovers r h
  := by
  by_cases hstar : r = ['*']
  · subst hstar
    have hlabels : ['*'].splitOn '.' = [['*']] := rfl
    simp [hostMatches, RuleCovers, hlabels]
  have hlabels : ¬r.splitOn '.' = [['*']] := fun h => hstar (splitOn_injective '.' h)
  by_cases hhead : (r.splitOn '.').head? = some ['*']
  · -- a rule `*.s`: its labels after the first are those of `s`
    obtain ⟨ls, hls⟩ := List.head?_eq_some_iff.mp hhead
    rcases splitOn_eq_cons hls with ⟨-, hr⟩ | ⟨s, rfl, rfl⟩
    · exact absurd hr hstar
    · rw [List.singleton_append] at hls hlabels hhead ⊢
      have hmatches : hostMatches ('*' :: '.' :: s) h = true
          ↔ (s.splitOn '.').map (List.map Char.toLower)
            <:+ (h.splitOn '.').map (List.map Char.toLower) := by
        rw [suffix_map_iff_zip]
        simp only [hostMatches, if_neg hlabels, if_pos hhead, Bool.and_eq_true, decide_eq_true_eq,
          List.all_eq_true, eqIgnoreAsciiCase_iff]
        rw [hls, List.tail_cons]
      rw [hmatches, labels_suffix_iff]
      simp [RuleCovers, hhead]
  · -- any other rule: labels one by one
    have hmatches : hostMatches r h = true
        ↔ List.Forall₂ (fun a b => a = ['*'] ∨ eqIgnoreAsciiCase a b = true)
            (r.splitOn '.') (h.splitOn '.') := by
      rw [List.forall₂_iff_zip]
      simp [hostMatches, hlabels, hhead]
    have hdot : ∀ s, r ≠ '*' :: '.' :: s := by
      rintro s rfl
      apply hhead
      rfl
    rw [hmatches]
    simp [RuleCovers, hstar, hhead, hdot]

/-- Under a policy that denies by default and whose rules name no scheme and no port, a host is
allowed exactly when some rule covers it.  A scheme and a port in front of it and after it
change nothing. -/
theorem EgressPolicy.allows_decorate_iff (policy : EgressPolicy) (h : String)
    (scheme port : Option String) (hdeny : policy.defaultDeny = true)
    (hrules : ∀ rule ∈ policy.allow, ':' ∉ rule.toList) (hh : Plain h.toList)
    (hscheme : ∀ s ∈ scheme, Plain s.toList) (hport : ∀ p ∈ port, Plain p.toList) :
  policy.allows (decorate scheme h port) = policy.allows h
    ∧ (policy.allows (decorate scheme h port) = true
      ↔ ∃ rule ∈ policy.allow, RuleCovers rule.toList h.toList)
  := by
  have hiff : ∀ scheme port : Option String, (∀ s ∈ scheme, Plain s.toList) →
      (∀ p ∈ port, Plain p.toList) →
      (policy.allows (decorate scheme h port) = true
        ↔ ∃ rule ∈ policy.allow, RuleCovers rule.toList h.toList) := by
    intro scheme port hscheme hport
    rw [allows_of_defaultDeny hdeny]
    apply exists_congr
    intro rule
    apply and_congr_right
    intro hrule
    rw [patternMatches_decorate (hrules rule hrule) hscheme hh hport, hostMatches_iff]
  constructor
  · have hbare : decorate none h none = h := by simp [decorate]
    rw [Bool.eq_iff_iff, hiff scheme port hscheme hport, ← hbare, hiff none none]
    all_goals simp [hbare]
  · apply hiff scheme port hscheme hport

/-- Under the rule `*.example.com` the host `evilexample.com` is refused and the host
`a.Example.com` is allowed, with a scheme and a port. -/
theorem EgressPolicy.allows_decorate_wildcard :
  let policy : EgressPolicy := { allow := ["*.example.com"] }
  ¬policy.allows (decorate (some "https") "evilexample.com" (some "8443")) = true
    ∧ policy.allows (decorate (some "https") "a.Example.com" (some "8443")) = true
  := by
  intro policy
  constructor
  · rw [(allows_decorate_iff policy "evilexample.com" (some "https") (some "8443") rfl
      (by decide) (by decide) (by decide) (by decide)).1]
    decide
  · apply (allows_decorate_iff policy "a.Example.com" (some "https") (some "8443") rfl
      (by decide) (by decide) (by decide) (by decide)).2.mpr
    refine ⟨"*.example.com", List.mem_singleton_self _, ?_⟩
    right
    left
    refine ⟨"example.com".toList, by decide, ?_⟩
    right
    exact ⟨"a".toList, ".Example.com".toList, by decide, by decide⟩

end Ember
