import Ember.Http.Labels

/-!
# IPv6 literals in the allowlist

`splitAuthority` says of bracketed literals that they never match a wildcard rule and need an
apply entry.  It does not see to that.  The last colon of a literal without a port is one of its
own, so its last group is compared as a port is, which a rule without a port escapes and which
minds the case of letters.  A literal with a port is not split, and goes to `hostMatches`
with its brackets and its port, where wildcards stand for it as for any host.  We say which rules
these are (`patternMatches_literal_iff`).
-/

namespace Ember

/-! ### Splitting texts -/

/-- A text that does not contain the separator is not split. -/
theorem splitFirst_of_not_infix {pat t : Text} (h : ¬pat <:+: t) :
  splitFirst pat t = none
  := by
  induction t with
  | nil =>
      rw [splitFirst, if_neg]
      rintro rfl
      apply h
      apply List.infix_rfl
  | cons c t ih =>
      have hpre : ¬pat.isPrefixOf (c :: t) = true := by
        intro hpre
        apply h
        rw [List.isPrefixOf_iff_prefix] at hpre
        apply hpre.isInfix
      rw [splitFirst, if_neg hpre, ih, Option.map_none]
      intro hinfix
      apply h
      apply List.infix_cons hinfix

/-- A text without slashes has no scheme. -/
theorem not_infix_of_not_mem {t : Text} (h : '/' ∉ t) :
  ¬"://".toList <:+: t
  := by
  intro hinfix
  apply h
  apply hinfix.subset
  simp

/-- A text splits at its last colon, unless a bracket is closed before it. -/
theorem splitAuthority_append {host port : Text} (hport : ':' ∉ port) :
  splitAuthority (host ++ ':' :: port)
    = if ']' ∈ host then (host ++ ':' :: port, none) else (host, some port)
  := by
  rw [splitAuthority, rsplitOnce_append hport]
  simp

/-- A text with a colon has a last one. -/
theorem exists_last_colon {t : Text} (h : ':' ∈ t) :
  ∃ host port, t = host ++ ':' :: port ∧ ':' ∉ port
  := by
  obtain ⟨port, host, heq, hport⟩ := List.eq_append_cons_of_mem (List.mem_reverse.mpr h)
  use host.reverse, port.reverse
  rw [List.mem_reverse]
  refine ⟨?_, hport⟩
  rw [← List.reverse_reverse t, heq]
  simp

/-- A text has one last colon. -/
theorem last_colon_unique (host host' : Text) {port port' : Text} (hport : ':' ∉ port)
    (hport' : ':' ∉ port') :
  host ++ ':' :: port = host' ++ ':' :: port' ↔ host = host' ∧ port = port'
  := by
  constructor
  · intro heq
    have hsplit := rsplitOnce_append hport host
    rw [heq, rsplitOnce_append hport', Option.some.injEq, Prod.mk.injEq] at hsplit
    exact ⟨hsplit.1.symm, hsplit.2.symm⟩
  · rintro ⟨rfl, rfl⟩
    rfl

/-- The two ways a text can split. -/
theorem splitAuthority_cases (t : Text) :
  (∃ host port, t = host ++ ':' :: port ∧ ':' ∉ port ∧ ']' ∉ host
      ∧ splitAuthority t = (host, some port))
    ∨ splitAuthority t = (t, none)
      ∧ ∀ host port, t = host ++ ':' :: port → ':' ∉ port → ']' ∈ host
  := by
  rcases Classical.em (':' ∈ t) with hcolon | hcolon
  · obtain ⟨host, port, rfl, hport⟩ := exists_last_colon hcolon
    rw [splitAuthority_append hport]
    split
    next hbracket =>
      right
      use rfl
      intro host' port' heq hport'
      rw [← ((last_colon_unique _ _ hport hport').mp heq).1]
      apply hbracket
    next hbracket =>
      left
      use host, port
  · right
    constructor
    · rw [splitAuthority, rsplitOnce_of_not_mem hcolon]
    · rintro host port rfl _
      exact absurd (by simp) hcolon

/-- The host of a text is part of it. -/
theorem mem_of_mem_splitAuthority {c : Char} {t : Text} (h : c ∈ (splitAuthority t).1) :
  c ∈ t
  := by
  obtain ⟨host, port, rfl, -, -, heq⟩ | ⟨heq, -⟩ := splitAuthority_cases t
  · rw [heq] at h
    apply List.mem_append_left _ h
  · rw [heq] at h
    apply h

/-- Matching without schemes: the ports agree where both have one, and the host of the rule covers
the host of the authority. -/
theorem patternMatches_iff {r t : Text} (hr : ¬"://".toList <:+: r) (ht : ¬"://".toList <:+: t) :
  patternMatches r t = true
    ↔ (∀ p ∈ (splitAuthority r).2, ∀ q ∈ (splitAuthority t).2, p = q)
      ∧ RuleCovers (splitAuthority r).1 (splitAuthority t).1
  := by
  rw [← hostMatches_iff]
  simp only [patternMatches, splitScheme, splitFirst_of_not_infix hr, splitFirst_of_not_infix ht]
  cases (splitAuthority r).2 with
  | none => simp
  | some p =>
      cases (splitAuthority t).2 with
      | none => simp
      | some q =>
          by_cases hpq : p = q
          · simp [hpq]
          · simp [hpq]

/-! ### Texts that are equal up to case -/

theorem eqIgnoreAsciiCase_comm {a b : Text} :
  eqIgnoreAsciiCase a b = eqIgnoreAsciiCase b a
  := by
  rw [eqIgnoreAsciiCase, eqIgnoreAsciiCase, Bool.beq_comm]

/-- Texts that are equal up to case have the same characters that are not letters. -/
theorem mem_iff_of_eqIgnoreAsciiCase {a b : Text} (h : eqIgnoreAsciiCase a b = true) {d : Char}
    (hd : d.isAlpha = false) :
  d ∈ a ↔ d ∈ b
  := by
  rw [eqIgnoreAsciiCase_iff] at h
  have hmem : ∀ x : Text, d ∈ x ↔ d.toLower ∈ x.map Char.toLower := by
    intro x
    rw [List.mem_map]
    constructor
    · intro hx
      use d
    · rintro ⟨c, hc, heq⟩
      rw [← eq_of_toLower hd heq]
      apply hc
  rw [hmem a, hmem b, h]

/-- A text with a wildcard is not one without, up to case. -/
theorem differs_of_star {p h : Text} (hp : '*' ∈ p) (hh : '*' ∉ h) :
  ¬eqIgnoreAsciiCase p h = true
  := by
  intro heq
  apply hh
  rw [← mem_iff_of_eqIgnoreAsciiCase heq (by decide)]
  apply hp

/-- A text that is another one up to case is cut where the other one is. -/
theorem eqIgnoreAsciiCase_append {t x y : Text} {d : Char} (hd : d.isAlpha = false) :
  eqIgnoreAsciiCase t (x ++ d :: y) = true
    ↔ ∃ x' y', t = x' ++ d :: y' ∧ eqIgnoreAsciiCase x' x = true ∧ eqIgnoreAsciiCase y' y = true
  := by
  simp only [eqIgnoreAsciiCase_iff, List.map_append, List.map_cons]
  constructor
  · intro h
    obtain ⟨x', rest, rfl, hx, hrest⟩ := List.map_eq_append_iff.mp h
    obtain ⟨c, y', rfl, hc, hy⟩ := List.map_eq_cons_iff.mp hrest
    obtain rfl := eq_of_toLower hd hc
    exact ⟨x', y', rfl, hx, hy⟩
  · rintro ⟨x', y', rfl, hx, hy⟩
    rw [List.map_append, List.map_cons, hx, hy]

/-! ### Rules with wildcards and without -/

/-- A rule for the host `p` that has a wildcard covers `h`.  It is `*`, or `*.s` where `h` is `s` or
ends with `.s`, or it has the labels of `h` but for some, not the first one, that are `*`. -/
def WildcardCovers (p h : Text) : Prop :=
  p = ['*']
    ∨ (∃ s, p = '*' :: '.' :: s
        ∧ (eqIgnoreAsciiCase h s = true
          ∨ ∃ pre t, h = pre ++ t ∧ eqIgnoreAsciiCase t ('.' :: s) = true))
    ∨ ((p.splitOn '.').head? ≠ some ['*'] ∧ ['*'] ∈ p.splitOn '.'
        ∧ List.Forall₂ (fun a b => a = ['*'] ∨ eqIgnoreAsciiCase a b = true)
            (p.splitOn '.') (h.splitOn '.'))

theorem star_mem_of_label {p : Text} (hp : ['*'] ∈ p.splitOn '.') :
  '*' ∈ p
  := by
  apply subset_of_mem_splitOn hp
  apply List.mem_singleton_self

/-- The rules with a wildcard are those with a label `*`. -/
theorem wildcardCovers_iff {p h : Text} :
  WildcardCovers p h ↔ ['*'] ∈ p.splitOn '.' ∧ RuleCovers p h
  := by
  constructor
  · rintro (rfl | ⟨s, rfl, hs⟩ | ⟨hhead, hstar, hlabels⟩)
    · constructor
      · apply List.mem_of_head? rfl
      · left
        rfl
    · constructor
      · apply List.mem_of_head? rfl
      · right; left
        use s
    · use hstar
      right; right
      use hhead
  · rintro ⟨hstar, rfl | hsuffix | ⟨hhead, hlabels⟩⟩
    · left
      rfl
    · right; left
      apply hsuffix
    · right; right
      use hhead, hstar

/-- Texts with the same labels up to case are equal up to case. -/
theorem forall₂_labels_iff {p h : Text} :
  List.Forall₂ (fun a b => eqIgnoreAsciiCase a b = true) (p.splitOn '.') (h.splitOn '.')
    ↔ eqIgnoreAsciiCase p h = true
  := by
  have hlabels : p.map Char.toLower = h.map Char.toLower
      ↔ (p.splitOn '.').map (List.map Char.toLower)
        = (h.splitOn '.').map (List.map Char.toLower) := by
    rw [← splitOn_map_toLower, ← splitOn_map_toLower]
    constructor
    · intro heq
      rw [heq]
    · apply splitOn_injective
  rw [eqIgnoreAsciiCase_iff, hlabels, ← List.forall₂_eq_eq_eq, List.forall₂_map_left_iff,
    List.forall₂_map_right_iff]
  simp only [eqIgnoreAsciiCase_iff]

/-- A rule without wildcards covers the host that is equal to it up to case. -/
theorem ruleCovers_of_starless {p h : Text} (hp : ['*'] ∉ p.splitOn '.') :
  RuleCovers p h ↔ eqIgnoreAsciiCase p h = true
  := by
  rw [← forall₂_labels_iff]
  constructor
  · rintro (rfl | ⟨s, rfl, -⟩ | ⟨-, hlabels⟩)
    · exact absurd (List.mem_of_head? rfl) hp
    · exact absurd (List.mem_of_head? rfl) hp
    · rw [List.forall₂_iff_zip] at hlabels ⊢
      use hlabels.1
      intro a b hab
      obtain rfl | heq := hlabels.2 hab
      · exact absurd (List.of_mem_zip hab).1 hp
      · apply heq
  · intro hlabels
    right; right
    constructor
    · intro hhead
      apply hp (List.mem_of_head? hhead)
    · apply hlabels.imp
      intro a b heq
      right
      apply heq

/-- A rule covers a host of one label when it is `*`, or the host up to case, behind `*.` or not. -/
theorem ruleCovers_label {p h : Text} (hdot : '.' ∉ h) (hstar : '*' ∉ h) :
  RuleCovers p h
    ↔ p = ['*'] ∨ (∃ s, p = '*' :: '.' :: s ∧ eqIgnoreAsciiCase s h = true)
      ∨ eqIgnoreAsciiCase p h = true
  := by
  by_cases hp : ['*'] ∈ p.splitOn '.'
  · have hdiffer : ¬eqIgnoreAsciiCase p h = true := differs_of_star (star_mem_of_label hp) hstar
    constructor
    · rintro (rfl | ⟨s, rfl, heq | ⟨pre, t, rfl, ht⟩⟩ | ⟨hhead, hlabels⟩)
      · left
        rfl
      · right; left
        use s, rfl
        rw [eqIgnoreAsciiCase_comm]
        apply heq
      · -- what comes behind `*.` starts with a dot in the host
        exfalso
        apply hdot
        apply List.mem_append_right
        rw [mem_iff_of_eqIgnoreAsciiCase ht (by decide)]
        apply List.mem_cons_self
      · -- the one label of the rule is the first one
        rw [List.splitOn_eq_singleton hdot] at hlabels
        obtain ⟨l, _, -, hnil, heq⟩ := List.forall₂_cons_right_iff.mp hlabels
        obtain rfl := List.forall₂_nil_right_iff.mp hnil
        rw [heq, List.mem_singleton] at hp
        rw [heq, ← hp] at hhead
        exact absurd rfl hhead
    · rintro (rfl | ⟨s, rfl, heq⟩ | heq)
      · left
        rfl
      · right; left
        use s, rfl
        left
        rw [eqIgnoreAsciiCase_comm]
        apply heq
      · exact absurd heq hdiffer
  · rw [ruleCovers_of_starless hp]
    constructor
    · intro heq
      right; right
      apply heq
    · rintro (rfl | ⟨s, rfl, -⟩ | heq)
      · exact absurd (List.mem_of_head? rfl) hp
      · exact absurd (List.mem_of_head? rfl) hp
      · apply heq

/-! ### Literals -/

/-- An IPv6 literal, cut at its last colon.  It has another colon, and the dots of an embedded
IPv4 address come after the last one. -/
structure Ipv6Literal where
  init : Text
  last : Text
  colon : ':' ∈ init
  dot : '.' ∉ init
  cut : ':' ∉ last
  chars : ∀ c ∈ init ++ last, c ≠ ']' ∧ c ≠ '/' ∧ c ≠ '*'

/-- The rule `r` matches the authority `t` as an exact entry only: not at all when its host has a
`*`, and otherwise when the two are equal up to case. -/
def ExactEntry (r t : Text) : Prop :=
  ('*' ∈ (splitAuthority r).1 → patternMatches r t = false)
    ∧ ('*' ∉ (splitAuthority r).1 → (patternMatches r t = true ↔ eqIgnoreAsciiCase r t = true))

/-- Where the authority has no `*`, a rule matches it as an exact entry when it matches what is equal
to it up to case. -/
theorem exactEntry_iff {r t : Text} (ht : '*' ∉ t) :
  ExactEntry r t ↔ (patternMatches r t = true ↔ eqIgnoreAsciiCase r t = true)
  := by
  rw [ExactEntry]
  by_cases hstar : '*' ∈ (splitAuthority r).1
  · have hdiffer : ¬eqIgnoreAsciiCase r t = true := by
      apply differs_of_star _ ht
      apply mem_of_mem_splitAuthority hstar
    simp [hstar, hdiffer]
  · simp [hstar]

namespace Ipv6Literal

variable (a : Ipv6Literal)

/-- The literal up to its last colon, with the bracket before it. -/
def front : Text := '[' :: a.init

/-- The literal after its last colon, with the bracket after it. -/
def back : Text := a.last ++ [']']

/-- The literal in brackets, with a port or without one. -/
def authority : Option Text → Text
  | none => a.front ++ ':' :: a.back
  | some port => (a.front ++ ':' :: a.back) ++ ':' :: port

/-- The rules that are matched otherwise than as exact entries.  For a literal without a port, these
are `*`, the rules for the port `back` whose host is `*` or `*.s`, where `s` is `front` up to case,
and the literal itself with letters of `back` in another case.  For a literal with a port, they are
the rules with a wildcard whose host covers the authority as a whole. -/
def Misread : Option Text → Text → Prop
  | none, r => r = ['*'] ∨ r = '*' :: ':' :: a.back
      ∨ (∃ s, r = '*' :: '.' :: (s ++ ':' :: a.back) ∧ eqIgnoreAsciiCase s a.front = true)
      ∨ ∃ s e, r = s ++ ':' :: e ∧ eqIgnoreAsciiCase s a.front = true
          ∧ eqIgnoreAsciiCase e a.back = true ∧ e ≠ a.back
  | some port, r => WildcardCovers (splitAuthority r).1 (a.authority (some port))

variable {a}

/-- An authority has no wildcards and no slashes. -/
theorem mem_authority {port : Option Text} (hport : ∀ p ∈ port, ∀ c ∈ p, c.isDigit = true) {c : Char}
    (hc : c ∈ a.authority port) :
  c ≠ '*' ∧ c ≠ '/'
  := by
  have hliteral : ∀ c ∈ a.front ++ ':' :: a.back, c ≠ '*' ∧ c ≠ '/' := by
    intro c hc
    have hchars : c ∈ a.init ++ a.last ∨ c = '[' ∨ c = ':' ∨ c = ']' := by
      simp only [front, back, List.mem_append, List.mem_cons, List.not_mem_nil] at hc ⊢
      tauto
    obtain hmem | rfl | rfl | rfl := hchars
    · obtain ⟨-, hslash, hstar⟩ := a.chars c hmem
      exact ⟨hstar, hslash⟩
    all_goals decide
  cases port with
  | none => apply hliteral c hc
  | some p =>
      rw [authority, List.mem_append, List.mem_cons] at hc
      obtain hmem | rfl | hmem := hc
      · apply hliteral c hmem
      · decide
      · have hdigit := hport p rfl c hmem
        constructor
        · rintro rfl
          cases hdigit
        · rintro rfl
          cases hdigit

/-- The front of a literal is one label, closes no bracket and has no wildcard. -/
theorem mem_front {c : Char} (hc : c ∈ a.front) :
  c ≠ '.' ∧ c ≠ ']' ∧ c ≠ '*'
  := by
  rw [front, List.mem_cons] at hc
  obtain rfl | hinit := hc
  · decide
  · obtain ⟨hbracket, -, hstar⟩ := a.chars c (List.mem_append_left _ hinit)
    refine ⟨?_, hbracket, hstar⟩
    rintro rfl
    apply a.dot hinit

theorem dot_notMem_front :
  '.' ∉ a.front
  := fun h => (mem_front h).1 rfl

theorem bracket_notMem_front :
  ']' ∉ a.front
  := fun h => (mem_front h).2.1 rfl

theorem star_notMem_front :
  '*' ∉ a.front
  := fun h => (mem_front h).2.2 rfl

theorem colon_notMem_back :
  ':' ∉ a.back
  := by
  rw [back, List.mem_append, not_or]
  exact ⟨a.cut, by decide⟩

/-- What is the front up to case has a colon, and closes no bracket. -/
theorem colon_mem_of_front {p : Text} (hp : eqIgnoreAsciiCase p a.front = true) :
  ':' ∈ p ∧ ']' ∉ p
  := by
  rw [mem_iff_of_eqIgnoreAsciiCase hp (by decide), mem_iff_of_eqIgnoreAsciiCase hp (by decide)]
  exact ⟨List.mem_cons_of_mem _ a.colon, bracket_notMem_front⟩

/-- What is the back up to case has no colon. -/
theorem colon_notMem_of_back {p : Text} (hp : eqIgnoreAsciiCase p a.back = true) :
  ':' ∉ p
  := by
  rw [mem_iff_of_eqIgnoreAsciiCase hp (by decide)]
  apply colon_notMem_back

/-- A literal without a port splits at its last colon. -/
theorem splitAuthority_none :
  splitAuthority (a.authority none) = (a.front, some a.back)
  := by
  rw [authority, splitAuthority_append colon_notMem_back, if_neg bracket_notMem_front]

/-- A literal with a port does not split. -/
theorem splitAuthority_some {port : Text} (hport : ':' ∉ port) :
  splitAuthority (a.authority (some port)) = (a.authority (some port), none)
  := by
  rw [authority, splitAuthority_append hport, if_pos]
  simp [back]

/-- A text that is a literal with a port up to case does not split either. -/
theorem splitAuthority_of_eq {port r : Text} (hport : ':' ∉ port)
    (h : eqIgnoreAsciiCase r (a.authority (some port)) = true) :
  splitAuthority r = (r, none)
  := by
  obtain ⟨x, y, rfl, hx, hy⟩ := (eqIgnoreAsciiCase_append (by decide)).mp h
  have hcolon : ':' ∉ y := by
    rw [mem_iff_of_eqIgnoreAsciiCase hy (by decide)]
    apply hport
  have hbracket : ']' ∈ x := by
    rw [mem_iff_of_eqIgnoreAsciiCase hx (by decide)]
    simp [back]
  rw [splitAuthority_append hcolon, if_pos hbracket]

/-- The rules that a literal with a port does not match as exact entries. -/
theorem exactEntry_some {port r : Text} (hport : ':' ∉ port)
    (hstar : '*' ∉ a.authority (some port)) (hr : ¬"://".toList <:+: r)
    (ht : ¬"://".toList <:+: a.authority (some port)) :
  ExactEntry r (a.authority (some port)) ↔ ¬a.Misread (some port) r
  := by
  rw [exactEntry_iff hstar, patternMatches_iff hr ht, splitAuthority_some hport, Misread,
    wildcardCovers_iff]
  by_cases hp : ['*'] ∈ (splitAuthority r).1.splitOn '.'
  · have hdiffer : ¬eqIgnoreAsciiCase r (a.authority (some port)) = true := by
      apply differs_of_star _ hstar
      apply mem_of_mem_splitAuthority (star_mem_of_label hp)
    simp [hp, hdiffer]
  · -- without wildcards the host of the rule is the whole rule, brackets and port included
    have hwhole : eqIgnoreAsciiCase (splitAuthority r).1 (a.authority (some port)) = true
        ↔ eqIgnoreAsciiCase r (a.authority (some port)) = true := by
      constructor
      · intro heq
        obtain ⟨host, q, -, -, hbracket, hsplit⟩ | ⟨hsplit, -⟩ := splitAuthority_cases r
        · rw [hsplit] at heq
          exfalso
          apply hbracket
          rw [mem_iff_of_eqIgnoreAsciiCase heq (by decide)]
          simp [authority, back]
        · rw [hsplit] at heq
          apply heq
      · intro heq
        rw [splitAuthority_of_eq hport heq]
        apply heq
    rw [ruleCovers_of_starless hp, hwhole]
    simp [hp]

/-- The wildcards that stand for `front`. -/
theorem wildcard_differs {p : Text}
    (h : p = ['*'] ∨ ∃ s, p = '*' :: '.' :: s ∧ eqIgnoreAsciiCase s a.front = true) :
  ¬eqIgnoreAsciiCase p a.front = true
  := by
  apply differs_of_star _ star_notMem_front
  obtain rfl | ⟨s, rfl, -⟩ := h
  · apply List.mem_cons_self
  · apply List.mem_cons_self

/-- A rule is the literal without a port, up to case, when it is at both sides of its last colon. -/
theorem eq_authority_iff {host port : Text} (hport : ':' ∉ port) :
  eqIgnoreAsciiCase (host ++ ':' :: port) (a.authority none) = true
    ↔ eqIgnoreAsciiCase host a.front = true ∧ eqIgnoreAsciiCase port a.back = true
  := by
  rw [authority, eqIgnoreAsciiCase_append (by decide)]
  constructor
  · rintro ⟨x, y, heq, hx, hy⟩
    obtain ⟨rfl, rfl⟩ := (last_colon_unique _ _ hport (colon_notMem_of_back hy)).mp heq
    exact ⟨hx, hy⟩
  · rintro ⟨hhost, hback⟩
    use host, port

/-- The rules with a port that a literal without one does not match as exact entries. -/
theorem misread_append {host port : Text} (hport : ':' ∉ port) :
  a.Misread none (host ++ ':' :: port)
    ↔ (port = a.back
        ∧ (host = ['*'] ∨ ∃ s, host = '*' :: '.' :: s ∧ eqIgnoreAsciiCase s a.front = true))
      ∨ (eqIgnoreAsciiCase host a.front = true ∧ eqIgnoreAsciiCase port a.back = true
          ∧ port ≠ a.back)
  := by
  constructor
  · rintro (hany | hany | ⟨s, hsuffix, hs⟩ | ⟨s, e, heq, hs, he, hne⟩)
    · have hcolon : ':' ∈ host ++ ':' :: port := by simp
      rw [hany] at hcolon
      exact absurd hcolon (by decide)
    · left
      obtain ⟨rfl, rfl⟩ := (last_colon_unique _ ['*'] hport colon_notMem_back).mp hany
      use rfl
      left
      rfl
    · left
      obtain ⟨rfl, rfl⟩ :=
        (last_colon_unique _ ('*' :: '.' :: s) hport colon_notMem_back).mp hsuffix
      use rfl
      right
      use s
    · right
      obtain ⟨rfl, rfl⟩ := (last_colon_unique _ _ hport (colon_notMem_of_back he)).mp heq
      exact ⟨hs, he, hne⟩
  · rintro (⟨rfl, rfl | ⟨s, rfl, hs⟩⟩ | ⟨hhost, hback, hne⟩)
    · right; left
      rfl
    · right; right; left
      use s, rfl
    · right; right; right
      use host, port

section Unsplit

variable {r : Text} (hlast : ∀ host port, r = host ++ ':' :: port → ':' ∉ port → ']' ∈ host)
include hlast

/-- Of the rules that do not split, only `*` covers the front of a literal.  The others have its
colon, but no bracket before it. -/
theorem ruleCovers_front_iff :
  RuleCovers r a.front ↔ r = ['*']
  := by
  have hclosed : ':' ∈ r → ']' ∈ r := by
    intro hcolon
    obtain ⟨host, port, heq, hport⟩ := exists_last_colon hcolon
    rw [heq]
    apply List.mem_append_left _ (hlast host port heq hport)
  rw [ruleCovers_label dot_notMem_front star_notMem_front]
  constructor
  · rintro (hany | ⟨s, rfl, hs⟩ | heq)
    · apply hany
    · obtain ⟨hcolon, hbracket⟩ := colon_mem_of_front hs
      exfalso
      apply hbracket
      simpa [hcolon] using hclosed
    · obtain ⟨hcolon, hbracket⟩ := colon_mem_of_front heq
      exact absurd (hclosed hcolon) hbracket
  · intro hany
    left
    apply hany

/-- A rule that does not split is no literal without a port. -/
theorem differs_of_unsplit :
  ¬eqIgnoreAsciiCase r (a.authority none) = true
  := by
  intro heq
  obtain ⟨host, port, rfl, hhost, hport⟩ := (eqIgnoreAsciiCase_append (by decide)).mp heq
  apply (colon_mem_of_front hhost).2
  apply hlast host port rfl (colon_notMem_of_back hport)

/-- The one rule that does not split and that a literal without a port does not match as an exact
entry. -/
theorem misread_of_unsplit :
  a.Misread none r ↔ r = ['*']
  := by
  constructor
  · rintro (hany | hany | ⟨s, hsuffix, hs⟩ | ⟨s, e, heq, hs, he, -⟩)
    · apply hany
    · exact absurd (hlast ['*'] a.back hany colon_notMem_back) (by decide)
    · have hbracket := hlast ('*' :: '.' :: s) a.back hsuffix colon_notMem_back
      exact absurd (by simpa using hbracket) (colon_mem_of_front hs).2
    · exact absurd (hlast s e heq (colon_notMem_of_back he)) (colon_mem_of_front hs).2
  · intro hany
    left
    apply hany

end Unsplit

/-- The rules that a literal without a port does not match as exact entries. -/
theorem exactEntry_none {r : Text} (hstar : '*' ∉ a.authority none) (hr : ¬"://".toList <:+: r)
    (ht : ¬"://".toList <:+: a.authority none) :
  ExactEntry r (a.authority none) ↔ ¬a.Misread none r
  := by
  rw [exactEntry_iff hstar, patternMatches_iff hr ht, splitAuthority_none]
  obtain ⟨host, port, rfl, hport, -, hsplit⟩ | ⟨hsplit, hlast⟩ := splitAuthority_cases r
  · -- the port of the rule is compared with the last group and its bracket
    have hwildcard := wildcard_differs (a := a) (p := host)
    have hrefl : port = a.back → eqIgnoreAsciiCase port a.back = true := by
      rintro rfl
      rw [eqIgnoreAsciiCase_iff]
    rw [hsplit, ruleCovers_label dot_notMem_front star_notMem_front, eq_authority_iff hport,
      misread_append hport]
    simp only [Option.mem_def, Option.some.injEq, forall_eq']
    grind
  · rw [hsplit, ruleCovers_front_iff hlast, misread_of_unsplit hlast]
    simp [differs_of_unsplit hlast]

end Ipv6Literal

/-- Take any IPv6 literal in brackets, with a port or without one, and any rule without a scheme.
The rule matches the literal as an exact entry, up to the case of letters, and never when its host
has a wildcard, exactly when it is none of the rules of `Misread`. -/
theorem patternMatches_literal_iff (a : Ipv6Literal) {port : Option Text}
    (hport : ∀ p ∈ port, ∀ c ∈ p, c.isDigit = true) {r : Text} (hr : ¬"://".toList <:+: r) :
  ExactEntry r (a.authority port) ↔ ¬a.Misread port r
  := by
  have hstar : '*' ∉ a.authority port := by
    intro h
    apply (Ipv6Literal.mem_authority hport h).1 rfl
  have ht : ¬"://".toList <:+: a.authority port := by
    apply not_infix_of_not_mem
    intro h
    apply (Ipv6Literal.mem_authority hport h).2 rfl
  cases port with
  | none => apply Ipv6Literal.exactEntry_none hstar hr ht
  | some p =>
      apply Ipv6Literal.exactEntry_some _ hstar hr ht
      intro hcolon
      cases hport p rfl ':' hcolon

/-- The literal `::1`. -/
def loopback : Ipv6Literal where
  init := [':']
  last := ['1']
  colon := by decide
  dot := by decide
  cut := by decide
  chars := by simp

/-- The rule `[::1]:8080` matches the literal `[::1]:8080` as an exact entry. -/
theorem patternMatches_literal_exact :
  ExactEntry "[::1]:8080".toList (loopback.authority (some "8080".toList))
  := by
  have hport : ∀ p ∈ some "8080".toList, ∀ c ∈ p, c.isDigit = true := by simp
  apply (patternMatches_literal_iff loopback hport (not_infix_of_not_mem (by decide))).mpr
  intro h
  rw [Ipv6Literal.Misread, wildcardCovers_iff] at h
  apply absurd h.1
  decide

/-- The rule `*` matches the literal `[::1]:8080`. -/
theorem patternMatches_literal_wildcard :
  ¬ExactEntry "*".toList (loopback.authority (some "8080".toList))
  := by
  rintro ⟨hstar, -⟩
  revert hstar
  decide

end Ember
