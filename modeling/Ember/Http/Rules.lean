import Ember.Http.Literals

/-!
# What an allow rule says

The documentation of `pattern_matches` promises that a rule that names a scheme or a port admits no
other scheme or port.  Here we say how the text of a rule is to be read, apart from the functions
that split it, and what the rule admits when it is read so.  `send` compares a rule with the host of
a request alone.  A host that is no IPv6 literal is then let through by the rules whose host pattern
covers it (`patternMatches_iff_letsThrough`), whatever scheme and port they name.  From this we
determine for which policies and requests the promise is kept (`handOver_admitted_iff`).
-/

namespace Ember

/-! ### Reading a rule -/

/-- What an allow rule says: the scheme it names, its host pattern, the port it names. -/
structure EgressRule where
  scheme : Option Text
  host : Text
  port : Option Text
  deriving DecidableEq, Repr

/-- A text names the scheme in front of its first `://`. -/
inductive NamesScheme (t : Text) : Option Text → Text → Prop where
  | some {scheme rest : Text} (text : t = scheme ++ "://".toList ++ rest)
      (first : ∀ pre, pre ++ "://".toList <+: t → scheme.length ≤ pre.length) :
      NamesScheme t (some scheme) rest
  | none (absent : ¬"://".toList <:+: t) : NamesScheme t none t

/-- A text names the port after its last colon, unless this colon is one of its host's own. -/
inductive NamesPort (own : Text → Text → Prop) (t : Text) : Text → Option Text → Prop where
  | some {host port : Text} (text : t = host ++ ':' :: port) (last : ':' ∉ port)
      (foreign : ¬own host port) : NamesPort own t host (some port)
  | none (hown : ∀ front back, t = front ++ ':' :: back → ':' ∉ back → own front back) :
      NamesPort own t t none

/-- Split at the last colon, unless it is one of the host's own. -/
def splitPort (own : Text → Text → Prop) [DecidableRel own] (t : Text) : Text × Option Text :=
  match rsplitOnce ':' t with
  | some (host, port) => if own host port then (t, none) else (host, some port)
  | none => (t, none)

namespace EgressRule

/-- The text `t` reads `[scheme://]host[:port]`. -/
def ReadAs (own : Text → Text → Prop) (r : EgressRule) (t : Text) : Prop :=
  ∃ rest, NamesScheme t r.scheme rest ∧ NamesPort own rest r.host r.port

/-- What the text of a rule says.  A colon between brackets belongs to an IPv6 literal. -/
def Says (r : EgressRule) (t : Text) : Prop :=
  r.ReadAs (fun front back => '[' ∈ front ∧ ']' ∈ back) t

/-- What `pattern_matches` cuts a text into.  The last colon is left where it is when a bracket is
closed before it. -/
def CutFrom (r : EgressRule) (t : Text) : Prop :=
  r.ReadAs (fun front _ => ']' ∈ front) t

/-- Read a text as a rule. -/
def read (own : Text → Text → Prop) [DecidableRel own] (t : Text) : EgressRule :=
  let (scheme, rest) := splitScheme t
  let (host, port) := splitPort own rest
  { scheme, host, port }

end EgressRule

/-- A text splits at the first occurrence of a pattern. -/
theorem splitFirst_eq_some_iff {pat t scheme rest : Text} (hpat : pat ≠ []) :
  splitFirst pat t = some (scheme, rest)
    ↔ t = scheme ++ pat ++ rest ∧ ∀ pre, pre ++ pat <+: t → scheme.length ≤ pre.length
  := by
  induction t generalizing scheme with
  | nil => simp [splitFirst, hpat]
  | cons c t ih =>
      rw [splitFirst]
      split
      next hpre =>
        rw [List.isPrefixOf_iff_prefix] at hpre
        obtain ⟨tail, htail⟩ := hpre
        rw [← htail, List.drop_left, Option.some.injEq, Prod.mk.injEq]
        constructor
        · rintro ⟨rfl, rfl⟩
          simp
        · rintro ⟨heq, hfirst⟩
          have hlen := hfirst [] (by simp)
          obtain rfl : scheme = [] := List.length_eq_zero_iff.mp (Nat.le_zero.mp hlen)
          simpa using heq
      next hpre =>
        rw [List.isPrefixOf_iff_prefix] at hpre
        rw [Option.map_eq_some_iff]
        constructor
        · rintro ⟨⟨s, r⟩, hsplit, heq⟩
          obtain ⟨rfl, rfl⟩ := Prod.mk.inj heq
          obtain ⟨rfl, hfirst⟩ := ih.mp hsplit
          refine ⟨rfl, ?_⟩
          intro pre hoccurs
          cases pre with
          | nil => exact absurd hoccurs hpre
          | cons d pre =>
              rw [List.cons_append, List.cons_prefix_cons] at hoccurs
              simpa using hfirst pre hoccurs.2
        · rintro ⟨heq, hfirst⟩
          cases scheme with
          | nil =>
              exfalso
              apply hpre
              rw [heq]
              simp
          | cons d s =>
              rw [List.cons_append, List.cons_append, List.cons.injEq] at heq
              obtain ⟨rfl, rfl⟩ := heq
              refine ⟨(s, rest), ih.mpr ⟨rfl, ?_⟩, rfl⟩
              intro pre hoccurs
              simpa using hfirst (c :: pre) (by simpa [List.cons_prefix_cons] using hoccurs)

/-- A text that contains the pattern splits. -/
theorem splitFirst_eq_none_iff {pat t : Text} :
  splitFirst pat t = none ↔ ¬pat <:+: t
  := by
  constructor
  · intro hnone hoccurs
    obtain ⟨pre, post, rfl⟩ := hoccurs
    induction pre with
    | nil =>
        cases pat with
        | nil => cases post with
          | nil => simp [splitFirst] at hnone
          | cons c post => simp [splitFirst] at hnone
        | cons c pat => simp [splitFirst] at hnone
    | cons c pre ih =>
        rw [List.cons_append, List.cons_append, splitFirst] at hnone
        split at hnone
        · cases hnone
        · apply ih
          rw [Option.map_eq_none_iff] at hnone
          apply hnone
  · apply splitFirst_of_not_infix

/-- `split_scheme` takes off the scheme a text names. -/
theorem namesScheme_iff {t rest : Text} {scheme : Option Text} :
  NamesScheme t scheme rest ↔ splitScheme t = (scheme, rest)
  := by
  rw [splitScheme]
  constructor
  · rintro (⟨text, first⟩ | absent)
    · rw [(splitFirst_eq_some_iff (by decide)).mpr ⟨text, first⟩]
    · rw [splitFirst_eq_none_iff.mpr absent]
  · cases hsplit : splitFirst "://".toList t with
    | none =>
        rintro heq
        obtain ⟨rfl, rfl⟩ := Prod.mk.inj heq
        apply NamesScheme.none (splitFirst_eq_none_iff.mp hsplit)
    | some p =>
        rintro heq
        obtain ⟨s, r⟩ := p
        obtain ⟨rfl, rfl⟩ := Prod.mk.inj heq
        obtain ⟨text, first⟩ := (splitFirst_eq_some_iff (by decide)).mp hsplit
        apply NamesScheme.some text first

/-- A text names a port where it splits. -/
theorem namesPort_iff (own : Text → Text → Prop) [DecidableRel own] {t host : Text}
    {port : Option Text} :
  NamesPort own t host port ↔ splitPort own t = (host, port)
  := by
  rw [splitPort]
  by_cases hcolon : ':' ∈ t
  · obtain ⟨front, back, rfl, hback⟩ := exists_last_colon hcolon
    rw [rsplitOnce_append hback]
    dsimp only
    constructor
    · rintro (⟨text, last, foreign⟩ | hown)
      · obtain ⟨rfl, rfl⟩ := (last_colon_unique _ _ hback last).mp text
        rw [if_neg foreign]
      · rw [if_pos (hown front back rfl hback)]
    · intro heq
      split at heq
      next hown =>
        obtain ⟨rfl, rfl⟩ := Prod.mk.inj heq
        apply NamesPort.none
        intro front' back' text hback'
        obtain ⟨rfl, rfl⟩ := (last_colon_unique _ _ hback hback').mp text
        apply hown
      next hforeign =>
        obtain ⟨rfl, rfl⟩ := Prod.mk.inj heq
        apply NamesPort.some rfl hback hforeign
  · rw [rsplitOnce_of_not_mem hcolon]
    dsimp only
    constructor
    · rintro (⟨rfl, -, -⟩ | -)
      · exact absurd (by simp) hcolon
      · rfl
    · intro heq
      obtain ⟨rfl, rfl⟩ := Prod.mk.inj heq
      apply NamesPort.none
      rintro front back rfl
      exact absurd (by simp) hcolon

namespace EgressRule

/-- A text reads in one way. -/
theorem readAs_iff (own : Text → Text → Prop) [DecidableRel own] {r : EgressRule} {t : Text} :
  r.ReadAs own t ↔ r = read own t
  := by
  obtain ⟨scheme, host, port⟩ := r
  simp only [ReadAs, namesScheme_iff, namesPort_iff, read]
  constructor
  · rintro ⟨rest, hscheme, hport⟩
    rw [hscheme]
    dsimp only
    rw [hport]
  · intro heq
    obtain ⟨rfl, rfl, rfl⟩ := EgressRule.mk.inj heq
    exact ⟨_, rfl, rfl⟩

instance (own : Text → Text → Prop) [DecidableRel own] (r : EgressRule) (t : Text) :
    Decidable (r.ReadAs own t) :=
  decidable_of_iff _ (readAs_iff own).symm

end EgressRule

instance (r : EgressRule) (t : Text) : Decidable (r.Says t) :=
  inferInstanceAs (Decidable (r.ReadAs _ t))

/-! ### Which rules let a host through -/

/-- Hosts that are no IPv6 literals. -/
def Bare (h : Text) : Prop := Plain h ∧ '[' ∉ h

instance (h : Text) : Decidable (Bare h) := inferInstanceAs (Decidable (_ ∧ _))

/-- The rule lets requests to the host `h` through.  For a host that is no IPv6 literal, its host
pattern covers `h`, whatever scheme and port it names.  A literal is cut as the rule is, and then
schemes and ports agree where both have them, and the host pattern covers what is left. -/
def LetsThrough (rule h : Text) : Prop :=
  if Bare h then ∃ r : EgressRule, r.Says rule ∧ RuleCovers r.host h
  else
    ∃ r t : EgressRule, r.CutFrom rule ∧ t.CutFrom h
      ∧ (∀ rs ∈ r.scheme, ∀ ts ∈ t.scheme, eqIgnoreAsciiCase rs ts = true)
      ∧ (∀ rp ∈ r.port, ∀ tp ∈ t.port, rp = tp)
      ∧ RuleCovers r.host t.host

/-- A pattern with a character that is no letter, no wildcard and no dot covers only hosts with this
character. -/
theorem RuleCovers.mem {p h : Text} (hcovers : RuleCovers p h) {d : Char} (hd : d ∈ p)
    (halpha : d.isAlpha = false) (hstar : d ≠ '*') (hdot : d ≠ '.') :
  d ∈ h
  := by
  obtain rfl | ⟨s, rfl, heq | ⟨pre, t, rfl, ht⟩⟩ | ⟨-, hlabels⟩ := hcovers
  · exact absurd (List.mem_singleton.mp hd) hstar
  · have hs : d ∈ s := by simpa [hstar, hdot] using hd
    apply (mem_iff_of_eqIgnoreAsciiCase heq halpha).mpr hs
  · have hs : d ∈ '.' :: s := by simpa [hstar] using hd
    apply List.mem_append_right
    apply (mem_iff_of_eqIgnoreAsciiCase ht halpha).mpr hs
  · -- the label with the character is no wildcard, so the host has it up to case
    obtain ⟨a, ha, hda⟩ : ∃ a ∈ p.splitOn '.', d ∈ a := by
      apply exists_mem_splitOn hd hdot
    obtain ⟨i, rfl⟩ := List.get_of_mem ha
    obtain hwild | heq := hlabels.get i.isLt (hlabels.length_eq ▸ i.isLt)
    · rw [hwild] at hda
      exact absurd (List.mem_singleton.mp hda) hstar
    · apply subset_of_mem_splitOn (List.get_mem _ _)
      apply (mem_iff_of_eqIgnoreAsciiCase heq halpha).mp hda

/-- `pattern_matches` cuts a text as `CutFrom` says. -/
theorem splitAuthority_eq (t : Text) :
  splitAuthority t = splitPort (fun front _ => ']' ∈ front) t
  := by
  rw [splitAuthority, splitPort]
  rcases rsplitOnce ':' t with _ | ⟨front, back⟩
  · rfl
  · simp

/-- A rule is compared with a text when both are cut. -/
theorem patternMatches_iff_cut {rule t : Text} :
  patternMatches rule t = true
    ↔ ∃ r u : EgressRule, r.CutFrom rule ∧ u.CutFrom t
      ∧ (∀ rs ∈ r.scheme, ∀ ts ∈ u.scheme, eqIgnoreAsciiCase rs ts = true)
      ∧ (∀ rp ∈ r.port, ∀ tp ∈ u.port, rp = tp)
      ∧ RuleCovers r.host u.host
  := by
  simp only [EgressRule.CutFrom, EgressRule.readAs_iff, EgressRule.read, patternMatches,
    splitAuthority_eq, ← hostMatches_iff]
  rcases splitScheme rule with ⟨rs, rest⟩
  rcases splitScheme t with ⟨ts, rest'⟩
  dsimp only
  rcases splitPort _ rest with ⟨rh, rp⟩
  rcases splitPort _ rest' with ⟨th, tp⟩
  cases rs
  all_goals cases ts
  all_goals cases rp
  all_goals cases tp
  all_goals simp

/-- A bare host is cut into itself. -/
theorem cutFrom_of_bare {h : Text} (hbare : Bare h) {t : EgressRule} :
  t.CutFrom h ↔ t = { scheme := none, host := h, port := none }
  := by
  rw [EgressRule.CutFrom, EgressRule.readAs_iff, EgressRule.read, splitScheme,
    splitFirst_of_not_mem hbare.1.2.1]
  dsimp only
  rw [splitPort, rsplitOnce_of_not_mem hbare.1.1]

/-- For a bare host it makes no difference which colons belong to the host of a rule: where the
readings differ, the host pattern has a bracket in both. -/
theorem covers_cut_iff {rule h : Text} (hbare : Bare h) :
  (∃ r : EgressRule, r.CutFrom rule ∧ RuleCovers r.host h)
    ↔ ∃ r : EgressRule, r.Says rule ∧ RuleCovers r.host h
  := by
  simp only [EgressRule.CutFrom, EgressRule.Says, EgressRule.readAs_iff, exists_eq_left,
    EgressRule.read, splitPort]
  have hclosed : ∀ p : Text, ']' ∈ p → ¬RuleCovers p h := by
    intro p hp hcovers
    apply hbare.1.2.2
    apply hcovers.mem hp (by decide) (by decide) (by decide)
  have hopen : ∀ p : Text, '[' ∈ p → ¬RuleCovers p h := by
    intro p hp hcovers
    apply hbare.2
    apply hcovers.mem hp (by decide) (by decide) (by decide)
  by_cases hcolon : ':' ∈ (splitScheme rule).2
  · obtain ⟨front, back, hrest, hback⟩ := exists_last_colon hcolon
    rw [hrest, rsplitOnce_append hback]
    dsimp only
    by_cases hfront : ']' ∈ front
    · have hwhole := hclosed (front ++ ':' :: back) (List.mem_append_left _ hfront)
      rw [if_pos hfront]
      by_cases hliteral : '[' ∈ front ∧ ']' ∈ back
      · rw [if_pos hliteral]
      · rw [if_neg hliteral]
        apply iff_of_false hwhole (hclosed front hfront)
    · rw [if_neg hfront]
      by_cases hliteral : '[' ∈ front ∧ ']' ∈ back
      · have hwhole := hopen (front ++ ':' :: back) (List.mem_append_left _ hliteral.1)
        rw [if_pos hliteral]
        apply iff_of_false (hopen front hliteral.1) hwhole
      · rw [if_neg hliteral]
  · rw [rsplitOnce_of_not_mem hcolon]

/-- A rule matches a host alone exactly when it lets it through. -/
theorem patternMatches_iff_letsThrough {rule h : Text} :
  patternMatches rule h = true ↔ LetsThrough rule h
  := by
  rw [patternMatches_iff_cut, LetsThrough]
  split
  next hbare =>
    rw [← covers_cut_iff hbare]
    simp [cutFrom_of_bare hbare]
  next => rfl

/-! ### Which requests a rule admits -/

/-- The value of a decimal port number. -/
def parsePort (t : Text) : Option ℕ :=
  if t ≠ [] ∧ t.all Char.isDigit then
    some (t.foldl (fun n c => 10 * n + (c.toNat - '0'.toNat)) 0)
  else none

namespace EgressRule

/-- The rule admits requests for `u`: its host pattern covers the host, the scheme of `u` is the one
the rule names, if any, and the effective port is the one it names, if any. -/
structure Admits (r : EgressRule) (u : Uri) : Prop where
  host : ∃ h, u.host = some h ∧ RuleCovers r.host h.toList
  scheme : ∀ rs ∈ r.scheme, ∃ s ∈ u.scheme, eqIgnoreAsciiCase rs s.toList = true
  port : ∀ rp ∈ r.port, ∃ p ∈ u.effectivePort, parsePort rp = some p

/-- The rule names a scheme other than that of `u`, or a port other than the effective one. -/
def NamesOther (r : EgressRule) (u : Uri) : Prop :=
  (∃ rs ∈ r.scheme, ∀ s ∈ u.scheme, eqIgnoreAsciiCase rs s.toList = false)
    ∨ ∃ rp ∈ r.port, ∀ p ∈ u.effectivePort, parsePort rp ≠ some p

/-- A rule that covers the host of `u` admits `u` unless it names another scheme or port. -/
theorem admits_iff {r : EgressRule} {u : Uri} {h : String} (hhost : u.host = some h) :
  r.Admits u ↔ RuleCovers r.host h.toList ∧ ¬r.NamesOther u
  := by
  have hnot : ¬r.NamesOther u
      ↔ (∀ rs ∈ r.scheme, ∃ s ∈ u.scheme, eqIgnoreAsciiCase rs s.toList = true)
        ∧ ∀ rp ∈ r.port, ∃ p ∈ u.effectivePort, parsePort rp = some p := by
    simp [NamesOther]
  rw [hnot]
  constructor
  · rintro ⟨⟨h', hhost', hcovers⟩, hscheme, hport⟩
    obtain rfl := Option.some.inj (hhost.symm.trans hhost')
    exact ⟨hcovers, hscheme, hport⟩
  · rintro ⟨hcovers, hscheme, hport⟩
    exact ⟨⟨h, hhost, hcovers⟩, hscheme, hport⟩

end EgressRule

namespace HttpBridge

/-- For a policy that denies by default and a request to the host `h`: if the request is handed to
the client then some rule admits it.  This holds unless the body fits, some rule lets `h` through,
and every rule whose host pattern covers `h` names another scheme or another port than those of the
request. -/
theorem handOver_admitted_iff (bridge : HttpBridge) (req : OutboundRequest) {h : String}
    (hdeny : bridge.policy.defaultDeny = true) (hhost : req.uri.host = some h) :
  ((∃ r, bridge.handOver req = .ok r) →
      ∃ rule ∈ bridge.policy.allow, ∃ r : EgressRule, r.Says rule.toList ∧ r.Admits req.uri)
    ↔ ¬(bridge.BodyFits req
        ∧ (∃ rule ∈ bridge.policy.allow, LetsThrough rule.toList h.toList)
        ∧ ∀ rule ∈ bridge.policy.allow, ∀ r : EgressRule, r.Says rule.toList →
            RuleCovers r.host h.toList → r.NamesOther req.uri)
  := by
  rw [handOver_isOk hhost, EgressPolicy.allows_of_defaultDeny hdeny]
  simp only [patternMatches_iff_letsThrough, EgressRule.admits_iff hhost]
  constructor
  · rintro hadmits ⟨hbody, hmatches, hother⟩
    obtain ⟨rule, hrule, r, hsays, hcovers, hnames⟩ := hadmits ⟨hmatches, hbody⟩
    apply hnames
    apply hother rule hrule r hsays hcovers
  · rintro hexcluded ⟨hmatches, hbody⟩
    by_contra hnone
    apply hexcluded
    refine ⟨hbody, hmatches, ?_⟩
    intro rule hrule r hsays hcovers
    by_contra hnames
    apply hnone
    exact ⟨rule, hrule, r, hsays, hcovers, hnames⟩

/-- With the rules `https://api.example.com` and `api.example.com:80`, the request for
`http://api.example.com/` is admitted. -/
theorem handOver_admitted_port :
  ∃ rule ∈ ["https://api.example.com", "api.example.com:80"], ∃ r : EgressRule,
    r.Says rule.toList ∧ r.Admits sampleRequest.uri
  := by
  have hholds := handOver_admitted_iff
    (sampleBridge ["https://api.example.com", "api.example.com:80"]) sampleRequest
    (h := "api.example.com") rfl rfl
  apply hholds.mpr
  · rintro ⟨-, -, hother⟩
    -- the second rule covers the host and names the port of the request
    obtain ⟨rs, ⟨⟩, -⟩ | ⟨rp, ⟨⟩, hport⟩ := hother "api.example.com:80" (by decide)
      { scheme := none, host := "api.example.com".toList, port := some "80".toList }
      (by decide) ((hostMatches_iff _ _).mp (by decide))
    apply hport 80 rfl
    decide
  · exact ⟨_, rfl⟩

/-- With the single rule `https://api.example.com`, the request for
`http://api.example.com/` is handed to the client, and no rule admits it. -/
theorem handOver_scheme_ignored :
  let bridge := sampleBridge ["https://api.example.com"]
  bridge.policy.defaultDeny = true
    ∧ sampleRequest.uri.scheme = some "http"
    ∧ sampleRequest.uri.host = some "api.example.com"
    ∧ sampleRequest.uri.effectivePort = some 80
    ∧ (∃ r, bridge.handOver sampleRequest = .ok r)
    ∧ ¬∃ rule ∈ bridge.policy.allow, ∃ r : EgressRule,
        r.Says rule.toList ∧ r.Admits sampleRequest.uri
  := by
  refine ⟨rfl, rfl, rfl, rfl, ⟨_, rfl⟩, ?_⟩
  rintro ⟨rule, hrule, r, hsays, hadmits⟩
  obtain rfl := List.mem_singleton.mp hrule
  obtain rfl := (EgressRule.readAs_iff _).mp hsays
  obtain ⟨s, ⟨⟩, hscheme⟩ := hadmits.scheme "https".toList (by decide)
  revert hscheme
  decide

end HttpBridge

end Ember
