import Ember.Http.Labels

/-!
# Sizes

`parse_memory` reads a byte count with an optional unit, such as `512`, `64k` or `1GiB`.
`deserialize_memory` accepts an integer of a configuration document or such a text.  Here we
state the grammar of sizes with their values as natural numbers, and show that the two functions
accept exactly that.
-/

namespace Ember

/-- Values of a configuration document. -/
inductive Toml where
  | string (s : String)
  | integer (z : ℤ)
  | float (text : String)
  | boolean (b : Bool)
  | datetime (text : String)
  | array (items : List Toml)
  | table (entries : List (String × Toml))

/-! ### The reader -/

/-- `char::is_whitespace`: the characters with the Unicode property `White_Space`. -/
def isWhitespace (c : Char) : Bool :=
  let n := c.toNat
  (9 ≤ n && n ≤ 13) || n = 0x20 || n = 0x85 || n = 0xA0 || n = 0x1680
    || (0x2000 ≤ n && n ≤ 0x200A) || n = 0x2028 || n = 0x2029 || n = 0x202F || n = 0x205F
    || n = 0x3000

/-- `str::trim`. -/
def trim (t : Text) : Text := (t.dropWhile isWhitespace).rdropWhile isWhitespace

/-- `usize::from_str` on digits, where `acc` is the value of those read so far: none when the
next digit takes it out of range. -/
def parseUsize (acc : ℕ) : Text → Option ℕ
  | [] => some acc
  | c :: cs =>
      let next := 10 * acc + (c.toNat - '0'.toNat)
      if next < 2 ^ 64 then parseUsize next cs else none

/-- What a unit in lower case stands for. -/
def memoryUnit (unit : String) : Option ℕ :=
  if unit = "" then some 1
  else if unit ∈ ["k", "kb", "kib"] then some 1024
  else if unit ∈ ["m", "mb", "mib"] then some (1024 * 1024)
  else if unit ∈ ["g", "gb", "gib"] then some (1024 * 1024 * 1024)
  else none

/-- Parse a human-readable byte count. -/
def parseMemory (size : String) : Except Error ℕ :=
  let s := trim size.toList
  if s = [] then .error (.config "empty memory size")
  else
    let digits := s.takeWhile Char.isDigit
    let unit := s.dropWhile Char.isDigit
    if digits = [] then .error (.config s!"invalid memory size `{size}`")
    else
      match parseUsize 0 digits with
      | none => .error (.config s!"invalid memory size `{size}`")
      | some value =>
          let other := String.ofList (unit.map Char.toLower)
          match memoryUnit other with
          | none => .error (.config s!"unknown memory unit `{other}`")
          | some multiplier =>
              if value * multiplier < 2 ^ 64 then .ok (value * multiplier)
              else .error (.config s!"memory size `{size}` overflows")

/-- Deserialize a byte count: an unsigned integer of 64 bits, or a text. -/
def deserializeMemory : Toml → Except String ℕ
  | .integer z =>
      if 0 ≤ z ∧ z < 2 ^ 64 then .ok z.toNat
      else .error "data did not match any variant of untagged enum MemSize"
  | .string t => (parseMemory t).mapError Error.display
  | _ => .error "data did not match any variant of untagged enum MemSize"

/-! ### The grammar -/

/-- The units, in lower case, and what they stand for. -/
def memoryUnits : List (String × ℕ) :=
  [("", 1), ("k", 1024), ("kb", 1024), ("kib", 1024), ("m", 1024 ^ 2), ("mb", 1024 ^ 2),
    ("mib", 1024 ^ 2), ("g", 1024 ^ 3), ("gb", 1024 ^ 3), ("gib", 1024 ^ 3)]

/-- The text `s` is a size of `n` bytes: between blanks, some digits and a unit in any case, whose
product is `n` and fits in 64 bits. -/
def IsMemorySize (s : String) (n : ℕ) : Prop :=
  ∃ digits unit name multiplier,
    trim s.toList = digits ++ unit
      ∧ digits ≠ [] ∧ (∀ c ∈ digits, c.isDigit = true)
      ∧ (name, multiplier) ∈ memoryUnits ∧ eqIgnoreAsciiCase unit name.toList = true
      ∧ n = Nat.ofDigitChars 10 digits 0 * multiplier ∧ n < 2 ^ 64

/-- The units the reader knows are those of the grammar. -/
theorem memoryUnit_eq_some {unit : String} {multiplier : ℕ} :
  memoryUnit unit = some multiplier ↔ (unit, multiplier) ∈ memoryUnits
  := by
  simp only [memoryUnit, memoryUnits, List.mem_cons, Prod.mk.injEq, List.not_mem_nil, or_false]
  constructor
  · intro h
    split_ifs at h
    all_goals grind
  · intro h
    rcases h with h | h | h | h | h | h | h | h | h | h
    all_goals simp [h]

/-- A value only grows with further digits. -/
theorem le_ofDigitChars (cs : Text) (acc : ℕ) :
  acc ≤ Nat.ofDigitChars 10 cs acc
  := by
  rw [Nat.ofDigitChars_eq_ofDigitChars_zero]
  have hpos : 1 ≤ 10 ^ cs.length := Nat.one_le_pow _ _ (by decide)
  calc acc
      = 1 * acc := (Nat.one_mul acc).symm
    _ ≤ 10 ^ cs.length * acc := Nat.mul_le_mul_right acc hpos
    _ ≤ _ := Nat.le_add_right _ _

/-- The reader of digits gives their value exactly when it is in range. -/
theorem parseUsize_eq_some {cs : Text} {acc n : ℕ} (hacc : acc < 2 ^ 64) :
  parseUsize acc cs = some n ↔ Nat.ofDigitChars 10 cs acc = n ∧ n < 2 ^ 64
  := by
  induction cs generalizing acc with
  | nil =>
      rw [parseUsize, Nat.ofDigitChars_nil, Option.some.injEq]
      constructor
      · rintro rfl
        exact ⟨rfl, hacc⟩
      · intro h
        apply h.1
  | cons c cs ih =>
      rw [parseUsize, Nat.ofDigitChars_cons]
      split
      next hnext => rw [ih hnext]
      next hnext =>
        have hle := le_ofDigitChars cs (10 * acc + (c.toNat - '0'.toNat))
        simp only [reduceCtorEq, false_iff]
        omega

/-- Digits have no case. -/
theorem toLower_of_isDigit {c : Char} (h : c.isDigit = true) :
  c.toLower = c
  := by
  apply Char.toLower_eq_of_not_isUpper
  simp only [Char.isDigit, Char.isUpper, UInt32.le_iff_toNat_le, Bool.and_eq_true,
    decide_eq_true_eq, UInt32.reduceToNat, ge_iff_le, Char.reduceVal] at h ⊢
  omega

/-- The names of units are in lower case. -/
theorem map_toLower_unit {name : String} {multiplier : ℕ}
    (hname : (name, multiplier) ∈ memoryUnits) :
  name.toList.map Char.toLower = name.toList
  := by
  have hlower : ∀ p ∈ memoryUnits, p.1.toList.map Char.toLower = p.1.toList := by decide
  apply hlower _ hname

/-- No unit starts with a digit. -/
theorem not_isDigit_of_unit {name : String} {multiplier : ℕ} {unit : Text}
    (hname : (name, multiplier) ∈ memoryUnits)
    (hunit : eqIgnoreAsciiCase unit name.toList = true) :
  ∀ c ∈ unit, ¬c.isDigit = true
  := by
  have hletters : ∀ p ∈ memoryUnits, ∀ c ∈ p.1.toList, ¬c.isDigit = true := by
    simp [memoryUnits]
  intro c hc hdigit
  rw [eqIgnoreAsciiCase_iff, map_toLower_unit hname] at hunit
  apply hletters _ hname c _ hdigit
  rw [← hunit, ← toLower_of_isDigit hdigit]
  apply List.mem_map_of_mem hc

/-- The digits of a size are where its unit starts. -/
theorem span_isDigit {digits unit : Text} (hdigits : ∀ c ∈ digits, c.isDigit = true)
    (hunit : ∀ c ∈ unit, ¬c.isDigit = true) :
  (digits ++ unit).takeWhile Char.isDigit = digits
    ∧ (digits ++ unit).dropWhile Char.isDigit = unit
  := by
  rw [List.takeWhile_append_of_pos hdigits, List.dropWhile_append_of_pos hdigits]
  cases unit with
  | nil => simp
  | cons c cs =>
      have hc := hunit c List.mem_cons_self
      simp [hc]

/-- The reader accepts digits followed by a unit, when their product is in range. -/
theorem parseMemory_of_isMemorySize {s : String} {n : ℕ} (h : IsMemorySize s n) :
  parseMemory s = .ok n
  := by
  obtain ⟨digits, unit, name, multiplier, htrim, hne, hdigits, hname, hunit, rfl, hn⟩ := h
  obtain ⟨htake, hdrop⟩ := span_isDigit hdigits (not_isDigit_of_unit hname hunit)
  have hnonempty : ¬digits ++ unit = [] := by
    rw [List.append_eq_nil_iff]
    exact fun h => hne h.1
  have hlower : String.ofList (unit.map Char.toLower) = name := by
    rw [eqIgnoreAsciiCase_iff, map_toLower_unit hname] at hunit
    rw [hunit, String.ofList_toList]
  have hpos : 1 ≤ multiplier := by
    have hall : ∀ p ∈ memoryUnits, 1 ≤ p.2 := by decide
    apply hall _ hname
  have hvalue : parseUsize 0 digits = some (Nat.ofDigitChars 10 digits 0) := by
    rw [parseUsize_eq_some (by decide)]
    exact ⟨rfl, lt_of_le_of_lt (Nat.le_mul_of_pos_right _ hpos) hn⟩
  simp only [parseMemory, if_neg hnonempty, htrim, htake, hdrop, if_neg hne, hvalue, hlower,
    memoryUnit_eq_some.mpr hname, if_pos hn]

/-- What the reader accepts is digits followed by a unit. -/
theorem isMemorySize_of_parseMemory {s : String} {n : ℕ} (h : parseMemory s = .ok n) :
  IsMemorySize s n
  := by
  simp only [parseMemory] at h
  split at h
  · cases h
  split at h
  · cases h
  next hne =>
    split at h
    · cases h
    next value hvalue =>
      split at h
      · cases h
      next multiplier hunit =>
        split at h
        next hn =>
          obtain rfl := Except.ok.inj h
          rw [parseUsize_eq_some (by decide)] at hvalue
          refine ⟨_, _, _, multiplier, List.takeWhile_append_dropWhile.symm, hne, ?_,
            memoryUnit_eq_some.mp hunit, ?_, ?_, hn⟩
          · intro c hc
            apply List.mem_takeWhile_imp hc
          · rw [eqIgnoreAsciiCase_iff, map_toLower_unit (memoryUnit_eq_some.mp hunit),
              String.toList_ofList]
          · rw [hvalue.1]
        · cases h

/-! ### Integers and their decimal texts -/

/-- Digits are no blanks. -/
theorem not_isWhitespace_of_isDigit {c : Char} (h : c.isDigit = true) :
  ¬isWhitespace c = true
  := by
  have hrange : 48 ≤ c.toNat ∧ c.toNat ≤ 57 := by
    simpa [Char.isDigit, UInt32.le_iff_toNat_le] using h
  simp only [isWhitespace, Bool.or_eq_true, Bool.and_eq_true, decide_eq_true_eq]
  omega

/-- A text without blanks is not shortened. -/
theorem trim_eq_self {t : Text} (h : ∀ c ∈ t, ¬isWhitespace c = true) :
  trim t = t
  := by
  have hdrop : t.dropWhile isWhitespace = t := by
    rw [List.dropWhile_eq_self_iff]
    intro hlen
    apply h _ (List.getElem_mem hlen)
  rw [trim, hdrop, List.rdropWhile_eq_self_iff]
  intro hne
  apply h _ (List.getLast_mem hne)

/-- Decimal texts are made of digits. -/
theorem isDigit_of_mem_toDigits {n : ℕ} {c : Char} (hc : c ∈ Nat.toDigits 10 n) :
  c.isDigit = true
  := Nat.isDigit_of_mem_toDigits (by decide) (by decide) hc

/-- Decimal texts are not shortened. -/
theorem trim_toString (n : ℕ) :
  trim (toString n).toList = Nat.toDigits 10 n
  := by
  have htext : (toString n).toList = Nat.toDigits 10 n := Nat.toList_repr
  rw [htext]
  apply trim_eq_self
  intro c hc
  apply not_isWhitespace_of_isDigit (isDigit_of_mem_toDigits hc)

/-- The decimal text of a number in range is a size of as many bytes. -/
theorem isMemorySize_toString {n : ℕ} (hn : n < 2 ^ 64) :
  IsMemorySize (toString n) n
  := by
  refine ⟨Nat.toDigits 10 n, [], "", 1, ?_, Nat.toDigits_ne_nil, ?_, by decide, by decide, ?_, hn⟩
  · rw [trim_toString, List.append_nil]
  · intro c hc
    apply isDigit_of_mem_toDigits hc
  · rw [Nat.ofDigitChars_ten_toDigits, Nat.mul_one]

/-- A decimal text is a size of no other number of bytes. -/
theorem eq_of_isMemorySize_toString {m n : ℕ} (h : IsMemorySize (toString m) n) :
  m = n ∧ n < 2 ^ 64
  := by
  obtain ⟨digits, unit, name, multiplier, htrim, -, -, hname, hunit, hn, hrange⟩ := h
  rw [trim_toString] at htrim
  have hnil : unit = [] := by
    rw [List.eq_nil_iff_forall_not_mem]
    intro c hc
    apply not_isDigit_of_unit hname hunit c hc
    apply isDigit_of_mem_toDigits (n := m)
    rw [htrim]
    apply List.mem_append_right digits hc
  subst hnil
  have hempty : name = "" := by
    rw [eqIgnoreAsciiCase_iff, map_toLower_unit hname, List.map_nil] at hunit
    rw [← String.toList_inj, ← hunit]
    rfl
  have hone : multiplier = 1 := by
    have hunit := memoryUnit_eq_some.mpr hname
    rw [hempty] at hunit
    apply (Option.some.inj hunit).symm
  rw [List.append_nil] at htrim
  rw [← htrim, Nat.ofDigitChars_ten_toDigits, hone, Nat.mul_one] at hn
  exact ⟨hn.symm, hrange⟩

/-- A text that starts with a sign is no size. -/
theorem not_isMemorySize_neg (t : Text) (n : ℕ) :
  ¬IsMemorySize (String.ofList ('-' :: t)) n
  := by
  rintro ⟨digits, unit, -, -, htrim, hne, hdigits, -⟩
  obtain ⟨c, cs, rfl⟩ := List.exists_cons_of_ne_nil hne
  have hdrop : ('-' :: t).dropWhile isWhitespace = '-' :: t := by
    rw [List.dropWhile_cons_of_neg (by decide)]
  have hpre : c :: cs ++ unit <+: '-' :: t := by
    rw [← htrim, trim, String.toList_ofList, hdrop]
    apply List.rdropWhile_prefix
  rw [List.cons_append, List.cons_prefix_cons] at hpre
  have hdigit := hdigits c List.mem_cons_self
  rw [hpre.1] at hdigit
  exact absurd hdigit (by decide)

/-- The reader accepts exactly the sizes of the grammar. -/
theorem parseMemory_ok_iff {s : String} {n : ℕ} :
  parseMemory s = .ok n ↔ IsMemorySize s n
  := ⟨isMemorySize_of_parseMemory, parseMemory_of_isMemorySize⟩

/-- A text is deserialized to the size it is. -/
theorem deserializeMemory_string {s : String} {n : ℕ} :
  deserializeMemory (.string s) = .ok n ↔ IsMemorySize s n
  := by
  rw [deserializeMemory, ← parseMemory_ok_iff]
  cases parseMemory s
  all_goals simp [Except.mapError]

/-- An integer is deserialized to what its decimal text is deserialized to. -/
theorem deserializeMemory_integer (z : ℤ) (n : ℕ) :
  deserializeMemory (.integer z) = .ok n ↔ deserializeMemory (.string (toString z)) = .ok n
  := by
  rw [deserializeMemory_string]
  cases z with
  | ofNat m =>
      have hrange : (0 ≤ Int.ofNat m ∧ Int.ofNat m < 2 ^ 64) ↔ m < 2 ^ 64 := by
        simp only [Int.ofNat_eq_natCast]
        omega
      have htext : toString (Int.ofNat m) = toString m := rfl
      rw [deserializeMemory, htext]
      simp only [hrange]
      constructor
      · intro h
        split at h
        next hm =>
          obtain rfl := Except.ok.inj h
          apply isMemorySize_toString hm
        · cases h
      · intro h
        obtain ⟨rfl, hm⟩ := eq_of_isMemorySize_toString h
        rw [if_pos hm]
        rfl
  | negSucc m =>
      have htext : toString (Int.negSucc m) = String.ofList ('-' :: (toString (m + 1)).toList) := by
        rw [← String.toList_inj]
        simp [toString, Int.repr]
      have hrange : ¬(0 ≤ Int.negSucc m ∧ Int.negSucc m < 2 ^ 64) := by omega
      rw [deserializeMemory, if_neg hrange, htext]
      simp only [reduceCtorEq, false_iff]
      apply not_isMemorySize_neg

/-- `parseMemory` accepts exactly its grammar, with the values computed over the natural numbers,
and returns an error in every other case.  `deserializeMemory` treats an integer as it treats its
decimal text. -/
theorem parseMemory_grammar :
  (∀ s n, parseMemory s = .ok n ↔ IsMemorySize s n)
    ∧ (∀ s, (∀ n, ¬IsMemorySize s n) → ∃ e, parseMemory s = .error e)
    ∧ ∀ (z : ℤ) n,
        deserializeMemory (.integer z) = .ok n ↔ deserializeMemory (.string (toString z)) = .ok n
  := by
  refine ⟨fun _ _ => parseMemory_ok_iff, ?_, deserializeMemory_integer⟩
  intro s hnone
  cases h : parseMemory s with
  | error e => exact ⟨e, rfl⟩
  | ok n => exact absurd (parseMemory_ok_iff.mp h) (hnone n)

example : parseMemory "\t007 " = .ok 7 := by rfl

end Ember
