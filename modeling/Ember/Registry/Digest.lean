import Ember.Registry.Oci

/-!
# Spellings of a digest

`parse_digest` says which texts are digests, and `verify_digest` compares texts.  A digest has
several spellings, since hexadecimal digits may be in upper case.  Here we read the bytes that a
spelling stands for, and determine for which spellings the comparison of texts is the comparison
of bytes.
-/

namespace Ember

variable {κ : Type} (C : Crates κ)

/-- The value of a hexadecimal digit. -/
def hexValue (c : Char) : ℕ :=
  if c.toNat < 65 then c.toNat - 48 else if c.toNat < 97 then c.toNat - 55 else c.toNat - 87

/-- `hex::decode`, on an even number of hexadecimal digits. -/
def hexDecode : List Char → Bytes
  | a :: b :: rest => UInt8.ofNat (16 * hexValue a + hexValue b) :: hexDecode rest
  | _ => []

/-- Whether a text has no upper-case letter. -/
def isLowerHex (t : List Char) : Bool := t.all fun c => !c.isUpper

/-- What holds of the digits below 128 holds of every hexadecimal digit. -/
theorem forall_isAsciiHexdigit {P : Char → Prop}
    (h : ∀ n < 128, isAsciiHexdigit (Char.ofNat n) = true → P (Char.ofNat n)) {c : Char}
    (hc : isAsciiHexdigit c = true) :
  P c
  := by
  have hlt : c.toNat < 128 := by
    simp only [isAsciiHexdigit, Bool.or_eq_true, Bool.and_eq_true, decide_eq_true_eq,
      Char.le_def, UInt32.le_iff_toNat_le] at hc
    rcases hc with (⟨-, hc⟩ | ⟨-, hc⟩) | ⟨-, hc⟩
    all_goals exact lt_of_le_of_lt hc (by decide)
  rw [← Char.ofNat_toNat c] at hc ⊢
  apply h c.toNat hlt hc

/-- The value of a hexadecimal digit is below 16. -/
theorem hexValue_lt {c : Char} (hc : isAsciiHexdigit c = true) :
  hexValue c < 16
  := forall_isAsciiHexdigit (P := fun c => hexValue c < 16) (by decide) hc

/-- A hexadecimal digit that is not in upper case is the digit of its value. -/
theorem hexDigit_hexValue {c : Char} (hc : isAsciiHexdigit c = true)
    (hlower : (!c.isUpper) = true) :
  hexDigit (hexValue c) = c
  := by
  revert hlower
  apply forall_isAsciiHexdigit (P := fun c => (!c.isUpper) = true → hexDigit (hexValue c) = c)
  · decide
  · apply hc

/-- The digits `hex::encode` gives are not in upper case. -/
theorem isLowerHex_hexChars (b : Bytes) :
  isLowerHex (hexChars b) = true
  := by
  have hdigit : ∀ n < 16, (!(hexDigit n).isUpper) = true := by decide
  rw [isLowerHex, List.all_eq_true]
  intro c hc
  obtain ⟨x, -, hx⟩ := List.mem_flatMap.mp hc
  have hlt := x.toNat_lt
  rw [List.mem_cons, List.mem_singleton] at hx
  rcases hx with rfl | rfl
  · apply hdigit
    omega
  · apply hdigit
    omega

/-- Digits that are not in upper case are the encoding of the bytes they stand for. -/
theorem hexChars_hexDecode :
  ∀ t : List Char, t.length % 2 = 0 → t.all isAsciiHexdigit = true → isLowerHex t = true →
    hexChars (hexDecode t) = t
  | [], _, _, _ => rfl
  | [a], hlen, _, _ => by simp at hlen
  | a :: b :: rest, hlen, hhex, hlower => by
      rw [List.all_cons, List.all_cons, Bool.and_eq_true, Bool.and_eq_true] at hhex
      rw [isLowerHex, List.all_cons, List.all_cons, Bool.and_eq_true, Bool.and_eq_true] at hlower
      have ha := hexValue_lt hhex.1
      have hb := hexValue_lt hhex.2.1
      have hbyte : (UInt8.ofNat (16 * hexValue a + hexValue b)).toNat
          = 16 * hexValue a + hexValue b := UInt8.toNat_ofNat_of_lt' (by
        change _ < 256
        omega)
      have hrest : hexChars (hexDecode rest) = rest := by
        apply hexChars_hexDecode rest _ hhex.2.2 hlower.2.2
        rw [List.length_cons, List.length_cons] at hlen
        omega
      have hhigh : (16 * hexValue a + hexValue b) / 16 = hexValue a := by omega
      have hlow : (16 * hexValue a + hexValue b) % 16 = hexValue b := by omega
      rw [hexDecode, hexChars, List.flatMap_cons, hbyte, hhigh, hlow,
        hexDigit_hexValue hhex.1 hlower.1, hexDigit_hexValue hhex.2.1 hlower.2.1, ← hexChars,
        hrest]
      rfl

/-- The hexadecimal digits of a digest text. -/
def digestHex (s : String) : List Char := s.toList.drop "sha256:".toList.length

/-- The texts that `parse_digest` accepts are those that name a blob of the store. -/
theorem parseDigest_ok {s : String} :
  parseDigest s = .ok () ↔ ∃ hex, sanitizeDigest s = .ok hex
  := by
  rw [parseDigest, sanitizeDigest]
  cases stripPrefix "sha256:" s with
  | none => simp
  | some hex =>
      by_cases hform : hex.utf8ByteSize ≠ 64 ∨ (!hex.toList.all isAsciiHexdigit) = true
      · simp only [if_pos hform]
        simp
      · simp only [if_neg hform]
        simp

/-- A digest text that is accepted is `sha256:` and 64 hexadecimal digits. -/
theorem eq_of_parseDigest {s : String} (h : parseDigest s = .ok ()) :
  s = "sha256:" ++ String.ofList (digestHex s) ∧ (digestHex s).length = 64
    ∧ (digestHex s).all isAsciiHexdigit = true
  := by
  obtain ⟨hex, hhex⟩ := parseDigest_ok.mp h
  obtain ⟨rfl, hlen, hall⟩ := sanitizeDigest_ok.mp hhex
  have hdigits : digestHex ("sha256:" ++ hex) = hex.toList := by
    rw [digestHex, String.toList_append, List.drop_left]
  rw [hdigits, String.ofList_toList]
  exact ⟨rfl, hlen, hall⟩

/-- Bytes match an accepted digest exactly when its digits are the encoding of their SHA-256. -/
theorem verifyDigest_ok_iff_hexChars {s : String} (hs : parseDigest s = .ok ()) (b : Bytes) :
  verifyDigest C b s = .ok () ↔ hexChars (C.sha256 b).val = digestHex s
  := by
  obtain ⟨hform, -, -⟩ := eq_of_parseDigest hs
  rw [verifyDigest_ok]
  constructor
  · intro h
    rw [← h, digestHex, digestOf, Crates.sha256Digest, String.toList_append, List.drop_left,
      Crates.sha256Hex, hexEncode, String.toList_ofList]
  · intro h
    rw [hform, ← h]
    rfl

/-- For a digest that `parse_digest` accepts: bytes match it exactly when its digits stand for
their SHA-256, unless the digits stand for their SHA-256 and one of them is in upper case. -/
theorem verifyDigest_decodes_iff {s : String} (hs : parseDigest s = .ok ()) (b : Bytes) :
  (verifyDigest C b s = .ok () ↔ hexDecode (digestHex s) = (C.sha256 b).val)
    ↔ isLowerHex (digestHex s) = true ∨ hexDecode (digestHex s) ≠ (C.sha256 b).val
  := by
  obtain ⟨-, hlen, hall⟩ := eq_of_parseDigest hs
  rw [verifyDigest_ok_iff_hexChars C hs]
  by_cases hlower : isLowerHex (digestHex s) = true
  · have hdecode := hexChars_hexDecode (digestHex s) (by rw [hlen]) hall hlower
    simp only [hlower, true_or, iff_true]
    constructor
    · intro h
      apply hexChars_injective
      rw [hdecode, h]
    · intro h
      rw [← h, hdecode]
  · have hdiffer : ¬hexChars (C.sha256 b).val = digestHex s := by
      intro h
      apply hlower
      rw [← h]
      apply isLowerHex_hexChars
    simp only [hdiffer, hlower, false_iff, Bool.false_eq_true, false_or, ne_eq]

/-- The digest of the text `a`. -/
def lowerDigest : String :=
  "sha256:ca978112ca1bbdcafac231b39a23dc4da786eff8147c4e72b9807785afee48bb"

/-- The digest of the text `a`, with some digits in upper case. -/
def upperDigest : String :=
  "sha256:CA978112CA1BBDCAFAC231B39A23DC4DA786EFF8147C4E72B9807785AFEE48BB"

/-- The text `a` matches its digest in lower case. -/
theorem verifyDigest_decodes_lower :
  verifyDigest sampleCrates [97] lowerDigest = .ok ()
    ↔ hexDecode (digestHex lowerDigest) = (sampleCrates.sha256 [97]).val
  := (verifyDigest_decodes_iff sampleCrates (by decide +kernel) [97]).mpr
    (.inl (by decide +kernel))

/-- The text `a` does not match its digest in upper case, which is accepted as a digest and
stands for the same bytes. -/
theorem verifyDigest_upper_differs :
  parseDigest upperDigest = .ok ()
    ∧ hexDecode (digestHex upperDigest) = (sampleCrates.sha256 [97]).val
    ∧ ¬verifyDigest sampleCrates [97] upperDigest = .ok ()
  := by
  decide +kernel

end Ember
