import Ember.Error

/-!
# The crates the runtime rests on

`Crates κ` collects the functions of third-party crates the model takes as given: SHA-256,
the structural validation of a component binary, its export names, its compilation to a
value of `κ`, and the parsing of an OCI reference.  The model assumes nothing of them beyond
that they are functions of their arguments.

Hexadecimal encoding and the digest text `sha256:<hex>` built from it are defined here,
since three modules of the runtime compute that text.
-/

namespace Ember

/-- Outputs of SHA-256: 32 bytes. -/
def Sha256Output := { b : Bytes // b.length = 32 }
  deriving DecidableEq

/-- A parsed OCI reference. -/
structure OciReference where
  registry : String
  repository : String
  tag : Option String
  digest : Option String
  deriving DecidableEq, Repr

/-- The text of an OCI reference. -/
def OciReference.whole (r : OciReference) : String :=
  (if r.registry = "" then r.repository else s!"{r.registry}/{r.repository}")
    ++ (match r.tag with | some t => s!":{t}" | none => "")
    ++ (match r.digest with | some d => s!"@{d}" | none => "")

/-- The functions of third-party crates, with compiled components `κ`. -/
structure Crates (κ : Type) where
  /-- `Sha256::digest`. -/
  sha256 : Bytes → Sha256Output
  /-- `Validator::validate_all`. -/
  validateAll : Bytes → Except String Unit
  /-- `wasm_tools::Component::new`, and the export names of the component it gives. -/
  exports : Bytes → Except String (List String)
  /-- `wasmtime::component::Component::from_binary` on the shared engine. -/
  fromBinary : Bytes → Except String κ
  /-- `OciReference::try_from`. -/
  reference : String → Except String OciReference

/-- The lower-case hexadecimal digit of a value below 16. -/
def hexDigit (n : ℕ) : Char :=
  if n < 10 then Char.ofNat (48 + n) else Char.ofNat (87 + n)

/-- `hex::encode`, as a list of characters. -/
def hexChars (b : Bytes) : List Char :=
  b.flatMap fun x => [hexDigit (x.toNat / 16), hexDigit (x.toNat % 16)]

/-- `hex::encode`. -/
def hexEncode (b : Bytes) : String := String.ofList (hexChars b)

/-- `u8::is_ascii_hexdigit`, on the characters of a string. -/
def isAsciiHexdigit (c : Char) : Bool :=
  ('0' ≤ c && c ≤ '9') || ('a' ≤ c && c ≤ 'f') || ('A' ≤ c && c ≤ 'F')

variable {κ : Type} (C : Crates κ)

/-- The hexadecimal text of the SHA-256 of a byte string. -/
def Crates.sha256Hex (b : Bytes) : String := hexEncode (C.sha256 b).val

/-- The text `sha256:<hex>` of a byte string. -/
def Crates.sha256Digest (b : Bytes) : String := "sha256:" ++ C.sha256Hex b

theorem isAsciiHexdigit_hexDigit {n : ℕ} (h : n < 16) :
  isAsciiHexdigit (hexDigit n) = true
  := by
  interval_cases n
  all_goals decide

/-- Two values below 16 have the same hexadecimal digit only when they are equal. -/
theorem hexDigit_injective {m n : ℕ} (hm : m < 16) (hn : n < 16)
    (h : hexDigit m = hexDigit n) :
  m = n
  := by
  have key : ∀ a < 16, ∀ b < 16, hexDigit a = hexDigit b → a = b := by decide
  apply key m hm n hn h

theorem length_hexChars (b : Bytes) :
  (hexChars b).length = 2 * b.length
  := by
  induction b with
  | nil => rfl
  | cons x b ih =>
      rw [hexChars, List.flatMap_cons, List.length_append, ← hexChars, ih]
      simp
      omega

theorem hexChars_all (b : Bytes) :
  (hexChars b).all isAsciiHexdigit = true
  := by
  induction b with
  | nil => rfl
  | cons x b ih =>
      have hx := x.toNat_lt
      rw [hexChars, List.flatMap_cons, List.all_append, ← hexChars, ih]
      simp only [List.all_cons, List.all_nil, Bool.and_true, Bool.and_eq_true]
      constructor
      · apply isAsciiHexdigit_hexDigit
        omega
      · apply isAsciiHexdigit_hexDigit
        omega

/-- The hexadecimal text determines the bytes. -/
theorem hexChars_injective :
  ∀ {a b : Bytes}, hexChars a = hexChars b → a = b
  | [], [], _ => rfl
  | [], _ :: _, h => by simp [hexChars] at h
  | _ :: _, [], h => by simp [hexChars] at h
  | x :: a, y :: b, h => by
      simp only [hexChars, List.flatMap_cons, List.cons_append, List.nil_append,
        List.cons.injEq] at h
      obtain ⟨h₁, h₂, h₃⟩ := h
      have hx := x.toNat_lt
      have hy := y.toNat_lt
      have hdiv := hexDigit_injective (by omega) (by omega) h₁
      have hmod := hexDigit_injective (by omega) (by omega) h₂
      have hxy : x = y := by
        apply UInt8.toNat_inj.mp
        omega
      rw [hxy, hexChars_injective h₃]

/-- The SHA-256 text is 64 characters long. -/
theorem Crates.length_sha256Hex (b : Bytes) :
  (C.sha256Hex b).toList.length = 64
  := by
  rw [sha256Hex, hexEncode, String.toList_ofList, length_hexChars, (C.sha256 b).property]

/-- The SHA-256 text consists of hexadecimal digits. -/
theorem Crates.sha256Hex_all (b : Bytes) :
  (C.sha256Hex b).toList.all isAsciiHexdigit = true
  := by
  rw [sha256Hex, hexEncode, String.toList_ofList]
  apply hexChars_all

/-- Byte strings with the same SHA-256 text have the same SHA-256. -/
theorem Crates.sha256_eq_of_sha256Hex {a b : Bytes} (h : C.sha256Hex a = C.sha256Hex b) :
  C.sha256 a = C.sha256 b
  := by
  apply Subtype.ext
  apply hexChars_injective
  apply String.ofList_injective h

/-! ### A sample

The five byte strings the concrete runs of the development use, with their SHA-256: the
empty one, the texts `a` and `b`, the component without sections, and a component that
exports an instance under the name `handler`. -/

/-- The magic and version bytes of a component, without sections. -/
def emptyComponent : Bytes := [0, 97, 115, 109, 13, 0, 1, 0]

/-- A component exporting an instance of `emptyComponent` as `handler`. -/
def handlerComponent : Bytes :=
  emptyComponent ++ [4, 8] ++ emptyComponent ++ [5, 4, 1, 0, 0, 0]
    ++ [11, 13, 1, 0, 7, 104, 97, 110, 100, 108, 101, 114, 5, 0, 0]

/-- SHA-256 on the sample byte strings, and 32 zeros elsewhere. -/
def sampleSha256 (b : Bytes) : Sha256Output :=
  if b = [] then
    ⟨[227, 176, 196, 66, 152, 252, 28, 20, 154, 251, 244, 200, 153, 111, 185, 36,
      39, 174, 65, 228, 100, 155, 147, 76, 164, 149, 153, 27, 120, 82, 184, 85], rfl⟩
  else if b = [97] then
    ⟨[202, 151, 129, 18, 202, 27, 189, 202, 250, 194, 49, 179, 154, 35, 220, 77,
      167, 134, 239, 248, 20, 124, 78, 114, 185, 128, 119, 133, 175, 238, 72, 187], rfl⟩
  else if b = [98] then
    ⟨[62, 35, 232, 22, 0, 57, 89, 74, 51, 137, 79, 101, 100, 225, 177, 52,
      139, 189, 122, 0, 136, 212, 44, 74, 203, 115, 238, 174, 213, 156, 0, 157], rfl⟩
  else if b = emptyComponent then
    ⟨[36, 234, 243, 67, 154, 96, 201, 103, 100, 196, 242, 201, 42, 10, 129, 181,
      43, 212, 254, 93, 91, 145, 240, 144, 24, 74, 15, 100, 134, 177, 191, 41], rfl⟩
  else if b = handlerComponent then
    ⟨[195, 255, 32, 239, 129, 27, 150, 181, 162, 96, 79, 110, 92, 206, 130, 31,
      183, 243, 95, 161, 175, 51, 36, 47, 212, 171, 138, 154, 5, 183, 29, 4], rfl⟩
  else ⟨List.replicate 32 0, rfl⟩

/-- The crates on the sample: the two components validate, and compile to themselves. -/
def sampleCrates : Crates Bytes where
  sha256 := sampleSha256
  validateAll b :=
    if b = emptyComponent ∨ b = handlerComponent then .ok ()
    else .error "unexpected end-of-file"
  exports b :=
    if b = handlerComponent then .ok ["handler"]
    else if b = emptyComponent then .ok []
    else .error "unexpected end-of-file"
  fromBinary b := .ok b
  reference s :=
    if s = "ghcr.io/acme/echo:latest" then
      .ok { registry := "ghcr.io", repository := "acme/echo", tag := some "latest", digest := none }
    else if s = "ghcr.io/acme/other:latest" then
      .ok { registry := "ghcr.io", repository := "acme/other", tag := some "latest", digest := none }
    else .error "invalid reference format"

/-- `handlerComponent` with an empty custom section. -/
def movedComponent : Bytes := handlerComponent ++ [0, 1, 0]

/-- The crates on the sample and on `movedComponent`. -/
def movedCrates : Crates Bytes where
  sha256 b :=
    if b = movedComponent then
      ⟨[178, 27, 106, 172, 78, 255, 98, 34, 22, 193, 69, 46, 118, 239, 49, 33,
        106, 206, 33, 144, 33, 154, 173, 114, 54, 132, 167, 218, 18, 50, 89, 221], rfl⟩
    else sampleSha256 b
  validateAll b := if b = movedComponent then .ok () else sampleCrates.validateAll b
  exports b := if b = movedComponent then .ok ["handler"] else sampleCrates.exports b
  fromBinary b := .ok b
  reference := sampleCrates.reference

end Ember
