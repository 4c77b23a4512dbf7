import Ember.Error

/-!
# HTTP messages

The parts of HTTP messages the runtime looks at, as the `http` crate gives them: methods,
header names and values, header maps, status codes and URIs.
-/

namespace Ember

/-- Request methods. -/
inductive Method where
  | get
  | post
  | put
  | delete
  | patch
  | head
  | options
  | connect
  | trace
  | extension (token : String)
  deriving DecidableEq, Repr

/-- `u8` values allowed in a header value: everything but control characters, and the tab. -/
def isHeaderValueByte (b : UInt8) : Bool := (32 ≤ b && b ≠ 127) || b = 9

/-- `u8` values allowed in a header value that reads as text by `to_str`. -/
def isVisibleAscii (b : UInt8) : Bool := (32 ≤ b && b < 127) || b = 9

/-- Characters allowed in a header name, as tokens are. -/
def isTokenChar (c : Char) : Bool :=
  c.isAlphanum || "!#$%&'*+-.^_`|~".toList.contains c

/-- Header names: nonempty lower-case tokens. -/
structure HeaderName where
  text : String
  valid : text ≠ "" ∧ text.toList.all (fun c => isTokenChar c && !c.isUpper) = true

instance : DecidableEq HeaderName := fun a b =>
  decidable_of_iff (a.text = b.text)
    ⟨fun h => by cases a; cases b; cases h; rfl, fun h => by rw [h]⟩

/-- Header values. -/
structure HeaderValue where
  bytes : Bytes
  valid : bytes.all isHeaderValueByte = true

instance : DecidableEq HeaderValue := fun a b =>
  decidable_of_iff (a.bytes = b.bytes)
    ⟨fun h => by cases a; cases b; cases h; rfl, fun h => by rw [h]⟩

/-- The longest header name. -/
def maxHeaderNameLen : ℕ := 65535

/-- `HeaderName::from_bytes`, on the bytes of a text: names are tokens, and are kept in lower
case. -/
def HeaderName.fromBytes (name : String) : Option HeaderName :=
  let text := String.ofList (name.toList.map Char.toLower)
  if h : text ≠ "" ∧ text.toList.all (fun c => isTokenChar c && !c.isUpper) = true then
    if name.toList.length ≤ maxHeaderNameLen then some ⟨text, h⟩ else none
  else none

/-- `HeaderValue::from_str`, on the UTF-8 bytes of the text. -/
def HeaderValue.fromStr (value : String) : Option HeaderValue :=
  let bytes := value.toUTF8.data.toList
  if h : bytes.all isHeaderValueByte = true then some ⟨bytes, h⟩ else none

/-- `HeaderValue::to_str`. -/
def HeaderValue.toStr (v : HeaderValue) : Option String :=
  if v.bytes.all isVisibleAscii then
    some (String.ofList (v.bytes.map fun b => Char.ofNat b.toNat))
  else none

/-- A header map: the name and value pairs, the values of one name in the order they were
appended. -/
structure HeaderMap where
  entries : List (HeaderName × HeaderValue)
  deriving DecidableEq

/-- The number of distinct names a header map can hold. -/
def HeaderMap.capacity : ℕ := 24576

/-- The distinct names of a header map. -/
def HeaderMap.names (m : HeaderMap) : List HeaderName := (m.entries.map Prod.fst).dedup

/-- `HeaderMap::try_append`: refused when the map is full. -/
def HeaderMap.tryAppend (m : HeaderMap) (name : HeaderName) (value : HeaderValue) :
    Option HeaderMap :=
  if m.names.length < capacity then some ⟨m.entries ++ [(name, value)]⟩ else none

/-- Whether a status code is one: `StatusCode::from_u16` accepts `100..=999`. -/
def isStatusCode (status : ℕ) : Bool := 100 ≤ status && status ≤ 999

/-- The authority of a URI. -/
structure Authority where
  userinfo : Option String
  host : String
  port : Option UInt16
  deriving DecidableEq, Repr

/-- URIs. -/
structure Uri where
  scheme : Option String
  authority : Option Authority
  path : String
  query : Option String
  deriving DecidableEq, Repr

namespace Uri

/-- The host of a URI. -/
def host (u : Uri) : Option String := u.authority.map (·.host)

/-- The port a scheme stands for. -/
def defaultPort (scheme : String) : Option ℕ :=
  if scheme = "http" then some 80 else if scheme = "https" then some 443 else none

/-- The explicit port of a URI, or else the one its scheme stands for. -/
def effectivePort (u : Uri) : Option ℕ :=
  match u.authority.bind (·.port) with
  | some port => some port.toNat
  | none => u.scheme.bind defaultPort

end Uri

end Ember
