import Mathlib
import Ember.Http.Ingress

/-!
# What crosses the ABI boundary

A request is taken apart and put together again by the ingress, and then flattened into the
`request` record a guest receives.  The `response` record of a guest is turned into an HTTP
response.  Here we say what is carried over: the method, the query, the status and the body as
they are, and the values of each header in order, except those that the other side cannot
express.

A header map iterates the values of one name in the order they were appended, and nothing is
said about the order of different names.  The statements are therefore made name by name.
-/

namespace Ember

/-! ### Header maps -/

namespace HeaderMap

/-- `HeaderMap::get_all`: the values under a name, in order. -/
def getAll (m : HeaderMap) (name : String) : List HeaderValue :=
  (m.entries.filter fun e => e.1.text = name).map Prod.snd

/-- Pairs with these names can be appended to an empty map one after the other: not even the
last of them finds it full. -/
def Fits (names : List HeaderName) : Prop := names.dropLast.dedup.length < capacity

instance (names : List HeaderName) : Decidable (Fits names) :=
  inferInstanceAs (Decidable (_ < _))

/-- A list that fits has room for a name that comes after a part of it. -/
theorem names_lt_of_fits {m : HeaderMap} {name : HeaderName} {rest : List HeaderName}
    (h : Fits (m.entries.map Prod.fst ++ name :: rest)) :
  m.names.length < capacity
  := by
  have hsub : m.entries.map Prod.fst ⊆ (m.entries.map Prod.fst ++ name :: rest).dropLast := by
    rw [List.dropLast_append_of_ne_nil (List.cons_ne_nil _ _)]
    apply List.subset_append_left
  have hsubperm : m.names.Subperm (m.entries.map Prod.fst ++ name :: rest).dropLast.dedup := by
    apply (List.nodup_dedup _).subperm
    intro n hn
    rw [List.mem_dedup]
    apply hsub (List.dedup_subset _ hn)
  calc m.names.length
      ≤ _ := hsubperm.length_le
    _ < capacity := h

/-- While the names fit, a pair is appended at the end of the map. -/
theorem tryAppend_of_fits {m : HeaderMap} {name : HeaderName} {rest : List HeaderName}
    (value : HeaderValue) (h : Fits (m.entries.map Prod.fst ++ name :: rest)) :
  m.tryAppend name value = some ⟨m.entries ++ [(name, value)]⟩
  := by
  rw [tryAppend, if_pos]
  apply names_lt_of_fits h

end HeaderMap

/-! ### From the ingress to the guest -/

namespace Ingress

/-- While the names fit, the header loop appends all pairs in order. -/
theorem copyHeaders_of_fits (es : List (HeaderName × HeaderValue)) :
  ∀ m : HeaderMap, HeaderMap.Fits (m.entries.map Prod.fst ++ es.map Prod.fst) →
    copyHeaders m es = .ok ⟨m.entries ++ es⟩
  := by
  induction es with
  | nil =>
      intro m _
      rw [copyHeaders, List.append_nil]
  | cons e es ih =>
      intro m hfits
      obtain ⟨name, value⟩ := e
      rw [copyHeaders, HeaderMap.tryAppend_of_fits value hfits]
      simp only
      rw [ih ⟨m.entries ++ [(name, value)]⟩ (by simpa using hfits)]
      simp

/-- A request whose headers fit is put together again as it was. -/
theorem rebuild_eq {request : IncomingRequest} (bytes : Bytes)
    (hfits : HeaderMap.Fits (request.headers.entries.map Prod.fst)) :
  rebuild request bytes
    = .ok
        { method := request.method
          uri := request.uri
          headers := request.headers
          body := bytes }
  := by
  rw [rebuild, copyHeaders_of_fits _ ⟨[]⟩ (by simpa using hfits)]
  simp

end Ingress

/-- The values under a name in the headers of a record of the ABI, in order. -/
def valuesOf (headers : List (String × String)) (name : String) : List String :=
  (headers.filter fun p => p.1 = name).map Prod.snd

/-- Keeping the pairs with a textual value and reading those of one name is reading the textual
values of that name. -/
theorem valuesOf_filterMap_toStr (es : List (HeaderName × HeaderValue)) (name : String) :
  valuesOf (es.filterMap fun (n, value) => value.toStr.map fun v => (n.text, v)) name
    = (HeaderMap.getAll ⟨es⟩ name).filterMap HeaderValue.toStr
  := by
  simp only [valuesOf, HeaderMap.getAll]
  induction es with
  | nil => rfl
  | cons e es ih =>
      obtain ⟨n, value⟩ := e
      by_cases hname : n.text = name
      all_goals cases hstr : value.toStr
      all_goals simp [hstr, hname, ih]

/-- The record `guest` says what the request `request` said. -/
structure Request.Carries (guest : Request) (request : IncomingRequest) : Prop where
  method : guest.method = request.method.toText
  path : guest.path = request.uri.path
  query : guest.query = request.uri.query
  body : ∃ bytes, request.body = .ok bytes ∧ guest.body = some bytes
  headers : ∀ name,
    valuesOf guest.headers name = (request.headers.getAll name).filterMap HeaderValue.toStr

/-- A request that the ingress accepts reaches the guest. -/
theorem Request.tryFrom_carries {config : HttpConfig} {tenant : String}
    {request : IncomingRequest} {id : TenantId} {req : HttpRequest}
    (h : Ingress.dispatch config tenant request = .ok (id, req)) :
  ∃ guest, Request.tryFrom req = .ok guest ∧ guest.Carries request
  := by
  obtain ⟨bytes, hbody, -, -, rfl⟩ := Ingress.dispatch_ok.mp h
  refine ⟨_, rfl, rfl, rfl, rfl, ⟨bytes, hbody, rfl⟩, ?_⟩
  intro name
  apply valuesOf_filterMap_toStr

/-! ### From the guest to the outside -/

/-- Texts that are names of HTTP headers: nonempty tokens, not too long. -/
def isHeaderName (name : String) : Bool :=
  name ≠ "" && name.toList.all isTokenChar && name.toList.length ≤ maxHeaderNameLen

/-- Texts that are values of HTTP headers: those without control characters of ASCII, other than the
tab. -/
def isHeaderText (value : String) : Bool :=
  value.toList.all fun c => (32 ≤ c.toNat && c.toNat ≠ 127) || c.toNat = 9

/-- Whether a character may stand in a token does not depend on its case. -/
theorem isTokenChar_toLower (c : Char) :
  isTokenChar c.toLower = isTokenChar c
  := by
  by_cases hupper : c.isUpper = true
  · have halpha : c.isAlpha = true := by rw [Char.isAlpha, hupper, Bool.true_or]
    simp [isTokenChar, Char.isAlphanum, halpha]
  · rw [Char.toLower_eq_of_not_isUpper hupper]

/-- A text is accepted as a header name exactly when it is one, and is kept in lower case. -/
theorem HeaderName.fromBytes_spec (n : String) :
  (∃ name, fromBytes n = some name ∧ isHeaderName n = true
      ∧ name.text = String.ofList (n.toList.map Char.toLower))
    ∨ (fromBytes n = none ∧ isHeaderName n = false)
  := by
  have hempty : String.ofList (n.toList.map Char.toLower) = "" ↔ n = "" := by
    rw [← String.toList_inj]
    simp
  have hchars : (n.toList.map Char.toLower).all (fun c => isTokenChar c && !c.isUpper)
      = n.toList.all isTokenChar := by
    simp [List.all_map, Function.comp_def, isTokenChar_toLower]
  simp only [fromBytes, isHeaderName]
  split
  next hvalid =>
    rw [String.toList_ofList, hchars, Ne, hempty] at hvalid
    split
    next hlen => simp [hvalid.1, hvalid.2, hlen]
    next hlen => simp [hlen]
  next hvalid =>
    rw [String.toList_ofList, hchars, Ne, hempty] at hvalid
    right
    constructor
    · rfl
    · by_contra hname
      simp only [Bool.not_eq_false, Bool.and_eq_true, decide_eq_true_eq] at hname
      apply hvalid hname.1

/-- The UTF-8 bytes of a text are those of its characters. -/
theorem utf8_toList (s : String) :
  s.toUTF8.data.toList = s.toList.flatMap String.utf8EncodeChar
  := by
  rw [String.toUTF8_eq_toByteArray, ← String.utf8Encode_toList, List.utf8Encode]
  simp

/-- A byte from 128 on may stand in a header value. -/
theorem isHeaderValueByte_of_le {n : ℕ} (hle : 128 ≤ n) (hlt : n < 256) :
  isHeaderValueByte (UInt8.ofNat n) = true
  := by
  have hnat : (UInt8.ofNat n).toNat = n := UInt8.toNat_ofNat_of_lt' hlt
  simp only [isHeaderValueByte, UInt8.le_iff_toNat_le, ← UInt8.toNat_inj, hnat, Bool.or_eq_true,
    Bool.and_eq_true, decide_eq_true_eq, ne_eq]
  left
  constructor
  · change 32 ≤ n
    omega
  · change ¬n = 127
    omega

/-- The bytes of a character may stand in a header value unless it is a control character of
ASCII, other than the tab. -/
theorem utf8EncodeChar_all (c : Char) :
  (String.utf8EncodeChar c).all isHeaderValueByte
    = ((32 ≤ c.toNat && c.toNat ≠ 127) || c.toNat = 9)
  := by
  by_cases hascii : c.toNat ≤ 127
  · -- the byte of an ASCII character is its number
    have hbyte : String.utf8EncodeChar c = [UInt8.ofNat c.toNat] := if_pos hascii
    have hnat : (UInt8.ofNat c.toNat).toNat = c.toNat := UInt8.toNat_ofNat_of_lt' (by
      change c.toNat < 256
      omega)
    rw [hbyte, List.all_cons, List.all_nil, Bool.and_true]
    simp only [isHeaderValueByte, UInt8.le_iff_toNat_le, ← UInt8.toNat_inj, hnat, ne_eq]
    rfl
  · have hchar : ((32 ≤ c.toNat && c.toNat ≠ 127) || c.toNat = 9) = true := by
      simp only [Bool.or_eq_true, Bool.and_eq_true, decide_eq_true_eq]
      omega
    have hlong : ¬c.val.toNat ≤ 127 := hascii
    rw [hchar, String.utf8EncodeChar, if_neg hlong]
    -- in two, three or four bytes, each is one that starts or continues a character
    split_ifs
    all_goals
      simp only [List.all_cons, List.all_nil, Bool.and_true, Bool.and_eq_true]
      and_intros
    all_goals
      apply isHeaderValueByte_of_le
      all_goals omega

/-- A text is accepted as a header value exactly when it is one, and is kept as its bytes. -/
theorem HeaderValue.fromStr_spec (v : String) :
  (∃ value, fromStr v = some value ∧ isHeaderText v = true
      ∧ value.bytes = v.toUTF8.data.toList)
    ∨ (fromStr v = none ∧ isHeaderText v = false)
  := by
  have hbytes : v.toUTF8.data.toList.all isHeaderValueByte = isHeaderText v := by
    rw [utf8_toList, List.all_flatMap, isHeaderText]
    simp only [utf8EncodeChar_all]
  rw [fromStr, ← hbytes]
  split
  next hvalid =>
    left
    exact ⟨_, rfl, hvalid, rfl⟩
  next hvalid =>
    right
    exact ⟨rfl, eq_false_of_ne_true hvalid⟩

/-- The pair of a header map that a pair of texts stands for, when both are valid. -/
def headerPair (p : String × String) : Option (HeaderName × HeaderValue) :=
  match HeaderName.fromBytes p.1, HeaderValue.fromStr p.2 with
  | some name, some value => some (name, value)
  | _, _ => none

/-- A pair of texts stands for a pair of a header map exactly when its name and its value are
valid.  Then the name is kept up to case, and the value as it is. -/
theorem headerPair_spec (p : String × String) :
  (∃ e, headerPair p = some e ∧ (isHeaderName p.1 && isHeaderText p.2) = true
      ∧ e.1.text.toList = p.1.toList.map Char.toLower
      ∧ e.2.bytes = p.2.toUTF8.data.toList)
    ∨ (headerPair p = none ∧ (isHeaderName p.1 && isHeaderText p.2) = false)
  := by
  rcases HeaderName.fromBytes_spec p.1 with ⟨name, hname, hvalid, htext⟩ | ⟨hname, hvalid⟩
  · rcases HeaderValue.fromStr_spec p.2 with ⟨value, hvalue, hvalid', hbytes⟩ | ⟨hvalue, hvalid'⟩
    · left
      refine ⟨(name, value), ?_, ?_, ?_, hbytes⟩
      · rw [headerPair, hname, hvalue]
      · rw [hvalid, hvalid', Bool.and_self]
      · rw [htext, String.toList_ofList]
    · right
      constructor
      · rw [headerPair, hname, hvalue]
      · rw [hvalid', Bool.and_false]
  · right
    constructor
    · rw [headerPair, hname]
    · rw [hvalid, Bool.false_and]

/-- The header loop of a response appends the pairs that are valid, as the one of the ingress
does with all pairs. -/
theorem appendHeaders_eq_copyHeaders (hs : List (String × String)) :
  ∀ m : HeaderMap, appendHeaders m hs = Ingress.copyHeaders m (hs.filterMap headerPair)
  := by
  induction hs with
  | nil =>
      intro m
      rfl
  | cons p hs ih =>
      intro m
      obtain ⟨n, v⟩ := p
      rw [appendHeaders]
      split
      next name value hname hvalue =>
        have hpair : headerPair (n, v) = some (name, value) := by rw [headerPair, hname, hvalue]
        rw [List.filterMap_cons_some hpair, Ingress.copyHeaders]
        cases m.tryAppend name value with
        | none => rfl
        | some m' => apply ih
      next hnone =>
        have hpair : headerPair (n, v) = none := by
          unfold headerPair
          split
          next name value hname hvalue => exact absurd hvalue (hnone name value hname)
          · rfl
        rw [List.filterMap_cons_none hpair]
        apply ih

/-- The response `out` says what the record `resp` said.  Names of headers are compared ignoring
the case of ASCII letters, values byte by byte. -/
structure HttpResponse.Carries (out : HttpResponse) (resp : Response) : Prop where
  status : out.status = resp.status.toNat
  body : out.body = resp.body
  headers : ∀ name : String,
    (out.headers.entries.filter fun e => eqIgnoreAsciiCase e.1.text.toList name.toList).map
        (fun e => e.2.bytes)
      = (resp.headers.filter fun p =>
          isHeaderName p.1 && isHeaderText p.2
            && eqIgnoreAsciiCase p.1.toList name.toList).map fun p => p.2.toUTF8.data.toList

/-- Of the pairs with a given name, those are kept that are valid. -/
theorem filter_headerPair (hs : List (String × String)) (name : Text) :
  ((hs.filterMap headerPair).filter fun e => eqIgnoreAsciiCase e.1.text.toList name).map
      (fun e => e.2.bytes)
    = (hs.filter fun p =>
        isHeaderName p.1 && isHeaderText p.2 && eqIgnoreAsciiCase p.1.toList name).map
        fun p => p.2.toUTF8.data.toList
  := by
  induction hs with
  | nil => rfl
  | cons p hs ih =>
      rcases headerPair_spec p with ⟨e, hpair, hvalid, hname, hvalue⟩ | ⟨hpair, hvalid⟩
      · have hsame : eqIgnoreAsciiCase e.1.text.toList name
            = eqIgnoreAsciiCase p.1.toList name := by
          simp [eqIgnoreAsciiCase, hname, Function.comp_def]
        rw [List.filterMap_cons_some hpair, List.filter_cons, List.filter_cons, hvalid, hsame,
          Bool.true_and]
        split
        · rw [List.map_cons, List.map_cons, ih, hvalue]
        · apply ih
      · rw [List.filterMap_cons_none hpair, List.filter_cons, hvalid, Bool.false_and]
        apply ih

/-- A response with a valid status and headers that fit reaches the outside. -/
theorem Response.toHttp_carries {resp : Response}
    (hstatus : 100 ≤ resp.status.toNat ∧ resp.status.toNat ≤ 999)
    (hfits : HeaderMap.Fits ((resp.headers.filterMap headerPair).map Prod.fst)) :
  ∃ out, resp.toHttp = .ok out ∧ out.Carries resp
  := by
  have hcode : isStatusCode resp.status.toNat = true := by simpa [isStatusCode] using hstatus
  have hheaders : appendHeaders ⟨[]⟩ resp.headers = .ok ⟨resp.headers.filterMap headerPair⟩ := by
    rw [appendHeaders_eq_copyHeaders, Ingress.copyHeaders_of_fits _ ⟨[]⟩ (by simpa using hfits),
      List.nil_append]
  use
    { status := resp.status.toNat
      headers := ⟨resp.headers.filterMap headerPair⟩
      body := resp.body }
  constructor
  · rw [toHttp, if_pos hcode, hheaders]
  · refine ⟨rfl, rfl, ?_⟩
    intro name
    apply filter_headerPair

/-- What crosses the ABI boundary is carried over.  A request that the ingress accepts, whose
headers fit a header map, is put together again and reaches the guest: with its method, its
query and its body, and under each name with the values that are text, in order.  A response
with a status in `100..=999`, whose valid headers fit a header map, reaches the outside with its
status and its body, and under each name with the valid pairs of that name, in order. -/
theorem abi_carries :
  (∀ (config : HttpConfig) (tenant : String) (request : IncomingRequest) (id : TenantId)
      (req : HttpRequest),
    HeaderMap.Fits (request.headers.entries.map Prod.fst) →
    Ingress.dispatch config tenant request = .ok (id, req) →
      Ingress.rebuild request req.body = .ok req
        ∧ ∃ guest, Request.tryFrom req = .ok guest ∧ guest.Carries request)
  ∧ ∀ resp : Response, 100 ≤ resp.status.toNat ∧ resp.status.toNat ≤ 999 →
      HeaderMap.Fits ((resp.headers.filterMap headerPair).map Prod.fst) →
      ∃ out, resp.toHttp = .ok out ∧ out.Carries resp
  := by
  constructor
  · intro config tenant request id req hfits h
    constructor
    · obtain ⟨bytes, -, -, -, rfl⟩ := Ingress.dispatch_ok.mp h
      apply Ingress.rebuild_eq bytes hfits
    · apply Request.tryFrom_carries h
  · intro resp hstatus hfits
    apply Response.toHttp_carries hstatus hfits

/-- A request with three values of one header, the second of which is not text. -/
def repeatedRequest : IncomingRequest where
  method := .extension "PURGE"
  uri := { scheme := none, authority := none, path := "/acme/a", query := some "q=1" }
  headers :=
    ⟨[(⟨"accept", by decide⟩, ⟨[97], by decide⟩), (⟨"accept", by decide⟩, ⟨[255], by decide⟩),
      (⟨"accept", by decide⟩, ⟨[98], by decide⟩)]⟩
  body := .ok [1, 2, 3]

/-- A response with three values of one header, one of them with a line feed, and a pair whose name
is not valid. -/
def repeatedResponse : Response where
  status := 200
  headers :=
    [("Set-Cookie", "é"), ("not a name", "b"), ("set-cookie", "b\n"), ("set-cookie", "c")]
  body := [4, 5]

/-- The repeated header of `repeatedRequest` reaches the guest with its two textual values, and
that of `repeatedResponse` the outside with the two values that are valid, `é` in UTF-8. -/
theorem abi_carries_repeated :
  (∃ guest : Request, guest.Carries repeatedRequest
      ∧ valuesOf guest.headers "accept" = ["a", "b"])
    ∧ ∃ out : HttpResponse, out.Carries repeatedResponse
      ∧ (out.headers.entries.filter fun e =>
          eqIgnoreAsciiCase e.1.text.toList "SET-COOKIE".toList).map (fun e => e.2.bytes)
        = [[195, 169], [99]]
  := by
  constructor
  · obtain ⟨-, guest, -, hcarries⟩ :=
      abi_carries.1 {} "acme" repeatedRequest ⟨"acme", by decide, by decide, by decide⟩
        _ (by decide) rfl
    refine ⟨guest, hcarries, ?_⟩
    rw [hcarries.headers]
    decide
  · obtain ⟨out, -, hcarries⟩ := abi_carries.2 repeatedResponse (by decide) (by decide)
    refine ⟨out, hcarries, ?_⟩
    rw [hcarries.headers]
    decide

end Ember
