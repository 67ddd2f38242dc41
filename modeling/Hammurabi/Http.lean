/-
This file is the edge of the router: requests, header values and the extraction of
a JSON body.

A header value holds bytes that need not be text: it may carry any byte from a space
up except delete, and tabs, but it reads as a string only when its bytes are visible
ASCII or tabs. The framework and the JSON parser are crates outside the repository,
so they are the fields of a structure. A body reads as a record when it is declared
to be JSON, is within the limit, parses, and has the record's fields.
-/

import Hammurabi.Intent
import Hammurabi.Library.JsonReader

namespace Hammurabi

open Json Unicode

/-! ### Header values -/

/-- A byte a header value may hold. -/
def isHeaderByte (byte : UInt8) : Bool := (0x20 ≤ byte && byte != 0x7f) || byte == 0x09

/-- A byte a header value may hold and still read as a string. -/
def isVisibleByte (byte : UInt8) : Bool := (0x20 ≤ byte && byte < 0x7f) || byte == 0x09

theorem isHeaderByte_of_visible (byte : UInt8) (visible : isVisibleByte byte = true) :
    isHeaderByte byte = true := by
  simp only [isVisibleByte, isHeaderByte, Bool.or_eq_true, Bool.and_eq_true, decide_eq_true_eq,
    bne_iff_ne, beq_iff_eq] at visible ⊢
  rcases visible with ⟨printable, below⟩ | tab
  · refine .inl ⟨printable, ?_⟩
    rintro rfl
    exact absurd below (by decide)
  · exact .inr tab

theorem ascii_of_visible (byte : UInt8) (visible : isVisibleByte byte = true) : byte < 0x80 := by
  simp only [isVisibleByte, Bool.or_eq_true, Bool.and_eq_true, decide_eq_true_eq,
    beq_iff_eq] at visible
  rcases visible with ⟨-, below⟩ | rfl
  · exact UInt8.lt_trans below (by decide)
  · decide

/-- The value of a header: only bytes it may hold. -/
abbrev HeaderValue := {bytes : List UInt8 // bytes.all isHeaderByte = true}

namespace HeaderValue

/-- A string as a header value, when all its bytes may stand in one. -/
def ofString? (text : String) : Option HeaderValue :=
  if fits : (utf8 text.toList).all isHeaderByte = true then some ⟨utf8 text.toList, fits⟩ else none

/-- A header value as a string, when all its bytes are visible ASCII or tabs. -/
def toStr? (value : HeaderValue) : Option String :=
  if value.1.all isVisibleByte then some (String.ofList (decodeAscii value.1)) else none

/-- A string travels through a header unchanged exactly when its bytes are visible ASCII or tabs;
any other string is refused on the way in or does not read on the way out. -/
theorem toStr?_ofString? (text : String) :
    (ofString? text).bind toStr? =
      if (utf8 text.toList).all isVisibleByte then some text else none := by
  by_cases visible : (utf8 text.toList).all isVisibleByte = true
  · have fits : (utf8 text.toList).all isHeaderByte = true := by
      rw [List.all_eq_true] at visible ⊢
      exact fun byte member => isHeaderByte_of_visible byte (visible byte member)
    have ascii : ∀ c ∈ text.toList, c.toNat < 0x80 :=
      ascii_of_utf8 _ fun byte member =>
        ascii_of_visible byte (List.all_eq_true.mp visible byte member)
    rw [ofString?, dif_pos fits, Option.bind_some, toStr?, if_pos visible, if_pos visible,
      decodeAscii_utf8 _ ascii, String.ofList_toList]
  · rw [if_neg visible, ofString?]
    split
    · rw [Option.bind_some, toStr?, if_neg visible]
    · rfl

end HeaderValue

/-! ### Requests -/

/-- A request: the uri is its path, and header names are in lower case, in the order they were
added. -/
structure Request where
  method : String
  uri : String
  headers : List (String × HeaderValue)
  body : List UInt8

/-- The first value of a header, as a string if it reads as one. -/
def Request.headerStr? (request : Request) (name : String) : Option String :=
  (request.headers.lookup name).bind HeaderValue.toStr?

/-- Headers with their values, when each may stand in one. -/
def headerValues? (headers : List (String × String)) : Option (List (String × HeaderValue)) :=
  headers.mapM fun header => do
    let value ← HeaderValue.ofString? header.2
    return (header.1, value)

/-- Put a request together in-process: each header value must be one, and a body comes with its
content type. -/
def buildRequest (method uri : String) (headers : List (String × String)) (body : Option Value) :
    Option Request := do
  let headers ← headerValues? headers
  match body with
  | none => return { method, uri, headers, body := [] }
  | some json =>
    let contentType ← HeaderValue.ofString? "application/json"
    return {
      method, uri
      headers := headers ++ [("content-type", contentType)]
      body := utf8 json.text }

/-! ### The framework -/

/-- What the router takes from the framework and the JSON parser. -/
structure Framework where
  /-- The document the bytes are the text of, with every member the text lists. -/
  fromSlice : List UInt8 → Option Value
  /-- The document that the extractor reads from a body. It need not be all of the body. -/
  fromBody : List UInt8 → Option Value
  /-- Whether a content type declares JSON. -/
  jsonContentType : List UInt8 → Bool
  /-- The status and the text a request is answered with when its body does not extract. -/
  refusal : Request → Nat × String
  /-- The text of the error for a value that cannot stand in a header. -/
  headerError : String
  /-- The text of the error for a response over the limit. -/
  lengthError : String
  /-- The text of the error for a response that is not JSON. -/
  syntaxError : List UInt8 → String

/-- What is relied on of the parser: a content type is recognised, and the text of a document with
unique keys and 64-bit integers that is nested less than the recursion limit reads as it, in a body
as elsewhere. -/
structure Framework.ReadsBack (framework : Framework) : Prop where
  contentType : framework.jsonContentType (utf8 "application/json".toList) = true
  document : ∀ value : Value, value.UniqueKeys → value.IntegerOnly → value.depth < 128 →
    framework.fromSlice (utf8 value.text) = some value
  body : ∀ value : Value, value.UniqueKeys → value.IntegerOnly → value.depth < 128 →
    framework.fromBody (utf8 value.text) = some value

/-- The limit of a request body. -/
def maxRequestBodyBytes : Nat := 1048576

/-- Extract a record from the body of a request. -/
def Framework.extractJson {Content : Type} (framework : Framework)
    (fromJson : Value → Option Content) (request : Request) : Option Content :=
  match request.headers.lookup "content-type" with
  | none => none
  | some contentType =>
    if framework.jsonContentType contentType.1 ∧ request.body.length ≤ maxRequestBodyBytes then
      (framework.fromBody request.body).bind fromJson
    else none

/-! ### Requests put together in-process -/

/-- Each header holds the value it was given. -/
theorem lookup_headerValues? (headers : List (String × String))
    (values : List (String × HeaderValue)) (held : headerValues? headers = some values)
    (name : String) : values.lookup name = (headers.lookup name).bind HeaderValue.ofString? := by
  induction headers generalizing values with
  | nil =>
    cases held
    rfl
  | cons header headers inductionHypothesis =>
    obtain ⟨key, text⟩ := header
    simp only [headerValues?, List.mapM_cons, Option.bind_eq_bind, Option.pure_def,
      Option.bind_eq_some_iff, Option.some.injEq] at held
    obtain ⟨-, ⟨value, fits, rfl⟩, rest, others, rfl⟩ := held
    rw [List.lookup_cons, List.lookup_cons]
    cases name == key with
    | true => exact fits.symm
    | false => exact inductionHypothesis rest others

theorem exists_headerValues? (headers : List (String × String))
    (fits : ∀ header ∈ headers, ∃ value, HeaderValue.ofString? header.2 = some value) :
    ∃ values, headerValues? headers = some values := by
  induction headers with
  | nil => exact ⟨[], rfl⟩
  | cons header headers inductionHypothesis =>
    obtain ⟨value, fitsHere⟩ := fits header List.mem_cons_self
    obtain ⟨values, held⟩ := inductionHypothesis fun other member =>
      fits other (List.mem_cons_of_mem _ member)
    refine ⟨(header.1, value) :: values, ?_⟩
    simp only [headerValues?, List.mapM_cons, fitsHere] at held ⊢
    rw [held]
    rfl

theorem contentType_fits : ∃ value, HeaderValue.ofString? "application/json" = some value :=
  ⟨_, dif_pos (by decide)⟩

/-- When every value may stand in a header, the request is built. -/
theorem exists_buildRequest (method uri : String) (headers : List (String × String))
    (json : Value)
    (fits : ∀ header ∈ headers, ∃ value, HeaderValue.ofString? header.2 = some value) :
    ∃ request, buildRequest method uri headers (some json) = some request := by
  obtain ⟨values, held⟩ := exists_headerValues? headers fits
  obtain ⟨contentType, fitsType⟩ := contentType_fits
  refine ⟨⟨method, uri, values ++ [("content-type", contentType)], utf8 json.text⟩, ?_⟩
  simp only [buildRequest, held, fitsType, Option.bind_eq_bind, Option.bind_some, Option.pure_def]

/-- What is in a request that was put together around a document. -/
theorem buildRequest_eq_some (method uri : String) (headers : List (String × String))
    (json : Value) (request : Request)
    (built : buildRequest method uri headers (some json) = some request) :
    request.method = method ∧ request.uri = uri ∧ request.body = utf8 json.text ∧
    ∃ values contentType, request.headers = values ++ [("content-type", contentType)] ∧
      HeaderValue.ofString? "application/json" = some contentType ∧
      ∀ name, values.lookup name = (headers.lookup name).bind HeaderValue.ofString? := by
  simp only [buildRequest, Option.bind_eq_bind, Option.pure_def, Option.bind_eq_some_iff,
    Option.some.injEq] at built
  obtain ⟨values, held, contentType, fits, rfl⟩ := built
  exact ⟨rfl, rfl, rfl, values, contentType, rfl, fits, lookup_headerValues? headers values held⟩

theorem lookup_append_singleton {Content : Type} (members : List (String × Content))
    (key name : String) (content : Content) :
    (members ++ [(key, content)]).lookup name =
      (members.lookup name).or (if name = key then some content else none) := by
  rw [List.lookup_append, List.lookup_cons, List.lookup_nil]
  by_cases same : name = key
  · rw [if_pos same, beq_iff_eq.mpr same]
  · rw [if_neg same, beq_eq_false_iff_ne.mpr same]

/-- What a header of the request reads as. -/
theorem headerStr?_buildRequest (method uri : String) (headers : List (String × String))
    (json : Value) (request : Request)
    (built : buildRequest method uri headers (some json) = some request) (name : String)
    (other : name ≠ "content-type") :
    request.headerStr? name =
      (headers.lookup name).bind fun text =>
        (HeaderValue.ofString? text).bind HeaderValue.toStr? := by
  obtain ⟨-, -, -, values, contentType, same, -, held⟩ :=
    buildRequest_eq_some method uri headers json request built
  rw [Request.headerStr?, same, lookup_append_singleton, if_neg other, Option.or_none, held,
    Option.bind_assoc]

/-- The body of the request extracts when the text of its document is within the limit and reads as
the record. -/
theorem extractJson_buildRequest_eq {Content : Type} (framework : Framework)
    (fromJson : Value → Option Content) (method uri : String) (headers : List (String × String))
    (json : Value) (request : Request)
    (built : buildRequest method uri headers (some json) = some request)
    (undeclared : headers.lookup "content-type" = none)
    (recognised : framework.jsonContentType (utf8 "application/json".toList) = true) :
    framework.extractJson fromJson request =
      if (utf8 json.text).length ≤ maxRequestBodyBytes then
        (framework.fromBody (utf8 json.text)).bind fromJson
      else none := by
  obtain ⟨-, -, body, values, contentType, same, fits, held⟩ :=
    buildRequest_eq_some method uri headers json request built
  have bytes : contentType.1 = utf8 "application/json".toList := by
    unfold HeaderValue.ofString? at fits
    split at fits
    · exact congrArg Subtype.val (Option.some.inj fits).symm
    · cases fits
  rw [Framework.extractJson, same, lookup_append_singleton, held, undeclared, if_pos rfl, body]
  dsimp only [Option.bind_none, Option.or]
  simp only [bytes, recognised, true_and]

/-- The body of the request extracts as the document it was built from. -/
theorem extractJson_buildRequest {Content : Type} (framework : Framework)
    (fromJson : Value → Option Content) (method uri : String) (headers : List (String × String))
    (json : Value) (request : Request)
    (built : buildRequest method uri headers (some json) = some request)
    (undeclared : headers.lookup "content-type" = none)
    (recognised : framework.jsonContentType (utf8 "application/json".toList) = true)
    (read : framework.fromBody (utf8 json.text) = some json)
    (small : (utf8 json.text).length ≤ maxRequestBodyBytes) :
    framework.extractJson fromJson request = fromJson json := by
  rw [extractJson_buildRequest_eq framework fromJson method uri headers json request built
    undeclared recognised, if_pos small, read, Option.bind_some]

/-! ### An instance of what is relied on -/

/-- A framework with the reader of compact texts for its parser. -/
def plainFramework : Framework where
  fromSlice bytes := (decodeUtf8 bytes).bind Json.read
  fromBody bytes := (decodeUtf8 bytes).bind Json.read
  jsonContentType bytes := bytes = utf8 "application/json".toList
  refusal _ := (400, "Failed to parse the request body as JSON")
  headerError := "failed to parse header value"
  lengthError := "length limit exceeded"
  syntaxError _ := "expected value"

theorem read_utf8_text (value : Value) (integer : value.IntegerOnly) :
    (decodeUtf8 (utf8 value.text)).bind Json.read = some value := by
  rw [decodeUtf8_utf8, Option.bind_some, Json.read_text value integer]

theorem plainFramework_readsBack : plainFramework.ReadsBack where
  contentType := by
    rw [plainFramework, decide_eq_true_iff]
  document value _ integer _ := read_utf8_text value integer
  body value _ integer _ := read_utf8_text value integer

end Hammurabi
