import UempPlugin.Ref.HttpClient

/-!
# Request headers: `HttpsClientPrivate::setHeaders` and what libcurl writes

`get`, `postJson` and `postForm` join every entry of a map to one line and hand
the lines to libcurl as a list; `Curl_add_custom_headers` reads each line again
and appends it to the request, or does not. The client sets no proxy header, so
the list of the server request is the only one. Running out of memory is left
out.
-/

namespace UempPlugin.Ref.HttpsClient

def semicolon : UInt8 := byte ';'

def crlf : Bytes := [cr, lf]

/-- `str.c_str()` as a C function reads it: the bytes before the first NUL. -/
def cStr (s : Bytes) : Bytes := s.takeWhile (· != 0)

/-! ## The list -/

/-- The requests that take a map of headers. -/
inductive Method where
  | get
  | postJson
  | postForm
  deriving DecidableEq

def contentType : Bytes :=
  ['C', 'o', 'n', 't', 'e', 'n', 't', '-', 'T', 'y', 'p', 'e'].map byte

/-- `"application/json"`. -/
def jsonType : Bytes :=
  ['a', 'p', 'p', 'l', 'i', 'c', 'a', 't', 'i', 'o', 'n', '/', 'j', 's', 'o', 'n'].map byte

/-- `"application/x-www-form-urlencoded"`. -/
def formType : Bytes :=
  ['a', 'p', 'p', 'l', 'i', 'c', 'a', 't', 'i', 'o', 'n', '/', 'x', '-', 'w', 'w', 'w', '-',
    'f', 'o', 'r', 'm', '-', 'u', 'r', 'l', 'e', 'n', 'c', 'o', 'd', 'e', 'd'].map byte

/-- The map a request passes to `setHeaders`. -/
def Method.allHeaders (method : Method) (extraHeaders : Headers) : Headers :=
  match method with
  | .get => extraHeaders
  | .postJson => extraHeaders.insert contentType jsonType
  | .postForm => extraHeaders.insert contentType formType

/-- `key + ": " + val`. -/
def headerLine (key val : Bytes) : Bytes := key ++ colon :: byte ' ' :: val

/-- The list `setHeaders` builds; an empty one is the null pointer. -/
def setHeaders (headers : Headers) : List Bytes :=
  headers.toList.map fun entry => cStr (headerLine entry.1 entry.2)

/-! ## The request buffer -/

/-- `DYN_HTTP_REQUEST`. -/
def dynHttpRequest : Nat := 1024 * 1024

/-- A `struct dynbuf` with that limit: `DEBUGASSERT(idx < s->toobig)`. -/
structure Dynbuf where
  bytes : Bytes
  fits : bytes.length < dynHttpRequest

inductive CURLcode where
  | tooLarge
  deriving DecidableEq

/-- `curlx_dyn_addf`. The buffer keeps a byte for the terminating NUL. -/
def Dynbuf.addf (s : Dynbuf) (text : Bytes) : Except CURLcode Dynbuf :=
  if h : (s.bytes ++ text).length < dynHttpRequest then .ok ⟨s.bytes ++ text, h⟩
  else .error .tooLarge

/-! ## Reading a line -/

/-- `MAX_HTTP_RESP_HEADER_SIZE`. -/
def maxHeaderSize : Nat := 300 * 1024

/-- `curlx_str_until` and `curlx_str_untilnl`: a word of at least one byte and
at most `max`, up to a delimiter or the end, and what is left behind it. -/
def strUntil (delim : UInt8 → Bool) (max : Nat) (p : Bytes) : Option (Bytes × Bytes) :=
  let word := p.takeWhile (!delim ·)
  if max < word.length then none
  else if word = [] then none
  else some (word, p.dropWhile (!delim ·))

/-- `curlx_str_single`. -/
def strSingle (c : UInt8) : Bytes → Option Bytes
  | [] => none
  | b :: rest => if b = c then some rest else none

/-- `curlx_str_trimblanks`. -/
def trimBlanks (val : Bytes) : Bytes :=
  ((val.dropWhile isBlank).reverse.dropWhile isBlank).reverse

/-- `curlx_str_casecompare`. -/
def casecompare (name check : Bytes) : Bool := name.map tolower == check.map tolower

/-- A line that ends with a semicolon and has no colon before it asks for a
header without content: its name. -/
def blankHeader (origp : Bytes) : Option Bytes :=
  match strUntil (· == semicolon) maxHeaderSize origp with
  | none => none
  | some (name, p) =>
      if strSingle semicolon p = some [] ∧ colon ∉ name then some name else none

/-- The name of a line whose part after the colon, up to a line end, has
content. -/
def contentHeader (origp : Bytes) : Option Bytes :=
  match strUntil (· == colon) maxHeaderSize origp with
  | none => none
  | some (name, p) =>
      match strSingle colon p with
      | none => none
      | some p =>
          let val := ((strUntil isEol maxHeaderSize p).map Prod.fst).getD []
          if trimBlanks val = [] then none else some name

/-! ## `Curl_add_custom_headers` -/

/-- The `Curl_HttpReq` values `Curl_add_custom_headers` tells apart. -/
inductive HttpReq where
  | get
  | post
  | postForm
  | postMime
  deriving DecidableEq

/-- What it reads of a `struct Curl_easy`. -/
structure Easy where
  /-- `state.aptr.host` is set. -/
  host : Bool
  httpreq : HttpReq
  authneg : Bool
  /-- `Curl_auth_allowed_to_host`. -/
  authAllowed : Bool
  httpversion : Nat
  /-- `set.headers`. -/
  headers : List Bytes
  deriving DecidableEq

def hostName : Bytes := ['H', 'o', 's', 't'].map byte

def contentLength : Bytes :=
  ['C', 'o', 'n', 't', 'e', 'n', 't', '-', 'L', 'e', 'n', 'g', 't', 'h'].map byte

def connection : Bytes := ['C', 'o', 'n', 'n', 'e', 'c', 't', 'i', 'o', 'n'].map byte

def transferEncoding : Bytes :=
  ['T', 'r', 'a', 'n', 's', 'f', 'e', 'r', '-', 'E', 'n', 'c', 'o', 'd', 'i', 'n', 'g'].map byte

def authorization : Bytes :=
  ['A', 'u', 't', 'h', 'o', 'r', 'i', 'z', 'a', 't', 'i', 'o', 'n'].map byte

def cookie : Bytes := ['C', 'o', 'o', 'k', 'i', 'e'].map byte

/-- A name libcurl takes care of itself, so that the line is passed over. -/
def Easy.heldBack (data : Easy) (name : Bytes) : Bool :=
  if data.host && casecompare name hostName then true
  else if data.httpreq == .postForm && casecompare name contentType then true
  else if data.httpreq == .postMime && casecompare name contentType then true
  else if data.authneg && casecompare name contentLength then true
  else if casecompare name connection then true
  else if 20 ≤ data.httpversion && casecompare name transferEncoding then true
  else (casecompare name authorization || casecompare name cookie) && !data.authAllowed

/-- What one line of the list adds to the request, if anything. -/
def customHeader (data : Easy) (origp : Bytes) : Option Bytes :=
  match blankHeader origp with
  | some name => if data.heldBack name then none else some (name ++ colon :: crlf)
  | none =>
      match contentHeader origp with
      | none => none
      | some name => if data.heldBack name then none else some (origp ++ crlf)

/-- The loop over the list. -/
def addLines (data : Easy) : List Bytes → Dynbuf → Except CURLcode Dynbuf
  | [], req => .ok req
  | origp :: headers, req =>
      match customHeader data origp with
      | none => addLines data headers req
      | some line =>
          match req.addf line with
          | .error result => .error result
          | .ok req => addLines data headers req

def addCustomHeaders (data : Easy) (req : Dynbuf) : Except CURLcode Dynbuf :=
  addLines data data.headers req

/-! ## A request -/

/-- `CURLOPT_HTTPGET` or `CURLOPT_POST`. -/
def Method.httpreq : Method → HttpReq
  | .get => .get
  | .postJson => .post
  | .postForm => .post

/-- The handle with the options a request sets on it. -/
def Method.setup (method : Method) (headers : Headers) (data : Easy) : Easy :=
  { data with
    httpreq := method.httpreq
    headers := setHeaders (method.allHeaders headers) }

/-- The header lines a request puts behind what is in the buffer already. -/
def headerLines (method : Method) (headers : Headers) (data : Easy) (req : Dynbuf) :
    Option Bytes :=
  match addCustomHeaders (method.setup headers data) req with
  | .error _ => none
  | .ok sent => some (sent.bytes.drop req.bytes.length)

end UempPlugin.Ref.HttpsClient
