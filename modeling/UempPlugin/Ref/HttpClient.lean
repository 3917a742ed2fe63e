import Std.Data.ExtTreeMap
import Mathlib.Data.UInt

/-!
# `HttpsClientPrivate`: what libcurl hands over

The write and header callbacks, and `perform`, which collects what they saw
into an `HttpResponse`. libcurl is the environment: a `Transfer` is one run of
`curl_easy_perform`, the calls it makes and the code it returns. The two
callbacks fill two different buffers, so the order in which calls of one kind
fall between calls of the other is left out. So is the logging.
-/

namespace UempPlugin.Ref.HttpsClient

/-- `std::string`, a byte string here. -/
abbrev Bytes := List UInt8

/-- `std::map<std::string, std::string>`: keys compare byte by byte. -/
abbrev Headers := Std.ExtTreeMap Bytes Bytes

structure HttpResponse where
  statusCode : Int := 0
  body : Bytes := []
  headers : Headers := ∅
  error : Bytes := []

def HttpResponse.ok (r : HttpResponse) : Bool :=
  200 ≤ r.statusCode ∧ r.statusCode < 300 ∧ r.error = []

/-- The code of an ASCII character. -/
def byte (c : Char) : UInt8 := c.val.toUInt8

def cr : UInt8 := byte '\r'

def lf : UInt8 := byte '\n'

def colon : UInt8 := byte ':'

/-- `"HTTP/"`, how a status line begins. -/
def httpPrefix : Bytes := ['H', 'T', 'T', 'P', '/'].map byte

/-- `'\r'` or `'\n'`. -/
def isEol (c : UInt8) : Bool := c == cr || c == lf

/-- `' '` or `'\t'`. -/
def isBlank (c : UInt8) : Bool := c == byte ' ' || c == byte '\t'

/-- `std::tolower` in the "C" locale, the one in force. -/
def tolower (c : UInt8) : UInt8 :=
  if byte 'A' ≤ c ∧ c ≤ byte 'Z' then c + 32 else c

def writeCallback (data : Bytes) : Option Bytes → Nat × Option Bytes
  | none => (data.length, none)
  | some body => (data.length, some (body ++ data))

/-- `while (!line.empty() && …) line.pop_back()`. -/
def popEol (line : Bytes) : Bytes := (line.reverse.dropWhile isEol).reverse

/-- The key and the value `headerCallback` stores for a line, if any. -/
def headerField (data : Bytes) : Option (Bytes × Bytes) :=
  if httpPrefix <+: data then none
  else if data = [cr, lf] ∨ data = [lf] then none
  else
    let line := popEol data
    match line.idxOf? colon with
    | none => none
    | some colonPos =>
        let key := line.take colonPos
        let val := line.drop (colonPos + 1)
        some (key.map tolower, val.dropWhile isBlank)

def headerCallback (data : Bytes) : Option Headers → Nat × Option Headers
  | none => (data.length, none)
  | some headers =>
      match headerField data with
      | none => (data.length, some headers)
      | some (key, val) => (data.length, some (headers.insert key val))

/-- One run of `curl_easy_perform`: the data of each header and each body
callback in order, and either the response code or the error text. -/
structure Transfer where
  headerCalls : List Bytes
  bodyCalls : List Bytes
  result : Except Bytes Int

/-- `headerBuffer` after the header callbacks of a transfer. -/
def headerBuffer (calls : List Bytes) : Headers :=
  (calls.foldl (fun userp data => (headerCallback data userp).2) (some ∅)).getD ∅

def bodyBuffer (calls : List Bytes) : Bytes :=
  (calls.foldl (fun userp data => (writeCallback data userp).2) (some [])).getD []

def perform (t : Transfer) : HttpResponse :=
  match t.result with
  | .ok statusCode =>
      { statusCode := statusCode
        body := bodyBuffer t.bodyCalls
        headers := headerBuffer t.headerCalls }
  | .error text =>
      { error := text
        statusCode := 0
        body := bodyBuffer t.bodyCalls }

end UempPlugin.Ref.HttpsClient
