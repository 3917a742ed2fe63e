import UempPlugin.Lib.Arena
import UempPlugin.Ref.AnyToString
import UempPlugin.Ref.FormBody

/-!
# `HttpsClientPrivate`: a whole request

`get`, `postJson` and `postForm` from the first call of libcurl to the last,
and the four calls that set the configuration they share. What is allocated by
libcurl (a handle, a list of header lines, an escaped string) is an object
under an address. Nothing gives it back by itself: an exception that leaves a
request leaves its objects where they are.

What libcurl cannot decide alone is given to a call as its environment: which
of its allocations fail, and what the transfer brings. The client's own strings
do not run out of memory.
-/

namespace UempPlugin.Ref.HttpsClientPrivate

open UempPlugin.Lib (Arena utf8)
open HttpsClient (Bytes Headers HttpReq HttpResponse Method Transfer cStr easyEscape escaped byte
  headerLine toInt)

/-! ## libcurl -/

/-- `CURL_MAX_INPUT_LENGTH`. -/
def maxInputLength : Nat := 8000000

/-- The fields of `struct UserDefined` that the client sets, with the values
`curl_easy_init` leaves in them. Times are in milliseconds. -/
structure UserDefined where
  /-- `str[STRING_SET_URL]`. -/
  url : Option Bytes := none
  method : HttpReq := .get
  /-- Not a copy: the string it points into is the client's. -/
  postfields : Option Bytes := none
  postfieldsize : Int := -1
  /-- The first record of the list. -/
  headers : Option Nat := none
  /-- Do the four calls of the callbacks point into the client? -/
  callbacks : Bool := false
  httpFollowMode : Nat := 0
  maxredirs : Int := 30
  verifypeer : Bool := true
  verifyhost : Bool := true
  /-- `str[STRING_SSL_CAFILE]`. -/
  cafile : Option Bytes := none
  timeout : Int := 0
  connecttimeout : Int := 0

/-- What a transfer is run with. -/
structure Sent where
  url : Option Bytes
  method : HttpReq
  body : Option Bytes
  headers : List Bytes
  callbacks : Bool
  httpFollowMode : Nat
  maxredirs : Int
  verifypeer : Bool
  verifyhost : Bool
  cafile : Option Bytes
  timeout : Int
  connecttimeout : Int
deriving DecidableEq

/-- The transfer these options ask for, with the lines of their list. -/
def UserDefined.sent (data : UserDefined) (lines : List Bytes) : Sent where
  url := data.url
  method := data.method
  body := data.postfields.map fun body => body.take data.postfieldsize.toNat
  headers := lines
  callbacks := data.callbacks
  httpFollowMode := data.httpFollowMode
  maxredirs := data.maxredirs
  verifypeer := data.verifypeer
  verifyhost := data.verifyhost
  cafile := data.cafile
  timeout := data.timeout
  connecttimeout := data.connecttimeout

/-- What libcurl allocates for the client. -/
inductive Object where
  | easy (data : UserDefined)
  | slist (lines : List Bytes)
  | str (text : Bytes)

/-- What a call of the client meets. Header lines and escaped strings are
counted from 0. -/
structure Env where
  initFails : Bool := false
  urlFails : Bool := false
  cafileFails : Bool := false
  appendFails : Nat → Bool := fun _ => false
  escapeFails : Nat → Bool := fun _ => false
  exchange : Sent → Transfer

/-- What remains the same: what a callback of the logger throws, where the
calls of the logger stand, and libcurl's own bundle of certificates. -/
structure Setting where
  P : LoggerUtil.Platform
  foreign : Log.CallbackSink → Bool
  getLine : Nat → Log.SourceLine
  cafile : Option Bytes

/-- The static members, the logger, libcurl's objects and, newest last, the
transfers that were run. -/
structure Client (W : Log.World) where
  verifySsl : Bool := true
  caBundlePath : Bytes := []
  timeout : Int := 30
  connectTimeout : Int := 10
  log : Log.LogPrivate W
  memory : Arena Object := {}
  sent : List Sent := []

/-- How a call ends that does not return. -/
inductive Fault where
  | thrown (e : Exn)
  -- an address with no object, or with one of another kind
  | misuse

variable {W : Log.World}

abbrev HttpM (W : Log.World) := EStateM Fault (Client W)

def allocate (o : Object) : HttpM W Nat := fun s =>
  .ok s.memory.next { s with memory := s.memory.add o }

def store (p : Nat) (o : Option Object) : HttpM W Unit := fun s =>
  .ok () { s with memory := s.memory.put p o }

def easyAt (curl : Nat) : HttpM W UserDefined := fun s =>
  match s.memory.live curl with
  | some (.easy data) => .ok data s
  | _ => .error .misuse s

def slistAt (list : Nat) : HttpM W (List Bytes) := fun s =>
  match s.memory.live list with
  | some (.slist lines) => .ok lines s
  | _ => .error .misuse s

def strAt (p : Nat) : HttpM W Bytes := fun s =>
  match s.memory.live p with
  | some (.str text) => .ok text s
  | _ => .error .misuse s

def easyInit (E : Env) (S : Setting) : HttpM W (Option Nat) :=
  if E.initFails then pure none else some <$> allocate (.easy { cafile := S.cafile })

/-- `curl_easy_setopt`; the client does not look at what it returns. -/
def setopt (curl : Nat) (set : UserDefined → UserDefined) : HttpM W Unit := do
  let data ← easyAt curl
  store curl (some (.easy (set data)))

/-- `Curl_setstropt`: the old string is gone, whether or not the new one can be
stored. -/
def setstropt (fails : Bool) (s : Bytes) : Option Bytes :=
  if (cStr s).length > maxInputLength ∨ fails then none else some (cStr s)

/-- `TIMEDIFF_T_MAX`. -/
def timediffMax : Int := 9223372036854775807

/-- `setopt_set_timeout_sec`: a negative one is refused. -/
def setTimeoutSec (ms secs : Int) : Int :=
  if secs < 0 then ms
  else if secs > timediffMax / 1000 then timediffMax
  else secs * 1000

def slistAppend (fails : Bool) (list : Option Nat) (data : Bytes) : HttpM W (Option Nat) :=
  if fails then pure none
  else
    match list with
    | none => some <$> allocate (.slist [cStr data])
    | some p => do
        let lines ← slistAt p
        store p (some (.slist (lines ++ [cStr data])))
        return some p

def allocateStr (fails : Bool) : Option Bytes → HttpM W (Option Nat)
  | none => pure none
  | some text => if fails then pure none else some <$> allocate (.str text)

/-- `curl_easy_escape` does not use the handle. -/
def escape (fails : Bool) (string : Bytes) : HttpM W (Option Nat) :=
  allocateStr fails (easyEscape string (toInt string.length))

def curlFree (p : Nat) : HttpM W Unit := do
  let _ ← strAt p
  store p none

def slistFreeAll (list : Nat) : HttpM W Unit := do
  let _ ← slistAt list
  store list none

def easyCleanup (curl : Nat) : HttpM W Unit := do
  let _ ← easyAt curl
  store curl none

/-- `CURLINFO_EFFECTIVE_URL`, before a transfer. -/
def effectiveUrl (curl : Nat) : HttpM W Bytes := do
  let data ← easyAt curl
  return data.url.getD []

/-- The list of header lines is read where it lies. -/
def linesAt : Option Nat → HttpM W (List Bytes)
  | none => pure []
  | some list => slistAt list

def easyPerform (E : Env) (curl : Nat) : HttpM W Transfer := do
  let data ← easyAt curl
  let lines ← linesAt data.headers
  fun s => .ok (E.exchange (data.sent lines)) { s with sent := s.sent ++ [data.sent lines] }

/-! ## The logger -/

theorem notMem_cStr (s : Bytes) : 0 ∉ cStr s := by
  intro hm
  have := List.all_eq_true.1 (List.all_takeWhile (l := s) (p := (· != 0))) 0 hm
  simp at this

/-- A `const char*`. -/
def chars (text : Bytes) : LoggerUtil.Any :=
  .value .constCharPtr (some ⟨cStr text, notMem_cStr text⟩)

/-- A literal. -/
def lit (text : String) : LoggerUtil.Any := chars (utf8 text.toList)

/-- A `std::string`. -/
def str (text : Bytes) : LoggerUtil.Any := .value .string text

def long (n : Int) : LoggerUtil.Any := .value .long (.ofInt n)

def sizeT (n : Nat) : LoggerUtil.Any := .value .sizeT (.ofNat n)

/-- `LOG_INFO` and `LOG_ERROR`, on a line of the file. -/
def log (S : Setting) (level : Log.Level) (line : Nat) (msgList : List LoggerUtil.Any) :
    HttpM W Unit := fun s =>
  match Log.Typed.logImpl S.P S.foreign (S.getLine line) msgList (s.log.showLine level) level
      s.log with
  | .ok _ log => .ok () { s with log := log }
  | .error e log => .error (.thrown e) { s with log := log }

/-! ## Options -/

def applyGlobalConfig (E : Env) (curl : Nat) : HttpM W Unit := do
  let s ← get
  setopt curl fun data => { data with verifypeer := s.verifySsl }
  setopt curl fun data => { data with verifyhost := s.verifySsl }
  if s.caBundlePath ≠ [] then
    setopt curl fun data => { data with cafile := setstropt E.cafileFails s.caBundlePath }
  setopt curl fun data => { data with timeout := setTimeoutSec data.timeout s.timeout }
  setopt curl fun data =>
    { data with connecttimeout := setTimeoutSec data.connecttimeout s.connectTimeout }

/-- The loop over the map, at the i-th entry. -/
def appendLoop (E : Env) : Nat → List (Bytes × Bytes) → Option Nat → HttpM W (Option Nat)
  | _, [], slist => pure slist
  | i, (key, val) :: headers, slist => do
      let slist ← slistAppend (E.appendFails i) slist (headerLine key val)
      appendLoop E (i + 1) headers slist

/-- `setHeaders`, with the list the caller has to free. -/
def setHeaders (E : Env) (curl : Nat) (headers : Headers) : HttpM W (Option Nat) := do
  let slist ← appendLoop E 0 headers.toList none
  match slist with
  | none => return none
  | some list => do
      setopt curl fun data => { data with headers := some list }
      return some list

/-! ## Requests -/

/-- What the two messages after a transfer say. -/
def logResponse (S : Setting) (url : Bytes) (response : HttpResponse) :
    Except Bytes Int → HttpM W Unit
  | .ok _ =>
      log S .info 154 [lit "HTTPS 响应: HTTP ", long response.statusCode, lit ", body=",
        sizeT response.body.length, lit " bytes  [", chars url, lit "]"]
  | .error _ =>
      log S .err 163 [lit "HTTPS 请求失败: ", str response.error, lit "  [", chars url, lit "]"]

def perform (E : Env) (S : Setting) (curl : Nat) : HttpM W HttpResponse := do
  setopt curl fun data => { data with callbacks := true }
  setopt curl fun data => { data with httpFollowMode := 1 }
  setopt curl fun data => { data with maxredirs := 5 }
  applyGlobalConfig E curl
  let url ← effectiveUrl curl
  log S .info 144 [lit "HTTPS 请求开始: ", chars url]
  let transfer ← easyPerform E curl
  let response := HttpsClient.perform transfer
  logResponse S url response transfer.result
  return response

def initFailed : Bytes := utf8 "curl_easy_init() 返回 NULL".toList

/-- What a request returns without a handle. -/
def noHandle (S : Setting) (line : Nat) (what : String) (url : Bytes) : HttpM W HttpResponse := do
  let resp : HttpResponse := { error := initFailed }
  log S .err line [lit what, str url, lit " — ", str resp.error]
  return resp

/-- `if (slist) curl_slist_free_all(slist);`. -/
def freeList : Option Nat → HttpM W Unit
  | none => pure ()
  | some slist => slistFreeAll slist

/-- How every request ends: headers, transfer, and giving back. -/
def finish (E : Env) (S : Setting) (curl : Nat) (headers : Headers) : HttpM W HttpResponse := do
  let slist ← setHeaders E curl headers
  let resp ← perform E S curl
  freeList slist
  easyCleanup curl
  return resp

def get (E : Env) (S : Setting) (url : Bytes) (headers : Headers) : HttpM W HttpResponse := do
  match ← easyInit E S with
  | none => noHandle S 181 "GET " url
  | some curl =>
      setopt curl fun data => { data with url := setstropt E.urlFails url }
      setopt curl fun data => { data with method := .get }
      finish E S curl (Method.get.allHeaders headers)

/-- The options of a body, in both kinds of POST. -/
def setBody (E : Env) (curl : Nat) (url body : Bytes) : HttpM W Unit := do
  setopt curl fun data => { data with url := setstropt E.urlFails url }
  setopt curl fun data => { data with method := .post }
  setopt curl fun data => { data with postfields := some body, method := .post }
  setopt curl fun data => { data with postfieldsize := body.length }

def postJson (E : Env) (S : Setting) (url jsonBody : Bytes) (extraHeaders : Headers) :
    HttpM W HttpResponse := do
  match ← easyInit E S with
  | none => noHandle S 211 "POST JSON " url
  | some curl =>
      setBody E curl url jsonBody
      finish E S curl (Method.postJson.allHeaders extraHeaders)

/-- `if (escaped) { formBody << escaped; curl_free(escaped); }`. -/
def appendEscaped (formBody : Bytes) : Option Nat → HttpM W Bytes
  | none => return formBody
  | some p => do
      let text ← strAt p
      curlFree p
      return formBody ++ text

/-- The loop over the fields, at the i-th. -/
def formLoop (E : Env) : Nat → List (Bytes × Bytes) → Bool → Bytes → HttpM W Bytes
  | _, [], _, formBody => pure formBody
  | i, (key, val) :: formData, first, formBody => do
      let formBody := if !first then formBody ++ [byte '&'] else formBody
      let escapedKey ← escape (E.escapeFails (2 * i)) key
      let escapedVal ← escape (E.escapeFails (2 * i + 1)) val
      let formBody ← appendEscaped formBody escapedKey
      let formBody ← appendEscaped (formBody ++ [byte '=']) escapedVal
      formLoop E (i + 1) formData false formBody

def postForm (E : Env) (S : Setting) (url : Bytes) (formData extraHeaders : Headers) :
    HttpM W HttpResponse := do
  match ← easyInit E S with
  | none => noHandle S 247 "POST Form " url
  | some curl =>
      let formBodyStr ← formLoop E 0 formData.toList true []
      setBody E curl url formBodyStr
      finish E S curl (Method.postForm.allHeaders extraHeaders)

/-! ## The shared configuration -/

def setVerifySsl (S : Setting) (verify : Bool) : HttpM W Unit := do
  modify fun s => { s with verifySsl := verify }
  log S .info 294 [lit "SSL 证书验证: ", lit (if verify then "启用" else "禁用")]

def setCaBundlePath (S : Setting) (caPath : Bytes) : HttpM W Unit := do
  modify fun s => { s with caBundlePath := caPath }
  log S .info 300 [lit "CA bundle 路径已设置: ", str caPath]

def setTimeout (S : Setting) (timeoutSecs : Int) : HttpM W Unit := do
  modify fun s => { s with timeout := timeoutSecs }
  log S .info 306 [lit "请求总超时已设为 ", long timeoutSecs, lit "s"]

def setConnectTimeout (S : Setting) (timeoutSecs : Int) : HttpM W Unit := do
  modify fun s => { s with connectTimeout := timeoutSecs }
  log S .info 312 [lit "连接超时已设为 ", long timeoutSecs, lit "s"]

/-! ## Runs -/

inductive Call where
  | get (url : Bytes) (headers : Headers)
  | postJson (url jsonBody : Bytes) (extraHeaders : Headers)
  | postForm (url : Bytes) (formData extraHeaders : Headers)
  | setVerifySsl (verify : Bool)
  | setCaBundlePath (caPath : Bytes)
  | setTimeout (timeoutSecs : Int)
  | setConnectTimeout (timeoutSecs : Int)

/-- A call, with the response of a request. -/
def Call.run (E : Env) (S : Setting) : Call → HttpM W (Option HttpResponse)
  | .get url headers => some <$> HttpsClientPrivate.get E S url headers
  | .postJson url jsonBody extraHeaders =>
      some <$> HttpsClientPrivate.postJson E S url jsonBody extraHeaders
  | .postForm url formData extraHeaders =>
      some <$> HttpsClientPrivate.postForm E S url formData extraHeaders
  | .setVerifySsl verify => do
      HttpsClientPrivate.setVerifySsl S verify
      return none
  | .setCaBundlePath caPath => do
      HttpsClientPrivate.setCaBundlePath S caPath
      return none
  | .setTimeout timeoutSecs => do
      HttpsClientPrivate.setTimeout S timeoutSecs
      return none
  | .setConnectTimeout timeoutSecs => do
      HttpsClientPrivate.setConnectTimeout S timeoutSecs
      return none

/-- Calls one after the other, whatever each of them throws. -/
def runCalls (S : Setting) : List (Env × Call) → Client W → Client W
  | [], s => s
  | (E, call) :: calls, s =>
      match call.run E S s with
      | .ok _ s' => runCalls S calls s'
      | .error _ s' => runCalls S calls s'

end UempPlugin.Ref.HttpsClientPrivate
