import UempPlugin.Ref.HttpRequest

/-!
# What a call of the client asks for

The calls without libcurl's objects: what has been set so far, the transfer a
request asks for under it, and what it answers. Memory shows in two places
only. A line or an escaped text that could not be allocated is missing, and with
a line all lines before it.
-/

namespace UempPlugin.Ref.HttpsClientPrivate

open HttpsClient (Bytes Headers HttpReq HttpResponse Method cStr escaped byte headerLine)

variable {W : Log.World}

/-- The lines of the list in the end: those behind the last failure. -/
def keptLines (fails : Nat → Bool) :
    Nat → List (Bytes × Bytes) → Option (List Bytes) → Option (List Bytes)
  | _, [], cur => cur
  | i, (key, val) :: headers, cur =>
      keptLines fails (i + 1) headers
        (if fails i then none else some (cur.getD [] ++ [cStr (headerLine key val)]))

example : keptLines (· == 1) 0 [([65], [66]), ([67], [68]), ([69], [70])] none =
    some [[69, 58, 32, 70]] := by decide

/-- What a string adds to the body, if its escaped copy can be allocated. -/
def piece (fails : Bool) (string : Bytes) : Bytes := if fails then [] else escaped string

/-- The body `formLoop` puts together. -/
def formText (fails : Nat → Bool) : Nat → List (Bytes × Bytes) → Bool → Bytes → Bytes
  | _, [], _, formBody => formBody
  | i, (key, val) :: formData, first, formBody =>
      let formBody := if !first then formBody ++ [byte '&'] else formBody
      formText fails (i + 1) formData false
        (formBody ++ piece (fails (2 * i)) key ++ [byte '='] ++ piece (fails (2 * i + 1)) val)

/-- What has been set. -/
structure Config where
  verifySsl : Bool := true
  caBundlePath : Bytes := []
  timeout : Int := 30
  connectTimeout : Int := 10

def Client.config (s : Client W) : Config :=
  ⟨s.verifySsl, s.caBundlePath, s.timeout, s.connectTimeout⟩

namespace Call

/-- The headers of a request. -/
def headers : Call → Option Headers
  | get _ headers => some (Method.get.allHeaders headers)
  | postJson _ _ extraHeaders => some (Method.postJson.allHeaders extraHeaders)
  | postForm _ _ extraHeaders => some (Method.postForm.allHeaders extraHeaders)
  | _ => none

/-- How many lines are appended. -/
def lines (call : Call) : Nat := (call.headers.map fun headers => headers.toList.length).getD 0

end Call

namespace Config

/-- What is set after a call. -/
def after (c : Config) : Call → Config
  | .setVerifySsl verify => { c with verifySsl := verify }
  | .setCaBundlePath caPath => { c with caBundlePath := caPath }
  | .setTimeout timeoutSecs => { c with timeout := timeoutSecs }
  | .setConnectTimeout timeoutSecs => { c with connectTimeout := timeoutSecs }
  | _ => c

def request (c : Config) (E : Env) (S : Setting) (method : HttpReq) (url : Bytes)
    (body : Option Bytes) (headers : Headers) : Sent where
  url := setstropt E.urlFails url
  method := method
  body := body
  headers := (keptLines E.appendFails 0 headers.toList none).getD []
  callbacks := true
  httpFollowMode := 1
  maxredirs := 5
  verifypeer := c.verifySsl
  verifyhost := c.verifySsl
  cafile :=
    if c.caBundlePath ≠ [] then setstropt E.cafileFails c.caBundlePath else S.cafile
  timeout := setTimeoutSec 0 c.timeout
  connecttimeout := setTimeoutSec 0 c.connectTimeout

/-- The transfer of a request. -/
def wanted (c : Config) (E : Env) (S : Setting) : Call → Option Sent
  | .get url headers => some (c.request E S .get url none (Method.get.allHeaders headers))
  | .postJson url jsonBody extraHeaders =>
      some (c.request E S .post url (some jsonBody) (Method.postJson.allHeaders extraHeaders))
  | .postForm url formData extraHeaders =>
      some (c.request E S .post url (some (formText E.escapeFails 0 formData.toList true []))
        (Method.postForm.allHeaders extraHeaders))
  | _ => none

/-- The transfers of a call: none without a handle. -/
def transfers (c : Config) (E : Env) (S : Setting) (call : Call) : List Sent :=
  if E.initFails then [] else (c.wanted E S call).toList

/-- What a call returns. -/
def answer (c : Config) (E : Env) (S : Setting) (call : Call) : Option HttpResponse :=
  (c.wanted E S call).map fun req =>
    if E.initFails then { error := initFailed } else HttpsClient.perform (E.exchange req)

/-- The transfers of all calls. -/
def allTransfers (c : Config) (S : Setting) : List (Env × Call) → List Sent
  | [] => []
  | (E, call) :: calls => c.transfers E S call ++ (c.after call).allTransfers S calls

end Config

end UempPlugin.Ref.HttpsClientPrivate
