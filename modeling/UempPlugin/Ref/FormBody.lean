import UempPlugin.Ref.RequestHeaders

/-!
# The body of `HttpsClientPrivate::postForm`

Names and values go through `curl_easy_escape` one by one. Its length is an
`int`, and a length of zero asks it to count the bytes itself. The buffer it
writes to has room for three bytes in place of each one; running out of memory
is left out.
-/

namespace UempPlugin.Ref.HttpsClient

/-- `ISALNUM`. -/
def isAlnum (c : UInt8) : Bool :=
  (byte '0' ≤ c && c ≤ byte '9') || (byte 'a' ≤ c && c ≤ byte 'z') ||
    (byte 'A' ≤ c && c ≤ byte 'Z')

/-- `ISUNRESERVED`. -/
def isUnreserved (c : UInt8) : Bool :=
  isAlnum c || (c == byte '-' || c == byte '.' || c == byte '_' || c == byte '~')

/-- `Curl_udigits`. -/
def udigits : Bytes :=
  ['0', '1', '2', '3', '4', '5', '6', '7', '8', '9', 'A', 'B', 'C', 'D', 'E', 'F'].map byte

/-- `Curl_hexbyte`. -/
def hexbyte (val : UInt8) : Bytes :=
  [udigits.getD (val.toNat / 16) 0, udigits.getD (val.toNat % 16) 0]

/-- What one byte becomes. -/
def escapeByte (c : UInt8) : Bytes := if isUnreserved c then [c] else byte '%' :: hexbyte c

/-- `SIZE_MAX`. -/
def sizeMax : Nat := 18446744073709551615

/-- `curl_easy_escape`; `none` is the null pointer. -/
def easyEscape (string : Bytes) (length : Int) : Option Bytes :=
  if length < 0 then none
  else
    let len := if length = 0 then (cStr string).length else length.toNat
    if len = 0 then some []
    else if sizeMax / 16 < len then none
    else some ((string.take len).flatMap escapeByte)

/-- `INT_MAX`. -/
def intMax : Nat := 2147483647

/-- `static_cast<int>`. -/
def toInt (size : Nat) : Int := Int.bmod size (2 * (intMax + 1))

/-- What a string adds to the body: nothing, when there is no escaped one. -/
def escaped (s : Bytes) : Bytes := (easyEscape s (toInt s.length)).getD []

/-- The loop over the map. -/
def formLoop : List (Bytes × Bytes) → Bool → Bytes → Bytes
  | [], _, formBody => formBody
  | (key, val) :: formData, first, formBody =>
      let formBody := if !first then formBody ++ [byte '&'] else formBody
      formLoop formData false (formBody ++ escaped key ++ [byte '='] ++ escaped val)

/-- `formBodyStr`. -/
def formBody (formData : Headers) : Bytes := formLoop formData.toList true []

end UempPlugin.Ref.HttpsClient
