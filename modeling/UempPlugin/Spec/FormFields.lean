import UempPlugin.Ref.HttpClient

/-!
# Reading a form

`application/x-www-form-urlencoded`, as a server reads it: pairs between
ampersands, each a name up to the first equals sign and a value behind it. In
both a plus sign is a space and a percent sign with two hexadecimal digits is a
byte. Between two ampersands with nothing in between there is no pair.
-/

namespace UempPlugin.Spec.FormFields

open UempPlugin.Ref.HttpsClient

/-- The value of a hexadecimal digit. -/
def hexValue (c : UInt8) : Option Nat :=
  if byte '0' ≤ c ∧ c ≤ byte '9' then some (c.toNat - 48)
  else if byte 'A' ≤ c ∧ c ≤ byte 'F' then some (c.toNat - 55)
  else if byte 'a' ≤ c ∧ c ≤ byte 'f' then some (c.toNat - 87)
  else none

def plusToSpace (c : UInt8) : UInt8 := if c = byte '+' then byte ' ' else c

/-- Plus signs and percent triples; a percent sign that begins no triple stands
for itself. -/
def decode : Bytes → Bytes
  | c :: h :: l :: rest =>
      if c = byte '%' then
        match hexValue h, hexValue l with
        | some hi, some lo => UInt8.ofNat (16 * hi + lo) :: decode rest
        | _, _ => c :: decode (h :: l :: rest)
      else plusToSpace c :: decode (h :: l :: rest)
  | c :: rest => plusToSpace c :: decode rest
  | [] => []

/-- A pair, cut at its first equals sign. -/
def readPair (pair : Bytes) : Bytes × Bytes :=
  (decode (pair.takeWhile (· != byte '=')), decode ((pair.dropWhile (· != byte '=')).drop 1))

/-- The pairs of a body, in order. -/
def readForm (body : Bytes) : List (Bytes × Bytes) :=
  ((body.splitOn (byte '&')).filter (!·.isEmpty)).map readPair

end UempPlugin.Spec.FormFields
