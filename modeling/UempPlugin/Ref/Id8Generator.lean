/-!
# `ID8Generator`

The ids of callbacks: eight base-62 digits of a mixed 64-bit number. A call
takes the counter, which goes up by one, and a reading of the steady clock;
the process is the same for all of them.
-/

namespace UempPlugin.Ref.Id8Generator

def mix64 (z : UInt64) : UInt64 :=
  let z := z + 0x9e3779b97f4a7c15
  let z := (z ^^^ (z >>> 30)) * 0xbf58476d1ce4e5b9
  let z := (z ^^^ (z >>> 27)) * 0x94d049bb133111eb
  z ^^^ (z >>> 31)

def pow62 : Nat → UInt64
  | 0 => 1
  | n + 1 => pow62 n * 62

/-- `base62_char`. -/
def base62Char (i : UInt64) : Char :=
  if i < 10 then Char.ofNat ('0'.toNat + i.toNat)
  else if i < 36 then Char.ofNat ('A'.toNat + (i.toNat - 10))
  else Char.ofNat ('a'.toNat + (i.toNat - 36))

/-- The loop that fills the string from its end: `n` places are still free in
front of `s`. -/
def fill : Nat → UInt64 → List Char → List Char
  | 0, _, s => s
  | n + 1, val, s => fill n (val / 62) (base62Char (val % 62) :: s)

/-- `BASE`, `LEN` and `MAXVAL`. -/
def len : Nat := 8

def maxVal : UInt64 := pow62 len

/-- What is mixed. -/
def seed (pid : UInt32) (counter : UInt64) (now : Int64) : UInt64 :=
  counter ^^^ now.toUInt64 ^^^ (pid.toUInt64 <<< 32)

/-- `operator()`, with the counter it finds and what the clock reads. -/
def generate (pid : UInt32) (counter : UInt64) (now : Int64) : String :=
  String.ofList (fill len (mix64 (seed pid counter now) % maxVal) [])

/-- The ids of successive calls. -/
def ids (pid : UInt32) (counter : UInt64) : List Int64 → List String
  | [] => []
  | now :: readings => generate pid counter now :: ids pid (counter + 1) readings

end UempPlugin.Ref.Id8Generator
