import UempPlugin.Ref.RequestHeaders

/-!
# What a server reads out of the header lines

A header section is read line by line, without knowing who wrote it: a line
ends with a line feed, which may follow a carriage return, and is a field name,
a colon and a value with blanks around it that do not count. Neither of the two
line end bytes nor a NUL has a place inside a value. A section with any other
line is not read at all.
-/

namespace UempPlugin.Spec.HeaderFields

open UempPlugin.Ref.HttpsClient

/-- The bytes of a token that are not letters or digits. -/
def tokenMarks : Bytes :=
  ['!', '#', '$', '%', '&', '\'', '*', '+', '-', '.', '^', '_', '\x60', '|', '~'].map byte

def isTchar (c : UInt8) : Bool :=
  (byte 'a' ≤ c && c ≤ byte 'z') || (byte 'A' ≤ c && c ≤ byte 'Z') ||
    (byte '0' ≤ c && c ≤ byte '9') || tokenMarks.contains c

def IsToken (name : Bytes) : Prop := name ≠ [] ∧ ∀ c ∈ name, isTchar c

instance (name : Bytes) : Decidable (IsToken name) := inferInstanceAs (Decidable (_ ∧ _))

def isValueByte (c : UInt8) : Bool := c != 0 && c != cr && c != lf

/-- One line, without its end. -/
def readField (line : Bytes) : Option (Bytes × Bytes) :=
  let name := line.takeWhile isTchar
  match line.dropWhile isTchar with
  | [] => none
  | c :: val =>
      if name ≠ [] ∧ c = colon ∧ val.all isValueByte then some (name, trimBlanks val) else none

/-- The carriage return of a line end. -/
def chopCr (line : Bytes) : Bytes := if line.getLast? = some cr then line.dropLast else line

/-- The fields of a section, behind a line begun already. -/
def readFields (line : Bytes) : Bytes → Option (List (Bytes × Bytes))
  | [] => if line = [] then some [] else none
  | c :: text =>
      if c = lf then do
        let field ← readField (chopCr line)
        let fields ← readFields [] text
        return field :: fields
      else readFields (line ++ [c]) text

/-- The names libcurl takes care of itself. -/
def specialNames : List Bytes :=
  [hostName, connection, transferEncoding, authorization, cookie, contentLength, contentType]

def Special (name : Bytes) : Prop := ∃ check ∈ specialNames, casecompare name check

instance (name : Bytes) : Decidable (Special name) :=
  inferInstanceAs (Decidable (∃ check ∈ specialNames, _))

/-- The fields a map stands for. -/
def fieldsOf (headers : Headers) : List (Bytes × Bytes) :=
  headers.toList.map fun entry => (entry.1, trimBlanks entry.2)

/-- The lines of a request are there, and a server reads the map's entries out
of them: each once, in order, and nothing else. -/
def Faithful (method : Method) (headers : Headers) (data : Easy) (req : Dynbuf) : Prop :=
  (headerLines method headers data req).bind (readFields []) =
    some (fieldsOf (method.allHeaders headers))

instance (method : Method) (headers : Headers) (data : Easy) (req : Dynbuf) :
    Decidable (Faithful method headers data req) := inferInstanceAs (Decidable (_ = _))

/-- An entry that comes through: there is something in its value, none of it is
a NUL or a line end, and both parts are within what libcurl reads. -/
def Sendable (key val : Bytes) : Prop :=
  trimBlanks val ≠ [] ∧ (∀ c ∈ val, isValueByte c) ∧
    key.length ≤ maxHeaderSize ∧ val.length < maxHeaderSize

instance (key val : Bytes) : Decidable (Sendable key val) :=
  inferInstanceAs (Decidable (_ ∧ _))

/-- The lines of a list of entries, each with its end. -/
def block (entries : List (Bytes × Bytes)) : Bytes :=
  entries.flatMap fun entry => headerLine entry.1 entry.2 ++ crlf

end UempPlugin.Spec.HeaderFields
