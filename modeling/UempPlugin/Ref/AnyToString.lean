import UempPlugin.Lib.CodePoints
import UempPlugin.Ref.Logger

/-!
# From values to the text of a message

`LoggerUtil`, where a table of conversions is looked up with the type of a
`std::any`, and `LogPrivate` above it, which links the texts. This is the
branch of everything but Windows, where `wchar_t` has 32 bits and wide text
goes through `std::wstring_convert`. What the standard library writes for
floating-point numbers and for the names of types is a parameter.
-/

namespace UempPlugin.Ref

open UempPlugin.Lib

namespace LoggerUtil

/-- `std::type_index`: the types of the table, `nullptr_t` and the others.
`size_t` and `uint64_t` may be one type; their entries do the same. -/
inductive TypeIndex where
  | string | constCharPtr | charPtr
  | int | unsignedInt | long | longLong | float | double | sizeT | uint64T | bool
  | wstring | wcharPtr | constWcharPtr
  | nullptrT
  | other (name : String)
deriving DecidableEq

/-- What a pointer that is not null points to, up to its terminator. -/
structure CStr (α : Type) [OfNat α 0] where
  chars : List α
  unterminated : 0 ∉ chars

/-- The values of a type. Those of the last two are not looked at. -/
abbrev TypeIndex.Value : TypeIndex → Type
  | .string => List UInt8
  | .constCharPtr | .charPtr => Option (CStr UInt8)
  | .int => Int32
  | .unsignedInt => UInt32
  | .long | .longLong => Int64
  | .float => Float32
  | .double => Float
  | .sizeT | .uint64T => UInt64
  | .bool => Bool
  | .wstring => List UInt32
  | .wcharPtr | .constWcharPtr => Option (CStr UInt32)
  | .nullptrT | .other _ => Unit

/-- `std::any`. -/
inductive Any where
  | empty
  | value (type : TypeIndex) (v : type.Value)

/-- `std::to_string` of a `float` and of a `double`, `std::to_chars` unless it
fails, and `type_info::name`. -/
structure Platform where
  floatToString : Float32 → List UInt8
  doubleToString : Float → List UInt8
  toChars : Float → Option (List UInt8)
  typeName : TypeIndex → String

/-- `std::to_string` of an integer. -/
def intToString (n : Int) : List UInt8 := utf8 (toString n).toList

def floatingNumToString (P : Platform) (value : Float) : List UInt8 :=
  if value == 0.0 || value == -0.0 then utf8 ['0']
  else (P.toChars value).getD (P.doubleToString value)

/-- `std::range_error`, a `runtime_error`. -/
def rangeError : Exn := .runtimeError "wstring_convert::to_bytes"

/-- `std::wstring_convert<std::codecvt_utf8_utf16<wchar_t>>::to_bytes` of the
units before the terminator. A high surrogate at the end is no error: the facet
stops in front of it, and it is dropped. -/
def toBytes (units : List UInt32) : Except Exn (List UInt8) :=
  match scalars (whole units) with
  | some cs => .ok (utf8 cs)
  | none => .error rangeError

/-- What is before the first terminator behind `wstr.data()`. A wide string is
followed by one. -/
def data (wstr : List UInt32) : List UInt32 := wstr.takeWhile (· ≠ 0)

def wstringToUtf8 (wstr : List UInt32) : Except Exn (List UInt8) :=
  if wstr.isEmpty then .ok [] else toBytes (data wstr)

/-- A null pointer is read all the same. -/
def deref {α : Type} [OfNat α 0] (f : List α → Except Exn (List UInt8)) :
    Option (CStr α) → Except Exn (List UInt8)
  | none => .error .crash
  | some p => f p.chars

/-- An entry of the table: the `any_cast` in it is to the type it stands for. -/
structure AnyConverter where
  type : TypeIndex
  convert : type.Value → Except Exn (List UInt8)

def getConverters (P : Platform) : List AnyConverter := [
  ⟨.string, fun (a : List UInt8) => .ok a⟩,
  ⟨.constCharPtr, deref .ok⟩,
  ⟨.charPtr, deref .ok⟩,
  ⟨.int, fun (a : Int32) => .ok (intToString a.toInt)⟩,
  ⟨.unsignedInt, fun (a : UInt32) => .ok (intToString a.toNat)⟩,
  ⟨.long, fun (a : Int64) => .ok (intToString a.toInt)⟩,
  ⟨.longLong, fun (a : Int64) => .ok (intToString a.toInt)⟩,
  ⟨.float, fun (a : Float32) => .ok (P.floatToString a)⟩,
  ⟨.double, fun (a : Float) => .ok (floatingNumToString P a)⟩,
  ⟨.sizeT, fun (a : UInt64) => .ok (intToString a.toNat)⟩,
  ⟨.uint64T, fun (a : UInt64) => .ok (intToString a.toNat)⟩,
  ⟨.bool, fun (a : Bool) => .ok (utf8 (if a then "true" else "false").toList)⟩,
  ⟨.wstring, fun (a : List UInt32) => wstringToUtf8 a⟩,
  ⟨.wcharPtr, deref wstringToUtf8⟩,
  ⟨.constWcharPtr, deref wstringToUtf8⟩]

/-- `converters.find`. -/
def find (type : TypeIndex) : List AnyConverter → Option (type.Value → Except Exn (List UInt8))
  | [] => none
  | c :: converters => if h : c.type = type then some (h ▸ c.convert) else find type converters

def anyToString (P : Platform) : Any → Except Exn (Option (List UInt8))
  | .empty => .ok none
  | .value type v =>
      if type = .nullptrT then .ok none
      else
        match find type (getConverters P) with
        | some convert => (convert v).map some
        | none => .ok none

end LoggerUtil

namespace Log.Typed

open LoggerUtil (Platform rangeError)

variable {W : World} (P : Platform)

def anyToString (foreign : CallbackSink → Bool) (src : SourceLine) :
    LoggerUtil.Any → LogM W (List UInt8)
  | .empty => do
      logMessage foreign ⟨.debug, src.format " anyToString: empty std::any"⟩
      return []
  | .value type v => do
      if type = .nullptrT then
        logMessage foreign
          ⟨.warn, src.format " anyToString: std::any holds nullptr_t (prefer empty std::any)"⟩
        return []
      match ← read (LoggerUtil.anyToString P (.value type v)) with
      | none =>
          logMessage foreign
            ⟨.debug, src.format (" anyToString: convert failed, type=" ++ P.typeName type)⟩
          return []
      | some res => return res

/-- The loop over the messages. -/
def linkLoop (foreign : CallbackSink → Bool) (src : SourceLine) :
    List LoggerUtil.Any → List UInt8 → LogM W (List UInt8)
  | [], linkStr => return linkStr
  | msg :: msgList, linkStr => do
      let msgStr ← anyToString P foreign src msg
      linkLoop foreign src msgList (linkStr ++ msgStr)

def linkString (foreign : CallbackSink → Bool) (src : SourceLine)
    (msgList : List LoggerUtil.Any) : LogM W (List UInt8) := do
  if msgList.length = 0 then return []
  linkLoop P foreign src msgList []

/-- A `std::string` as the text of a message: a character for each byte. -/
def bytesText (bytes : List UInt8) : String :=
  String.ofList (bytes.map fun b => Char.ofNat b.toNat)

def logImpl (foreign : CallbackSink → Bool) (src : SourceLine) (msgList : List LoggerUtil.Any)
    (showLine : Bool) (level : Level) : LogM W Unit := do
  let msg ← linkString P foreign src msgList
  if msgList.length = 1 ∧ msg = [] then logMessage foreign ⟨level, src.format " 日志内容为空"⟩
  else if msgList.length > 1 ∧ msg = [] then
    logMessage foreign ⟨level, src.format " 日志打印失败，数据类型转换错误"⟩
  else if !showLine then logMessage foreign ⟨level, bytesText msg⟩
  else logMessage foreign ⟨level, src.format (bytesText msg)⟩

end Log.Typed

end UempPlugin.Ref
