import UempPlugin.Ref.DateFormat
import UempPlugin.Ref.Yaml

/-!
# `YamlTool`: values of any type under the keys of a node

The templates of `YamlTool` pass their values on as `std::any`, and
`TypeRegistry` finds the functions that read and write them by the type that is
inside. The constructor of `YamlToolPrivate` registers `int`, `bool`, `double`
and `std::string`; of a value of any other type only the name of that type is
ever used.

`double` is a parameter with yaml-cpp's two conversions. `encode` prints
`max_digits10` digits, so that reading gives the value back; all the values
that print as `.nan` are one here.
-/

namespace UempPlugin.Ref.YamlTool

open Yaml (Node Convert intMin intMax wrongType)

/-! ## Values -/

/-- `int`. -/
abbrev CInt : Type := { v : Int // intMin ≤ v ∧ v ≤ intMax }

instance : Convert CInt where
  decode input :=
    (Yaml.decodeInt input).bind fun v => if h : intMin ≤ v ∧ v ≤ intMax then some ⟨v, h⟩ else none

/-- `double` with `convert<double>`. -/
class DoubleText (Double : Type) extends Convert Double where
  encode : Double → String
  decode_encode : ∀ x, decode (encode x) = some x

/-- `std::type_index`. -/
inductive TypeIndex where
  | int
  | bool
  | double
  | string
  | other (name : String)
deriving DecidableEq, Repr

/-- `std::any`. -/
inductive Any (Double : Type) where
  | int (v : CInt)
  | bool (v : Bool)
  | double (v : Double)
  | string (v : String)
  | other (typeName : String)

/-- Was `registerType` called for it? -/
def TypeIndex.registered : TypeIndex → Bool
  | other _ => false
  | _ => true

def Any.type {Double : Type} : Any Double → TypeIndex
  | int _ => .int
  | bool _ => .bool
  | double _ => .double
  | string _ => .string
  | other name => .other name

variable {Double : Type} [DoubleText Double]

/-- The text `convert<T>::encode` gives a value; of a type that is not
registered only the name is left. -/
def Any.encode : Any Double → Except String String
  | int v => .ok (String.ofList (intText v.val))
  | bool v => .ok (if v then "true" else "false")
  | double v => .ok (DoubleText.encode v)
  | string v => .ok v
  | other name => .error name

/-- `convert<T>::decode` of a scalar. -/
def decodeAs (type : TypeIndex) (text : String) : Option (Any Double) :=
  match type with
  | .int => (Convert.decode text).map .int
  | .bool => (Convert.decode text).map .bool
  | .double => (Convert.decode text).map .double
  | .string => (Convert.decode text).map .string
  | .other _ => none

/-! ## `TypeRegistry` -/

/-- What may be thrown while a value is read. -/
inductive ReadError where
  | invalidNode
  | badConversion
  | runtimeError (what : String)

/-- `TypeRegistry::read`. `as<std::string>` takes null for a word and tells an
undefined node from one that does not convert. -/
def TypeRegistry.read (node : Node) (type : TypeIndex) : Except ReadError (Any Double) :=
  match type, node with
  | .other name, _ => .error (.runtimeError ("unsupported type in read: " ++ name))
  | .string, .null => .ok (.string "null")
  | .string, .undefined => .error .invalidNode
  | type, .scalar text =>
      match decodeAs type text with
      | some value => .ok value
      | none => .error .badConversion
  | _, _ => .error .badConversion

/-- `TypeRegistry::write`. -/
def TypeRegistry.write (key : String) (value : Any Double) : EStateM Exn Node Unit :=
  match value.encode with
  | .ok text => Yaml.assign key (.scalar text)
  | .error name => throw (.runtimeError ("unsupported type in write: " ++ name))

/-! ## The calls -/

/-- `_set`. -/
def set (key : String) (value : Any Double) : EStateM Exn Node Unit := do
  if !(← get).isDefined then throw (.runtimeError "invalid node")
  TypeRegistry.write key value

/-- `_setDef`. Looking at `node[key]` again finds the same entry. -/
def setDef (key : String) (value : Any Double) : EStateM Exn Node Bool := do
  let child ← Yaml.subscript key
  if child.isDefined && child.isScalar then
    match (TypeRegistry.read child value.type : Except ReadError (Any Double)) with
    | .ok _ => return false
    | .error _ => throw (.runtimeError ("wrong type for key: " ++ key))
  else
    set key value
    return true

/-- `setNull`. -/
def setNull (key : String) : EStateM Exn Node Unit := Yaml.assign key .null

/-- `setNullDef`. -/
def setNullDef (key : String) : EStateM Exn Node Bool := do
  let child ← Yaml.subscript key
  if child.isDefined then return false
  else
    Yaml.assign key .null
    return true

/-- `_getDef`, of `YamlTool` and of `YamlToolPrivate`. -/
def anyDef (node : Node) (key : String) (dflt : Any Double) : Except Exn (Any Double) :=
  if node.isNull then .ok dflt
  else
    match node.get key with
    | .error e => .error e
    -- the zombie node throws `InvalidNode`
    | .ok none => .ok dflt
    | .ok (some child) =>
        if child.isNull || !child.isDefined then .ok dflt
        else
          match TypeRegistry.read child dflt.type with
          | .ok value => .ok value
          | .error .invalidNode => .ok dflt
          | .error .badConversion => .error (wrongType key)
          | .error (.runtimeError what) => .error (.runtimeError what)

/-- `getDef<T>`: what is not a `T` is not cast to one. -/
def getDef (node : Node) (key : String) (dflt : Any Double) : Except Exn (Any Double) := do
  let value ← anyDef node key dflt
  return if value.type = dflt.type then value else dflt

end UempPlugin.Ref.YamlTool
