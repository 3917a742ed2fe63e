import UempPlugin.Ref.FileHelper

/-!
# `YamlToolPrivate` over yaml-cpp nodes

A `YAML::Node` without aliases is a tree. What the code sees of one is its
type, the entry under a key or an index, and what a scalar converts to;
`undefined` is the type of the entry that the non-const subscript leaves
behind, never of a node a caller holds. Reading and writing throw through the
same exceptions as the rest of the code, and a call that writes keeps what it
wrote before it threw.

Marks are left out, and with them the position in the text of an error.
-/

namespace UempPlugin.Ref

namespace Yaml

inductive Node where
  | undefined
  | null
  | scalar (text : String)
  | sequence (items : List Node)
  | map (pairs : List (Node × Node))

namespace Node

def isDefined : Node → Bool
  | undefined => false
  | _ => true

def isNull : Node → Bool
  | null => true
  | _ => false

def isSequence : Node → Bool
  | sequence _ => true
  | _ => false

def isScalar : Node → Bool
  | scalar _ => true
  | _ => false

/-- `node::equals`: a key that is not a scalar equals no string. -/
def equals (key : String) : Node → Bool
  | scalar text => text == key
  | _ => false

/-- The entry under `key`, as `std::find_if` finds it. -/
def lookup (key : String) : List (Node × Node) → Option Node
  | [] => none
  | p :: ps => if p.1.equals key then some p.2 else lookup key ps

/-- The const `operator[]` for a string; `none` is the zombie node. -/
def get (key : String) : Node → Except Exn (Option Node)
  | scalar _ => .error (.badSubscript key)
  | map pairs => .ok (lookup key pairs)
  | _ => .ok none

/-- The leading items that are defined. -/
def size : Node → Nat
  | sequence items => (items.takeWhile isDefined).length
  | map pairs => (pairs.filter fun p => p.1.isDefined && p.2.isDefined).length
  | _ => 0

end Node

/-! ## `YAML::convert` -/

/-- `convert<T>::decode`. -/
class Convert (α : Type) where
  decode : String → Option α

def isLower (c : Char) : Bool := 'a' ≤ c && c ≤ 'z'

def isUpper (c : Char) : Bool := 'A' ≤ c && c ≤ 'Z'

/-- UPPERCASE, lowercase or Capitalized. -/
def isFlexibleCase : Text → Bool
  | [] => true
  | c :: rest =>
      (c :: rest).all isLower || isUpper c && (rest.all isLower || rest.all isUpper)

def decodeBool (input : String) : Option Bool :=
  if isFlexibleCase input.toList then
    let name := input.toList.map Char.toLower
    if name = ['y'] ∨ name = ['y', 'e', 's'] ∨ name = ['t', 'r', 'u', 'e'] ∨ name = ['o', 'n'] then
      some true
    else if name = ['n'] ∨ name = ['n', 'o'] ∨ name = ['f', 'a', 'l', 's', 'e'] ∨
        name = ['o', 'f', 'f'] then
      some false
    else none
  else none

/-- `std::isspace` in the classic locale. -/
def isSpace (c : Char) : Bool :=
  c == ' ' || c == '\t' || c == '\n' || c == '\x0b' || c == '\x0c' || c == '\r'

/-- The value of a digit, when it is below `base`. -/
def digit (base : Nat) (c : Char) : Option Nat :=
  let d :=
    if '0' ≤ c ∧ c ≤ '9' then c.toNat - '0'.toNat
    else if isLower c then c.toNat - 'a'.toNat + 10
    else if isUpper c then c.toNat - 'A'.toNat + 10
    else base
  if d < base then some d else none

/-- The number at the front of `cs`, how many digits it has, and what follows
them. -/
def takeNumber (base : Nat) (cs : Text) : Nat × Nat × Text :=
  let digits := cs.takeWhile fun c => (digit base c).isSome
  (digits.foldl (fun n c => base * n + (digit base c).getD 0) 0, digits.length,
    cs.drop digits.length)

/-- An optional sign. -/
def takeSign : Text → Int × Text
  | '-' :: cs => (-1, cs)
  | '+' :: cs => (1, cs)
  | cs => (1, cs)

/-- The base a number is in when the stream has none, and its digits. -/
def takeBase : Text → Nat × Text
  | '0' :: 'x' :: cs => (16, cs)
  | '0' :: 'X' :: cs => (16, cs)
  | '0' :: cs => (8, '0' :: cs)
  | cs => (10, cs)

/-- The values of a 32-bit `int`. -/
def intMin : Int := -2147483648

def intMax : Int := 2147483647

/-- `std::stringstream` with `noskipws` and no base set, up to trailing space. -/
def decodeInt (input : String) : Option Int :=
  let (sign, cs) := takeSign input.toList
  let (base, cs) := takeBase cs
  let (n, count, rest) := takeNumber base cs
  if count = 0 ∨ ¬ rest.all isSpace then none
  else if intMin ≤ sign * n ∧ sign * n ≤ intMax then some (sign * n)
  else none

instance : Convert String := ⟨some⟩

instance : Convert Bool := ⟨decodeBool⟩

instance : Convert Int := ⟨decodeInt⟩

/-- `std::stoi`: leading space, a sign, decimal digits, anything. -/
def stoi (input : String) : Option Int :=
  let (sign, cs) := takeSign (input.toList.dropWhile isSpace)
  let (n, count, _) := takeNumber 10 cs
  if count = 0 then none
  else if intMin ≤ sign * n ∧ sign * n ≤ intMax then some (sign * n)
  else none

/-! ## Reading -/

/-- `YamlToolPrivate::getNode`. -/
def getNode (node : Node) (nodeName : String) : Except Exn Node :=
  if !node.isNull && node.isDefined then do
    match ← node.get nodeName with
    | some child => return if child.isDefined then child else .null
    | none => return .null
  else return .null

/-- `YamlToolPrivate::getSequenceNode`. -/
def getSequenceNode (node : Node) (index : Nat) : Node :=
  match node with
  | .sequence items =>
      if index < node.size then
        match items[index]? with
        | some child => if child.isDefined then child else .null
        | none => .null
      else .null
  | _ => .null

/-- What `_getDef` throws for a value that does not convert. -/
def wrongType (key : String) : Exn :=
  .runtimeError ("wrong type for key: " ++ key ++ " (bad conversion)")

/-- `YamlTool::getDef` and the `_getDef` behind it. The zombie node of a
missing key makes the test for null throw `InvalidNode`, which is caught. -/
def getDef {α : Type} [Convert α] (node : Node) (key : String) (dflt : α) : Except Exn α :=
  if node.isNull then return dflt
  else do
    match ← node.get key with
    | none => return dflt
    | some .null => return dflt
    | some .undefined => return dflt
    | some (.scalar text) =>
        match Convert.decode text with
        | some value => return value
        | none => throw (wrongType key)
    | some _ => throw (wrongType key)

/-! ## Writing -/

/-- `convert_sequence_to_map`: the items under their indices. -/
def indexed (items : List Node) : List (Node × Node) :=
  items.zipIdx.map fun p => (.scalar (toString p.2), p.1)

/-- The entries of a node that is made a map. -/
def Node.toPairs (key : String) : Node → Except Exn (List (Node × Node))
  | .scalar _ => .error (.badSubscript key)
  | .map pairs => .ok pairs
  | .sequence items => .ok (indexed items)
  | _ => .ok []

/-- The entry under `key`, made if there is none, set to `value`. -/
def insert (key : String) (value : Node) : List (Node × Node) → List (Node × Node)
  | [] => [(.scalar key, value)]
  | p :: ps => if p.1.equals key then (p.1, value) :: ps else p :: insert key value ps

/-- The non-const `operator[]`: the node becomes a map and gains an undefined
entry if it has none under `key`. Returns the entry. -/
def subscript (key : String) : EStateM Exn Node Node := fun node =>
  match node.toPairs key with
  | .error e => .error e node
  | .ok pairs =>
      match Node.lookup key pairs with
      | some child => .ok child (.map pairs)
      | none => .ok .undefined (.map (insert key .undefined pairs))

/-- `node[key] = value`. -/
def assign (key : String) (value : Node) : EStateM Exn Node Unit := do
  let _ ← subscript key
  modify fun node =>
    match node with
    | .map pairs => .map (insert key value pairs)
    | other => other

/-- `YamlToolPrivate::_setDef` for a string. -/
def setDef (key : String) (value : String) : EStateM Exn Node Bool := do
  let child ← subscript key
  -- every scalar reads as a string
  if child.isDefined && child.isScalar then return false
  if !(← get).isDefined then throw (.runtimeError "invalid node")
  assign key (.scalar value)
  return true

/-- `YamlToolPrivate::addNode`. -/
def addNode (key : String) (value : Node) : EStateM Exn Node Unit := do
  if !(← get).isDefined || !value.isDefined then throw (.runtimeError "invalid node")
  assign key value

/-- `YamlToolPrivate::pushBack`. -/
def pushBack (value : Node) : EStateM Exn Node Unit := do
  let node ← get
  if !node.isDefined || !value.isDefined then throw (.runtimeError "invalid node")
  match node with
  | .sequence items => set (Node.sequence (items ++ [value]))
  | .null => set (Node.sequence [value])
  | .undefined => set (Node.sequence [value])
  | _ => throw (.runtimeError "appending to a non-sequence")

end Yaml

end UempPlugin.Ref
