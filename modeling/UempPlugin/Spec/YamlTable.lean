import Std.Data.ExtTreeMap
import UempPlugin.Ref.YamlTool

/-!
# A node as a finite map

Under the calls of `YamlTool` a node is meant to be a finite map from strings
to nulls and scalars. The map here knows no placeholders: a key is in it or
not. A call that the node refuses by throwing has no reply, and leaves the map
as it is.
-/

namespace UempPlugin.Ref.YamlTool

open Yaml (Node)

variable {Double : Type} [DoubleText Double]

/-! ## Calls on a node -/

/-- The calls that name a key, with their arguments. -/
inductive Op (Double : Type) where
  | set (key : String) (value : Any Double)
  | setDef (key : String) (value : Any Double)
  | setNull (key : String)
  | setNullDef (key : String)
  | getDef (key : String) (dflt : Any Double)

inductive Reply (Double : Type) where
  | done
  | wrote (written : Bool)
  | value (value : Any Double)

def Op.call : Op Double → EStateM Exn Node (Reply Double)
  | set key value => do
      YamlTool.set key value
      return .done
  | setDef key value => do
      let written ← YamlTool.setDef key value
      return .wrote written
  | setNull key => do
      YamlTool.setNull key
      return .done
  | setNullDef key => do
      let written ← YamlTool.setNullDef key
      return .wrote written
  | getDef key dflt => fun node =>
      match YamlTool.getDef node key dflt with
      | .ok value => .ok (.value value) node
      | .error e => .error e node

/-- The reply of a call that returned, and the node after the call. -/
def Op.step (node : Node) (op : Op Double) : Option (Reply Double) × Node :=
  match op.call node with
  | .ok reply node' => (some reply, node')
  | .error _ node' => (none, node')

/-! ## Calls on the map -/

inductive Cell where
  | null
  | scalar (text : String)

abbrev Table := Std.ExtTreeMap String Cell

namespace Table

/-- A write: the value's text goes under the key. -/
def put (t : Table) (key : String) (value : Any Double) (reply : Reply Double) :
    Option (Reply Double) × Table :=
  match value.encode with
  | .ok text => (some reply, t.insert key (.scalar text))
  | .error _ => (none, t)

def step (t : Table) : Op Double → Option (Reply Double) × Table
  | .set key value => t.put key value .done
  | .setDef key value =>
      match t[key]? with
      | some (.scalar text) =>
          if (decodeAs value.type text : Option (Any Double)).isSome then
            (some (.wrote false), t)
          else (none, t)
      | some .null => t.put key value (.wrote true)
      | none => t.put key value (.wrote true)
  | .setNull key => (some .done, t.insert key .null)
  | .setNullDef key =>
      if (t[key]?).isSome then (some (.wrote false), t)
      else (some (.wrote true), t.insert key .null)
  | .getDef key dflt =>
      match t[key]? with
      | some (.scalar text) =>
          match decodeAs dflt.type text with
          | some value => (some (.value value), t)
          | none => (none, t)
      | some .null => (some (.value dflt), t)
      | none => (some (.value dflt), t)

end Table

/-! ## Runs -/

/-- The replies of a sequence of calls, and the state after them. -/
def replies {σ : Type} (step : σ → Op Double → Option (Reply Double) × σ) (s : σ) :
    List (Op Double) → List (Option (Reply Double)) × σ
  | [] => ([], s)
  | op :: ops =>
      ((step s op).1 :: (replies step (step s op).2 ops).1, (replies step (step s op).2 ops).2)

/-! ## What is seen of a node -/

/-- What a node has under a key; a placeholder is not seen. -/
def entry (key : String) : Node → Option Node
  | .map pairs => (Node.lookup key pairs).filter Node.isDefined
  | _ => none

def Cell.node : Cell → Node
  | null => .null
  | scalar text => .scalar text

/-- The node is a map, or null and thus empty. -/
def Keyed (node : Node) : Prop := node = .null ∨ ∃ pairs, node = .map pairs

/-- Key by key the node has what the map has. -/
structure Holds (node : Node) (t : Table) : Prop where
  keyed : Keyed node
  cells : ∀ key, entry key node = (t[key]?).map Cell.node

end UempPlugin.Ref.YamlTool
