import Std.Data.String.ToNat
import UempPlugin.Lib.Simulation
import UempPlugin.Proofs.YamlTable

/-!
# What a failed call leaves of a node

Every call that writes checks before it touches the node, but `setDef`: it
looks at the entry first, with the subscript that makes a map of a null node or
a sequence, and an entry where there is none. When the value is then refused,
the node has become a map for nothing, or has an entry that is not defined: few
functions see it, but it keeps its place among the keys, and the const
subscript no longer finds a zombie there.
-/

namespace UempPlugin.Ref.YamlTool

open UempPlugin.Lib
open Yaml (Node subscript assign indexed)

variable {Double : Type} [DoubleText Double]

/-! ## The calls -/

/-- The calls that write. -/
inductive Mutator (Double : Type) where
  | set (key : String) (value : Any Double)
  | setDef (key : String) (value : Any Double)
  | setNull (key : String)
  | setNullDef (key : String)
  | addNode (key : String) (value : Node)
  | pushBack (value : Node)

def Mutator.call : Mutator Double → EStateM Exn Node Unit
  | set key value => YamlTool.set key value
  | setDef key value => YamlTool.setDef key value >>= fun _ => pure ()
  | setNull key => YamlTool.setNull key
  | setNullDef key => YamlTool.setNullDef key >>= fun _ => pure ()
  | addNode key value => Yaml.addNode key value
  | pushBack value => Yaml.pushBack value

/-- The value cannot go where this entry is. -/
def Refused (value : Any Double) (child : Node) : Prop :=
  value.type.registered = false ∨
    ∃ text, child = Node.scalar text ∧ (decodeAs value.type text : Option (Any Double)) = none

/-- `setDef` refuses the value on a node that its subscript changes: on null or
on a map without the key for its type, on a sequence for its type or for the
item whose index the key spells. -/
inductive Converts : Mutator Double → Node → Prop where
  | null {key : String} {value : Any Double} (h : value.type.registered = false) :
      Converts (.setDef key value) .null
  | sequence {key : String} {value : Any Double} {items : List Node}
      (h : value.type.registered = false) :
      Converts (.setDef key value) (.sequence items)
  | item {value : Any Double} {items : List Node} {i : Nat} {text : String}
      (hitem : items[i]? = some (.scalar text))
      (h : (decodeAs value.type text : Option (Any Double)) = none) :
      Converts (.setDef (toString i) value) (.sequence items)
  | missing {key : String} {value : Any Double} {pairs : List (Node × Node)}
      (hmissing : Node.lookup key pairs = none) (h : value.type.registered = false) :
      Converts (.setDef key value) (.map pairs)

/-! ## Where a call throws -/

theorem wrote_error {f : EStateM Exn Node Unit} {node node' : Node} {e : Exn}
    (h : wrote f node = .error e node') : f node = .error e node' := by
  rw [wrote] at h
  cases hf : f node with
  | ok a node'' =>
      rw [hf] at h
      cases h
  | error e' node'' =>
      rw [hf] at h
      cases h
      rfl

theorem subscript_error {key : String} {node node' : Node} {e : Exn}
    (h : subscript key node = .error e node') : node' = node := by
  rw [subscript] at h
  split at h
  · cases h
    rfl
  · split at h
    · cases h
    · cases h

/-- The subscript leaves a map, in which the entry is what it returns. -/
theorem subscript_ok {key : String} {node node' child : Node}
    (h : subscript key node = .ok child node') :
    ∃ pairs, node' = .map pairs := by
  rw [subscript] at h
  split at h
  · cases h
  · split at h
    · cases h
      exact ⟨_, rfl⟩
    · cases h
      exact ⟨_, rfl⟩

theorem assign_error {key : String} {node node' value : Node} {e : Exn}
    (h : assign key value node = .error e node') : node' = node := by
  rcases bind_error h with h | ⟨child, node'', _, h⟩
  · exact subscript_error h
  · cases h

theorem set_error {key : String} {value : Any Double} {node node' : Node} {e : Exn}
    (hdefined : node.isDefined = true) (h : set key value node = .error e node') :
    node' = node := by
  rw [set_eq hdefined, TypeRegistry.write] at h
  cases hvalue : value.encode with
  | ok text =>
      rw [hvalue] at h
      exact assign_error h
  | error name =>
      rw [hvalue] at h
      cases h
      rfl

/-- A map takes every value of a registered type. -/
theorem set_map_error {key : String} {value : Any Double} {pairs : List (Node × Node)} {node' : Node}
    {e : Exn} (h : set key value (.map pairs) = .error e node') :
    node' = .map pairs ∧ value.type.registered = false := by
  refine ⟨set_error rfl h, ?_⟩
  by_contra hregistered
  rw [Bool.not_eq_false] at hregistered
  obtain ⟨text, htext⟩ := encode_of_registered hregistered
  obtain ⟨pairs', hset, _⟩ := set_keyed (.inr ⟨pairs, rfl⟩) key htext
  rw [hset] at h
  cases h

theorem setDef_error {key : String} {value : Any Double} {node node' : Node} {e : Exn}
    (h : setDef key value node = .error e node') :
    node' = node ∨ ∃ child, subscript key node = .ok child node' ∧ Refused value child := by
  cases hsubscript : subscript key node with
  | error e' node'' =>
      have hthrow : setDef key value node = .error e' node'' := bind_of_error hsubscript
      rw [hthrow] at h
      cases h
      exact .inl (subscript_error hsubscript)
  | ok child node'' =>
      refine .inr ⟨child, ?_⟩
      rw [setDef_eq value hsubscript] at h
      have hset : wrote (set key value) node'' = .error e node' →
          node' = node'' ∧ Refused value child := by
        intro hwrote
        obtain ⟨pairs, rfl⟩ := subscript_ok hsubscript
        obtain ⟨rfl, hregistered⟩ := set_map_error (wrote_error hwrote)
        exact ⟨rfl, .inl hregistered⟩
      cases child with
      | scalar text =>
          rw [setDefOn] at h
          split at h
          · cases h
          · next hread =>
              cases h
              exact ⟨rfl, .inr ⟨text, rfl, Option.not_isSome_iff_eq_none.1 hread⟩⟩
      | _ =>
          obtain ⟨rfl, hrefused⟩ := hset h
          exact ⟨rfl, hrefused⟩

theorem decodeAs_unregistered {value : Any Double} (h : value.type.registered = false)
    (text : String) : (decodeAs value.type text : Option (Any Double)) = none := by
  obtain ⟨name, rfl⟩ := encode_of_unregistered h
  rfl

theorem setDef_refused {key : String} {value : Any Double} {node node' child : Node}
    (hsubscript : subscript key node = .ok child node') (h : Refused value child) :
    ∃ e, setDef key value node = .error e node' := by
  rw [setDef_eq value hsubscript]
  have hscalar : ∀ text, (decodeAs value.type text : Option (Any Double)) = none →
      ∃ e, setDefOn key value (.scalar text) node' = .error e node' := by
    intro text hread
    rw [setDefOn, hread]
    exact ⟨_, rfl⟩
  rcases h with hregistered | ⟨text, rfl, hread⟩
  · obtain ⟨pairs, rfl⟩ := subscript_ok hsubscript
    have hdefined : (Node.map pairs).isDefined = true := rfl
    have hvalue : ∃ name, value.encode = .error name := by
      obtain ⟨name, rfl⟩ := encode_of_unregistered hregistered
      exact ⟨name, rfl⟩
    obtain ⟨name, hname⟩ := hvalue
    obtain ⟨e, hset⟩ := set_unregistered hdefined key hname
    have hwrote : wrote (set key value) (.map pairs) = .error e (.map pairs) := by
      rw [wrote, hset]
    cases child with
    | scalar text => exact hscalar text (decodeAs_unregistered hregistered text)
    | _ => exact ⟨e, hwrote⟩
  · exact hscalar text hread

/-! ## The items of a sequence that became a map -/

theorem lookup_indexed {key : String} {items : List Node} {child : Node} :
    Node.lookup key (indexed items) = some child ↔
      ∃ i : Nat, toString i = key ∧ items[i]? = some child := by
  have hfrom : ∀ (items : List Node) (n : Nat),
      Node.lookup key ((items.zipIdx n).map fun p => (.scalar (toString p.2), p.1)) = some child ↔
        ∃ i : Nat, toString (n + i) = key ∧ items[i]? = some child := by
    intro items
    induction items with
    | nil => simp [Node.lookup]
    | cons x items ih =>
        intro n
        rw [List.zipIdx_cons, List.map_cons, Node.lookup]
        simp only [Node.equals, beq_iff_eq]
        split
        · next hkey =>
            constructor
            · intro h
              exact ⟨0, hkey, h⟩
            · rintro ⟨i, hi, hitem⟩
              have hn : n + i = n := Nat.repr_injective (hi.trans hkey.symm)
              obtain rfl : i = 0 := by omega
              exact hitem
        · next hkey =>
            rw [ih]
            constructor
            · rintro ⟨i, hi, hitem⟩
              exact ⟨i + 1, by rw [← hi]; congr 1; omega, hitem⟩
            · rintro ⟨i, hi, hitem⟩
              cases i with
              | zero => exact absurd hi hkey
              | succ i => exact ⟨i, by rw [← hi]; congr 1; omega, hitem⟩
  rw [indexed, hfrom]
  simp only [Nat.zero_add]

theorem subscript_sequence (key : String) (items : List Node) :
    subscript key (.sequence items) =
      match Node.lookup key (indexed items) with
      | some child => .ok child (.map (indexed items))
      | none => .ok .undefined (.map (Yaml.insert key .undefined (indexed items))) := rfl

theorem subscript_map (key : String) (pairs : List (Node × Node)) :
    subscript key (.map pairs) =
      match Node.lookup key pairs with
      | some child => .ok child (.map pairs)
      | none => .ok .undefined (.map (Yaml.insert key .undefined pairs)) := rfl

/-- A new entry makes another map. -/
theorem insert_ne {key : String} {pairs : List (Node × Node)} (h : Node.lookup key pairs = none) :
    Node.map (Yaml.insert key .undefined pairs) ≠ .map pairs := by
  intro he
  have hlen := congrArg List.length (Node.map.inj he)
  rw [insert_new _ h, List.length_append, List.length_singleton] at hlen
  omega

/-! ## Which calls leave a trace -/

theorem addNode_error {key : String} {value node node' : Node} {e : Exn}
    (h : Yaml.addNode key value node = .error e node') : node' = node := by
  have hcall : Yaml.addNode key value node =
      if node.isDefined && value.isDefined then assign key value node
      else .error (.runtimeError "invalid node") node := by
    cases node <;> cases value <;> rfl
  rw [hcall] at h
  split at h
  · exact assign_error h
  · cases h
    rfl

theorem pushBack_error {value node node' : Node} {e : Exn}
    (h : Yaml.pushBack value node = .error e node') : node' = node := by
  cases node <;> cases value <;> cases h <;> rfl

theorem setNullDef_error {key : String} {node node' : Node} {e : Exn}
    (h : setNullDef key node = .error e node') : node' = node := by
  cases hsubscript : subscript key node with
  | error e' node'' =>
      have hthrow : setNullDef key node = .error e' node'' := bind_of_error hsubscript
      rw [hthrow] at h
      cases h
      exact subscript_error hsubscript
  | ok child node'' =>
      obtain ⟨pairs, rfl⟩ := subscript_ok hsubscript
      obtain ⟨pairs', hset, _⟩ := setNull_keyed (.inr ⟨pairs, rfl⟩) key
      rw [setNullDef_eq hsubscript] at h
      split at h
      · cases h
      · have hnull := wrote_error h
        rw [hset] at hnull
        cases hnull

/-- A call that throws has changed nothing, or is a `setDef` whose value was
refused. -/
theorem call_error {op : Mutator Double} {node node' : Node} {e : Exn}
    (hdefined : node.isDefined = true) (h : op.call node = .error e node') :
    node' = node ∨ ∃ key value child, op = .setDef key value ∧
      subscript key node = .ok child node' ∧ Refused value child := by
  cases op with
  | set key value => exact .inl (set_error hdefined h)
  | setDef key value =>
      rcases bind_error h with h | ⟨_, _, _, h⟩
      · rcases setDef_error h with h | ⟨child, hsubscript, hrefused⟩
        · exact .inl h
        · exact .inr ⟨key, value, child, rfl, hsubscript, hrefused⟩
      · cases h
  | setNull key => exact .inl (assign_error h)
  | setNullDef key =>
      rcases bind_error h with h | ⟨_, _, _, h⟩
      · exact .inl (setNullDef_error h)
      · cases h
  | addNode key value => exact .inl (addNode_error h)
  | pushBack value => exact .inl (pushBack_error h)

/-- What `setDef` refuses on a node that its subscript has changed. -/
theorem converts_of_refused {key : String} {value : Any Double} {node node' child : Node}
    (hsubscript : subscript key node = .ok child node') (hrefused : Refused value child)
    (hchanged : node' ≠ node) (hdefined : node.isDefined = true) :
    Converts (.setDef key value) node := by
  cases node with
  | undefined => cases hdefined
  | null =>
      rcases hrefused with hregistered | ⟨text, rfl, _⟩
      · exact .null hregistered
      · cases hsubscript
  | scalar text => cases hsubscript
  | sequence items =>
      rcases hrefused with hregistered | ⟨text, rfl, hread⟩
      · exact .sequence hregistered
      · rw [subscript_sequence] at hsubscript
        cases hl : Node.lookup key (indexed items) with
        | none =>
            rw [hl] at hsubscript
            cases hsubscript
        | some child =>
            rw [hl] at hsubscript
            cases hsubscript
            obtain ⟨i, rfl, hitem⟩ := lookup_indexed.1 hl
            exact .item hitem hread
  | map pairs =>
      rw [subscript_map] at hsubscript
      cases hl : Node.lookup key pairs with
      | some child =>
          rw [hl] at hsubscript
          cases hsubscript
          exact absurd rfl hchanged
      | none =>
          rw [hl] at hsubscript
          cases hsubscript
          rcases hrefused with hregistered | ⟨text, he, _⟩
          · exact .missing hl hregistered
          · cases he

theorem refused_of_converts {op : Mutator Double} {node : Node} (h : Converts op node) :
    ∃ key value child node', op = .setDef key value ∧ subscript key node = .ok child node' ∧
      Refused value child ∧ node' ≠ node := by
  cases h with
  | null hregistered => exact ⟨_, _, _, _, rfl, rfl, .inl hregistered, nofun⟩
  | @sequence key value items hregistered =>
      have hsubscript := subscript_sequence key items
      cases hl : Node.lookup key (indexed items) with
      | some child =>
          rw [hl] at hsubscript
          exact ⟨key, value, child, _, rfl, hsubscript, .inl hregistered, nofun⟩
      | none =>
          rw [hl] at hsubscript
          exact ⟨key, value, .undefined, _, rfl, hsubscript, .inl hregistered, nofun⟩
  | @item value items i text hitem hread =>
      have hsubscript := subscript_sequence (toString i) items
      rw [lookup_indexed.2 ⟨i, rfl, hitem⟩] at hsubscript
      exact ⟨_, value, _, _, rfl, hsubscript, .inr ⟨text, rfl, hread⟩, nofun⟩
  | @missing key value pairs hmissing hregistered =>
      have hsubscript := subscript_map key pairs
      rw [hmissing] at hsubscript
      exact ⟨key, value, .undefined, _, rfl, hsubscript, .inl hregistered, insert_ne hmissing⟩

/-- A call that throws leaves every node as it was, unless it is a `setDef` that
changed it first. -/
theorem failed_call_iff (op : Mutator Double) (node : Node) (hdefined : node.isDefined = true) :
    (∀ e node', op.call node = .error e node' → node' = node) ↔ ¬ Converts op node := by
  constructor
  · intro h hconverts
    obtain ⟨key, value, child, node', rfl, hsubscript, hrefused, hchanged⟩ :=
      refused_of_converts hconverts
    obtain ⟨e, he⟩ := setDef_refused hsubscript hrefused
    exact hchanged (h e node' (bind_of_error he))
  · intro hconverts e node' h
    rcases call_error hdefined h with rfl | ⟨key, value, child, rfl, hsubscript, hrefused⟩
    · rfl
    · by_contra hchanged
      exact hconverts (converts_of_refused hsubscript hrefused hchanged hdefined)

/-- A `float` is refused by a map that has the key, which stays as it is. -/
theorem failed_call_map :
    let node : Node := .map [(.scalar "rate", .null)]
    (Mutator.setDef "rate" (.other "float") : Mutator Printed).call node =
        .error (.runtimeError "unsupported type in write: float") node ∧
      ∀ e node', (Mutator.setDef "rate" (.other "float") : Mutator Printed).call node =
        .error e node' → node' = node :=
  ⟨rfl, (failed_call_iff _ _ rfl).2 fun h => by
    obtain ⟨key, value, child, node', hop, hsubscript, -, hchanged⟩ := refused_of_converts h
    cases hop
    cases hsubscript
    exact hchanged rfl⟩

/-- A `float` is refused by an empty node, which is a map from then on, and by a
map without the key, which has an entry more. -/
theorem failed_call_null :
    ¬ (∀ e node', (Mutator.setDef "rate" (.other "float") : Mutator Printed).call .null =
        .error e node' → node' = .null) ∧
      ¬ ∀ e node', (Mutator.setDef "rate" (.other "float") : Mutator Printed).call (.map []) =
        .error e node' → node' = .map [] := by
  have hcall : ∀ node : Node, node = .null ∨ node = .map [] →
      (Mutator.setDef "rate" (.other "float") : Mutator Printed).call node =
        .error (.runtimeError "unsupported type in write: float")
          (.map [(.scalar "rate", .undefined)]) := by
    rintro node (rfl | rfl)
    · rfl
    · rfl
  constructor
  · intro h
    cases h _ _ (hcall _ (.inl rfl))
  · intro h
    cases h _ _ (hcall _ (.inr rfl))

end UempPlugin.Ref.YamlTool
