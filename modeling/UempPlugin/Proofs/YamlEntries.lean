import UempPlugin.Lib.Simulation
import UempPlugin.Proofs.YamlConversions
import UempPlugin.Spec.YamlTable

/-!
# What a call does to the entries of a node

Every call begins by looking at the entry under its key, and looking makes a
null node a map and puts a placeholder where there was no entry. Neither is
seen. So one equation for each call says what it does to what is seen.
-/

namespace UempPlugin.Ref.YamlTool

open UempPlugin.Lib
open Yaml (Node Convert subscript assign)

/-! ## Pairs -/

theorem equals_iff {key : String} {node : Node} : node.equals key = true ↔ node = .scalar key := by
  cases node <;> simp [Node.equals]

theorem lookup_insert (key key' : String) (value : Node) (pairs : List (Node × Node)) :
    Node.lookup key' (Yaml.insert key value pairs) =
      if key' = key then some value else Node.lookup key' pairs := by
  induction pairs with
  | nil =>
      rw [Yaml.insert, Node.lookup, Node.lookup]
      simp only [Node.equals, beq_iff_eq, eq_comm (a := key)]
      rfl
  | cons p pairs ih =>
      rw [Yaml.insert]
      split
      · next hp =>
          rw [Node.lookup, Node.lookup, equals_iff.1 hp]
          simp only [Node.equals, beq_iff_eq]
          split
          · next h => rw [if_pos h.symm]
          · next h => rw [if_neg (Ne.symm h)]
      · next hp =>
          rw [Node.lookup, Node.lookup, ih]
          split
          · next hp' =>
              rw [if_neg]
              rintro rfl
              exact hp hp'
          · rfl

theorem insert_new {key : String} (value : Node) {pairs : List (Node × Node)}
    (h : Node.lookup key pairs = none) : Yaml.insert key value pairs = pairs ++ [(.scalar key, value)] := by
  induction pairs with
  | nil => rfl
  | cons p pairs ih =>
      rw [Node.lookup] at h
      split at h
      · cases h
      · next hp => rw [Yaml.insert, if_neg hp, ih h, List.cons_append]

/-! ## `operator[]` -/

theorem entry_map (key : String) (pairs : List (Node × Node)) :
    entry key (.map pairs) = (Node.lookup key pairs).filter Node.isDefined := rfl

theorem keyed_pairs {node : Node} (h : Keyed node) :
    ∃ pairs, (∀ key, node.toPairs key = .ok pairs) ∧
      ∀ key, entry key (.map pairs) = entry key node := by
  rcases h with rfl | ⟨pairs, rfl⟩
  · exact ⟨[], fun _ => rfl, fun _ => rfl⟩
  · exact ⟨pairs, fun _ => rfl, fun _ => rfl⟩

theorem subscript_keyed {node : Node} (h : Keyed node) (key : String) :
    ∃ child pairs, subscript key node = .ok child (.map pairs) ∧
      (some child).filter Node.isDefined = entry key node ∧
      ∀ key', entry key' (.map pairs) = entry key' node := by
  obtain ⟨pairs, htoPairs, hentry⟩ := keyed_pairs h
  simp only [subscript, htoPairs]
  cases hl : Node.lookup key pairs with
  | some child =>
      refine ⟨child, pairs, rfl, ?_, hentry⟩
      rw [← hentry, entry_map, hl]
  | none =>
      refine ⟨.undefined, Yaml.insert key .undefined pairs, rfl, ?_, fun key' => ?_⟩
      · rw [← hentry, entry_map, hl]
        rfl
      · rw [← hentry, entry_map, entry_map, lookup_insert]
        split
        · next he =>
            rw [he, hl]
            rfl
        · rfl

theorem assign_keyed {node : Node} (h : Keyed node) (key : String) {value : Node}
    (hvalue : value.isDefined = true) :
    ∃ pairs, assign key value node = .ok () (.map pairs) ∧
      ∀ key', entry key' (.map pairs) = if key' = key then some value else entry key' node := by
  obtain ⟨child, pairs, hsubscript, _, hentry⟩ := subscript_keyed h key
  refine ⟨Yaml.insert key value pairs, ?_, fun key' => ?_⟩
  · exact bind_of_ok hsubscript
  · rw [entry_map, lookup_insert, ← hentry, entry_map]
    split
    · rw [Option.filter_some, if_pos hvalue]
    · rfl

theorem keyed_defined {node : Node} (h : Keyed node) : node.isDefined = true := by
  rcases h with rfl | ⟨pairs, rfl⟩ <;> rfl

/-! ## The calls -/

variable {Double : Type} [DoubleText Double]

theorem set_eq {node : Node} (h : node.isDefined = true) (key : String) (value : Any Double) :
    set key value node = TypeRegistry.write key value node := by
  cases node with
  | undefined => cases h
  | _ => rfl

theorem set_keyed {node : Node} (h : Keyed node) (key : String) {value : Any Double} {text : String}
    (hvalue : value.encode = .ok text) :
    ∃ pairs, set key value node = .ok () (.map pairs) ∧
      ∀ key', entry key' (.map pairs) =
        if key' = key then some (.scalar text) else entry key' node := by
  rw [set_eq (keyed_defined h), TypeRegistry.write, hvalue]
  exact assign_keyed h key rfl

theorem set_unregistered {node : Node} (h : node.isDefined = true) (key : String)
    {value : Any Double} {name : String} (hvalue : value.encode = .error name) :
    ∃ e, set key value node = .error e node := by
  rw [set_eq h, TypeRegistry.write, hvalue]
  exact ⟨_, rfl⟩

variable (Double) in
/-- A scalar reads as its type when it decodes as it. -/
theorem read_scalar (text : String) (type : TypeIndex) :
    match (decodeAs type text : Option (Any Double)) with
    | some value => TypeRegistry.read (.scalar text) type = .ok value
    | none => ∃ e, (TypeRegistry.read (.scalar text) type : Except ReadError (Any Double)) = .error e ∧
        e ≠ .invalidNode := by
  cases type with
  | other name => exact ⟨_, rfl, nofun⟩
  | string => rfl
  | _ =>
      split
      · next value h => simp only [TypeRegistry.read, h]
      · next h =>
          refine ⟨.badConversion, ?_, nofun⟩
          simp only [TypeRegistry.read, h]

/-- A write that reports itself. -/
def wrote (f : EStateM Exn Node Unit) : EStateM Exn Node Bool := fun node =>
  match f node with
  | .ok _ node' => .ok true node'
  | .error e node' => .error e node'

theorem wrote_eq (f : EStateM Exn Node Unit) (node : Node) :
    (f >>= fun _ => (pure true : EStateM Exn Node Bool)) node = wrote f node := by
  show EStateM.bind f _ node = _
  rw [EStateM.bind, wrote]
  cases f node <;> rfl

/-- What `setDef` does with the entry it found. -/
def setDefOn (key : String) (value : Any Double) (child : Node) : EStateM Exn Node Bool :=
  match child with
  | .scalar text =>
      if (decodeAs value.type text : Option (Any Double)).isSome then pure false
      else throw (.runtimeError ("wrong type for key: " ++ key))
  | _ => wrote (set key value)

theorem setDef_eq {key : String} {node node' child : Node} (value : Any Double)
    (h : subscript key node = .ok child node') :
    setDef key value node = setDefOn key value child node' := by
  rw [setDef, bind_of_ok h]
  cases child with
  | scalar text =>
      have hread := read_scalar Double text value.type
      rw [setDefOn]
      cases hd : (decodeAs value.type text : Option (Any Double)) with
      | some v =>
          rw [hd] at hread
          simp only [Node.isDefined, Node.isScalar, Bool.and_true, if_true, hread]
          rfl
      | none =>
          rw [hd] at hread
          obtain ⟨e, he, _⟩ := hread
          simp only [Node.isDefined, Node.isScalar, Bool.and_true, if_true, he]
          rfl
  | _ => exact wrote_eq (set key value) node'

theorem setNullDef_eq {key : String} {node node' child : Node}
    (h : subscript key node = .ok child node') :
    setNullDef key node =
      if child.isDefined then .ok false node' else wrote (setNull key) node' := by
  rw [setNullDef, bind_of_ok h]
  cases child with
  | undefined => exact wrote_eq (setNull key) node'
  | _ => rfl

/-! ## Calls with one type

The loading of a configuration only writes strings, and reads each key as one
type; there the calls are written without `std::any`. -/

theorem setDef_string (key value : String) :
    setDef key (.string value : Any Double) = Yaml.setDef key value := by
  funext node
  cases hsubscript : subscript key node with
  | error e node' =>
      rw [setDef, Yaml.setDef, bind_of_error hsubscript, bind_of_error hsubscript]
  | ok child node' =>
      rw [setDef_eq _ hsubscript, Yaml.setDef, bind_of_ok hsubscript]
      obtain ⟨pairs, rfl⟩ : ∃ pairs, node' = .map pairs := by
        rw [subscript] at hsubscript
        split at hsubscript
        · cases hsubscript
        · split at hsubscript
          · cases hsubscript
            exact ⟨_, rfl⟩
          · cases hsubscript
            exact ⟨_, rfl⟩
      cases child with
      | scalar text => rfl
      | _ => exact (wrote_eq _ _).symm

theorem anyDef_map (pairs : List (Node × Node)) (key : String) (dflt : Any Double) :
    anyDef (.map pairs) key dflt =
      match Node.lookup key pairs with
      | none => .ok dflt
      | some child =>
          if child.isNull || !child.isDefined then .ok dflt
          else
            match TypeRegistry.read child dflt.type with
            | .ok value => .ok value
            | .error .invalidNode => .ok dflt
            | .error .badConversion => .error (Yaml.wrongType key)
            | .error (.runtimeError what) => .error (.runtimeError what) := by
  rw [anyDef, if_neg (by simp [Node.isNull]), Node.get]
  cases Node.lookup key pairs <;> rfl

/-! ## Reading a registered type -/

theorem read_registered_scalar {type : TypeIndex} (h : type.registered) (text : String) :
    (TypeRegistry.read (.scalar text) type : Except ReadError (Any Double)) =
      (decodeAs type text).elim (.error .badConversion) .ok := by
  cases type with
  | other name => cases h
  | _ =>
      simp only [TypeRegistry.read]
      cases (decodeAs _ text : Option (Any Double)) <;> rfl

theorem read_registered_sequence {type : TypeIndex} (h : type.registered) (items : List Node) :
    (TypeRegistry.read (.sequence items) type : Except ReadError (Any Double)) =
      .error .badConversion := by
  cases type with
  | other name => cases h
  | _ => rfl

theorem read_registered_map {type : TypeIndex} (h : type.registered) (pairs : List (Node × Node)) :
    (TypeRegistry.read (.map pairs) type : Except ReadError (Any Double)) =
      .error .badConversion := by
  cases type with
  | other name => cases h
  | _ => rfl

/-- `getDef<T>` at the type whose values `wrap` puts into an `any`. -/
theorem getDef_typed {T : Type} [Convert T] {type : TypeIndex} {wrap : T → Any Double}
    (hregistered : type.registered) (htype : ∀ x, (wrap x).type = type)
    (hdecode : ∀ text, decodeAs type text = (Convert.decode text).map wrap)
    (node : Node) (key : String) (dflt : T) :
    getDef node key (wrap dflt) = (Yaml.getDef node key dflt).map wrap := by
  have hcast : ∀ x, anyDef node key (wrap dflt) = .ok (wrap x) →
      getDef node key (wrap dflt) = .ok (wrap x) := by
    intro x hx
    rw [getDef, hx]
    show (Except.ok _ : Except Exn _) = _
    rw [if_pos (by rw [htype, htype])]
  have hthrow : ∀ e, anyDef node key (wrap dflt) = .error e →
      getDef node key (wrap dflt) = .error e := by
    intro e he
    rw [getDef, he]
    rfl
  have hdflt : (wrap dflt).type.registered := by rw [htype]; exact hregistered
  cases node with
  | map pairs =>
      have hany := anyDef_map pairs key (wrap dflt)
      rw [Yaml.getDef, if_neg (by simp [Node.isNull]), Node.get]
      cases hl : Node.lookup key pairs with
      | none =>
          rw [hl] at hany
          exact hcast dflt hany
      | some child =>
          rw [hl] at hany
          cases child with
          | undefined => exact hcast dflt hany
          | null => exact hcast dflt hany
          | sequence items =>
              simp only [read_registered_sequence hdflt] at hany
              exact hthrow _ hany
          | map pairs' =>
              simp only [read_registered_map hdflt] at hany
              exact hthrow _ hany
          | scalar text =>
              have hread : (TypeRegistry.read (.scalar text) type :
                  Except ReadError (Any Double)) = _ := read_registered_scalar hregistered text
              rw [hdecode] at hread
              rw [htype] at hany
              simp only [bind, Except.bind]
              cases hd : (Convert.decode text : Option T) with
              | some value =>
                  rw [hd] at hread
                  simp only [hread] at hany
                  exact hcast value hany
              | none =>
                  rw [hd] at hread
                  simp only [hread] at hany
                  exact hthrow _ hany
  | scalar text => exact hthrow _ rfl
  | undefined => exact hcast dflt rfl
  | null => exact hcast dflt rfl
  | sequence items => exact hcast dflt rfl

/-! ## On a node that is a map, or null -/

section Keyed

variable {node : Node} {key text : String} {value : Any Double}

theorem setDef_scalar (h : Keyed node) (hentry : entry key node = some (.scalar text))
    (value : Any Double) :
    ∃ pairs, setDef key value node =
        (if (decodeAs value.type text : Option (Any Double)).isSome then .ok false (.map pairs)
        else .error (.runtimeError ("wrong type for key: " ++ key)) (.map pairs)) ∧
      ∀ key', entry key' (.map pairs) = entry key' node := by
  obtain ⟨child, pairs, hsubscript, hchild, hsame⟩ := subscript_keyed h key
  refine ⟨pairs, ?_, hsame⟩
  rw [hentry] at hchild
  rw [setDef_eq value hsubscript, Option.some.inj (Option.filter_eq_some_iff.1 hchild).1, setDefOn]
  split <;> rfl

theorem setDef_writes (h : Keyed node) (hentry : ∀ text, entry key node ≠ some (.scalar text))
    (hvalue : value.encode = .ok text) :
    ∃ pairs, setDef key value node = .ok true (.map pairs) ∧
      ∀ key', entry key' (.map pairs) =
        if key' = key then some (.scalar text) else entry key' node := by
  obtain ⟨child, pairs, hsubscript, hchild, hsame⟩ := subscript_keyed h key
  obtain ⟨pairs', hset, hentries⟩ := set_keyed (.inr ⟨pairs, rfl⟩) key hvalue
  refine ⟨pairs', ?_, fun key' => by rw [hentries, hsame]⟩
  have hwrote : wrote (set key value) (.map pairs) = .ok true (.map pairs') := by
    rw [wrote, hset]
  rw [setDef_eq value hsubscript]
  cases child with
  | scalar text => exact absurd hchild.symm (hentry text)
  | _ => exact hwrote

theorem setDef_unregistered {name : String} (h : Keyed node)
    (hentry : ∀ text, entry key node ≠ some (.scalar text)) (hvalue : value.encode = .error name) :
    ∃ e pairs, setDef key value node = .error e (.map pairs) ∧
      ∀ key', entry key' (.map pairs) = entry key' node := by
  obtain ⟨child, pairs, hsubscript, hchild, hsame⟩ := subscript_keyed h key
  have hdefined : (Node.map pairs).isDefined = true := rfl
  obtain ⟨e, hset⟩ := set_unregistered hdefined key hvalue
  refine ⟨e, pairs, ?_, hsame⟩
  have hwrote : wrote (set key value) (.map pairs) = .error e (.map pairs) := by
    rw [wrote, hset]
  rw [setDef_eq value hsubscript]
  cases child with
  | scalar text => exact absurd hchild.symm (hentry text)
  | _ => exact hwrote

theorem setNull_keyed (h : Keyed node) (key : String) :
    ∃ pairs, setNull key node = .ok () (.map pairs) ∧
      ∀ key', entry key' (.map pairs) = if key' = key then some .null else entry key' node :=
  assign_keyed h key rfl

theorem setNullDef_keyed (h : Keyed node) (key : String) :
    ∃ pairs, setNullDef key node = .ok (entry key node).isNone (.map pairs) ∧
      ∀ key', entry key' (.map pairs) =
        if key' = key ∧ entry key node = none then some .null else entry key' node := by
  obtain ⟨child, pairs, hsubscript, hchild, hsame⟩ := subscript_keyed h key
  rw [setNullDef_eq hsubscript, ← hchild]
  split
  · next hdefined =>
      rw [Option.filter_some, if_pos hdefined]
      exact ⟨pairs, rfl, fun key' => by rw [if_neg (by simp), hsame]⟩
  · next hundefined =>
      obtain ⟨pairs', hset, hentries⟩ := setNull_keyed (.inr ⟨pairs, rfl⟩) key
      rw [Option.filter_some, if_neg hundefined]
      refine ⟨pairs', by rw [wrote, hset]; rfl, fun key' => ?_⟩
      rw [hentries, hsame]
      simp

/-- Where nothing or null is seen, the default is returned. -/
theorem getDef_absent (h : Keyed node) (hentry : entry key node = none ∨ entry key node = some .null)
    (dflt : Any Double) : getDef node key dflt = .ok dflt := by
  have hany : anyDef node key dflt = .ok dflt := by
    rcases h with rfl | ⟨pairs, rfl⟩
    · rfl
    · rw [anyDef_map]
      rw [entry_map] at hentry
      cases hl : Node.lookup key pairs with
      | none => rfl
      | some child =>
          rw [hl] at hentry
          cases child with
          | undefined => rfl
          | null => rfl
          | _ => simp [Node.isDefined] at hentry
  rw [getDef, hany]
  show (Except.ok _ : Except Exn _) = _
  rw [if_pos rfl]

theorem getDef_scalar (h : Keyed node) (hentry : entry key node = some (.scalar text))
    (dflt : Any Double) :
    match (decodeAs dflt.type text : Option (Any Double)) with
    | some value => getDef node key dflt = .ok value
    | none => ∃ e, getDef node key dflt = .error e := by
  have hread := read_scalar Double text dflt.type
  obtain ⟨pairs, rfl⟩ : ∃ pairs, node = .map pairs := by
    rcases h with rfl | h
    · cases hentry
    · exact h
  have hlookup := (Option.filter_eq_some_iff.1 hentry).1
  have hany : anyDef (.map pairs) key dflt =
      match TypeRegistry.read (.scalar text) dflt.type with
      | .ok value => .ok value
      | .error .invalidNode => .ok dflt
      | .error .badConversion => .error (Yaml.wrongType key)
      | .error (.runtimeError what) => .error (.runtimeError what) := by
    rw [anyDef_map, hlookup]
    rfl
  cases hd : (decodeAs dflt.type text : Option (Any Double)) with
  | some value =>
      rw [hd] at hread
      rw [getDef, hany, hread]
      show (Except.ok _ : Except Exn _) = _
      rw [if_pos (decodeAs_type hd)]
  | none =>
      rw [hd] at hread
      obtain ⟨e, he, hne⟩ := hread
      rw [getDef, hany, he]
      cases e with
      | invalidNode => exact absurd rfl hne
      | badConversion => exact ⟨_, rfl⟩
      | runtimeError what => exact ⟨_, rfl⟩

end Keyed

end UempPlugin.Ref.YamlTool
