import UempPlugin.Proofs.YamlTable

/-!
# Lookups in a node of any kind

`getNode`, `getSequenceNode` and `getDef` are meant for nodes of which nothing
is known: what is not there reads as null, or as the default. The const
subscript of yaml-cpp answers a missing key with no node on null, a sequence and
a map, and on a scalar it throws `BadSubscript`, which neither `getNode` nor
`_getDef` catches. `getSequenceNode` asks for a sequence first.

All three take the node as a constant.
-/

namespace UempPlugin.Ref.YamlTool

open Yaml (Node getNode getSequenceNode)

variable {Double : Type} [DoubleText Double]

/-- What a node has at an index; a placeholder is not seen. -/
def itemAt (index : Nat) : Node → Option Node
  | .sequence items => items[index]?.filter Node.isDefined
  | _ => none

variable (Double) in
/-- No lookup in the node throws for want of a child. -/
structure TotalLookups (node : Node) : Prop where
  getNode : ∀ key, ∃ child, getNode node key = .ok child ∧
    (entry key node = none → child = .null)
  getSequenceNode : ∀ index, itemAt index node = none → getSequenceNode node index = .null
  getDef_absent : ∀ key (dflt : Any Double), dflt.type.registered → entry key node = none →
    getDef node key dflt = .ok dflt
  getDef_throws : ∀ key (dflt : Any Double) e, dflt.type.registered →
    getDef node key dflt = .error e →
      ∃ child, entry key node = some child ∧
        ∀ value : Any Double, TypeRegistry.read child dflt.type ≠ .ok value

/-! ## Nodes -/

/-- The const subscript finds what is seen under the key, or a placeholder. -/
theorem get_entry {node : Node} (h : ∀ text, node ≠ .scalar text) (key : String) :
    ∃ found, node.get key = .ok found ∧ found.filter Node.isDefined = entry key node := by
  cases node with
  | scalar text => exact absurd rfl (h text)
  | map pairs => exact ⟨Node.lookup key pairs, rfl, rfl⟩
  | _ => exact ⟨none, rfl, rfl⟩

theorem getNode_entry {node : Node} (h : ∀ text, node ≠ .scalar text) (key : String) :
    getNode node key = .ok ((entry key node).getD .null) := by
  obtain ⟨found, hget, hentry⟩ := get_entry h key
  by_cases hempty : (!node.isNull && node.isDefined) = true
  · rw [Yaml.getNode, if_pos hempty, hget, ← hentry]
    cases found with
    | none => rfl
    | some child => cases child <;> rfl
  · have hnone : entry key node = none := by
      cases node <;> first | rfl | exact absurd rfl hempty
    rw [Yaml.getNode, if_neg hempty, hnone]
    rfl

theorem getSequenceNode_absent {node : Node} {index : Nat} (h : itemAt index node = none) :
    getSequenceNode node index = .null := by
  cases node with
  | sequence items =>
      rw [itemAt, Option.filter_eq_none_iff] at h
      rw [Yaml.getSequenceNode]
      split
      · cases hchild : items[index]? with
        | none => rfl
        | some child => simp only [h child hchild, if_false, Bool.false_eq_true]
      · rfl
  | _ => rfl

/-! ## Values -/

/-- `_getDef` of a node that is not a scalar: the default where nothing or null
is seen, else what the reading gives. -/
theorem anyDef_entry {node : Node} (h : ∀ text, node ≠ .scalar text) (key : String)
    (dflt : Any Double) :
    anyDef node key dflt = .ok dflt ∨
      ∃ child, entry key node = some child ∧
        ∀ e, anyDef node key dflt = .error e →
          ∀ value : Any Double, TypeRegistry.read child dflt.type ≠ .ok value := by
  cases node with
  | scalar text => exact absurd rfl (h text)
  | map pairs =>
      rw [anyDef_map, entry_map]
      cases hl : Node.lookup key pairs with
      | none => exact .inl rfl
      | some child =>
          by_cases hempty : (child.isNull || !child.isDefined) = true
          · exact .inl (if_pos hempty)
          · refine .inr ⟨child, by simp_all, fun e he value hread => ?_⟩
            simp only [if_neg hempty, hread] at he
            cases he
  | _ => exact .inl rfl

theorem getDef_ok {node : Node} {key : String} {dflt : Any Double}
    (h : anyDef node key dflt = .ok dflt) : getDef node key dflt = .ok dflt := by
  rw [getDef, h]
  exact congrArg Except.ok (if_pos rfl)

theorem getDef_error {node : Node} {key : String} {dflt : Any Double} {e : Exn}
    (h : getDef node key dflt = .error e) : anyDef node key dflt = .error e := by
  rw [getDef] at h
  cases hany : anyDef node key dflt with
  | error e' => rw [hany] at h; exact h
  | ok value => rw [hany] at h; cases h

theorem totalLookups {node : Node} (h : ∀ text, node ≠ .scalar text) : TotalLookups Double node where
  getNode key := ⟨_, getNode_entry h key, fun hnone => by rw [hnone, Option.getD_none]⟩
  getSequenceNode _ hnone := getSequenceNode_absent hnone
  getDef_absent key dflt _ hnone := by
    rcases anyDef_entry h key dflt with hok | ⟨child, hchild, _⟩
    · exact getDef_ok hok
    · rw [hnone] at hchild
      cases hchild
  getDef_throws key dflt e _ herror := by
    rcases anyDef_entry h key dflt with hok | ⟨child, hchild, hread⟩
    · rw [getDef_ok hok] at herror
      cases herror
    · exact ⟨child, hchild, hread e (getDef_error herror)⟩

/-- Lookups are total in every node but a scalar. -/
theorem totalLookups_iff (node : Node) :
    TotalLookups Double node ↔ ∀ text, node ≠ .scalar text := by
  constructor
  · rintro h text rfl
    obtain ⟨child, hchild, _⟩ := h.getNode ""
    cases hchild
  · exact totalLookups

/-- A word where `log_config` should be a map: asking it for its sinks throws. -/
theorem getNode_of_word_throws :
    ∃ root child, getNode root "log_config" = .ok child ∧ ¬ TotalLookups Printed child := by
  refine ⟨.map [(.scalar "log_config", .scalar "info")], .scalar "info", rfl, fun h => ?_⟩
  obtain ⟨sinks, hsinks, _⟩ := h.getNode "sinks"
  cases hsinks

end UempPlugin.Ref.YamlTool
