import UempPlugin.Proofs.YamlEntries

/-!
# A node refines a finite map

One call on a node that holds a map gives the reply the map gives, and leaves
the node holding what the call makes of the map. So the replies of any sequence
of calls, from the empty node on, are those of the empty map. What remains to
be said is about the map alone: a value stays under its key until it is
overwritten.
-/

namespace UempPlugin.Ref.YamlTool

open UempPlugin.Lib
open Yaml (Node)

variable {Double : Type} [DoubleText Double]

/-! ## The relation -/

theorem holds_null : Holds .null ∅ := by
  refine ⟨.inl rfl, fun key => ?_⟩
  rw [Std.ExtTreeMap.getElem?_empty]
  rfl

theorem Holds.same {node : Node} {t : Table} (h : Holds node t) {pairs : List (Node × Node)}
    (hentry : ∀ key, entry key (.map pairs) = entry key node) : Holds (.map pairs) t :=
  ⟨.inr ⟨pairs, rfl⟩, fun key => by rw [hentry, h.cells]⟩

theorem Holds.insert {node : Node} {t : Table} (h : Holds node t) {key : String} (cell : Cell)
    {pairs : List (Node × Node)}
    (hentry : ∀ key', entry key' (.map pairs) =
      if key' = key then some cell.node else entry key' node) :
    Holds (.map pairs) (t.insert key cell) := by
  refine ⟨.inr ⟨pairs, rfl⟩, fun key' => ?_⟩
  rw [hentry, h.cells, Std.ExtTreeMap.getElem?_insert]
  simp only [Std.LawfulEqCmp.compare_eq_iff_eq]
  split
  · next he =>
      rw [if_pos he.symm]
      rfl
  · next he => rw [if_neg (Ne.symm he)]

theorem Holds.entry_eq {node : Node} {t : Table} (h : Holds node t) {key : String}
    {cell : Option Cell} (hcell : t[key]? = cell) : entry key node = cell.map Cell.node := by
  rw [h.cells, hcell]

/-! ## One call -/

/-- The reply and the node of a call that wraps what `f` returns. -/
theorem step_wrap {α : Type} {op : Op Double} (f : EStateM Exn Node α) (reply : α → Reply Double)
    (hop : op.call = f >>= fun a => pure (reply a)) (node : Node) :
    Op.step node op =
      match f node with
      | .ok a node' => (some (reply a), node')
      | .error _ node' => (none, node') := by
  rw [Op.step, hop]
  simp only [bind, EStateM.bind]
  cases f node <;> rfl

theorem step_getDef (node : Node) (key : String) (dflt : Any Double) :
    Op.step node (.getDef key dflt) =
      match YamlTool.getDef node key dflt with
      | .ok value => (some (.value value), node)
      | .error _ => (none, node) := by
  simp only [Op.step, Op.call]
  cases YamlTool.getDef node key dflt <;> rfl

/-- What a call gives is what the map gives. -/
def Agrees (found : Option (Reply Double) × Node) (expected : Option (Reply Double) × Table) :
    Prop :=
  found.1 = expected.1 ∧ Holds found.2 expected.2

variable {node : Node} {t : Table}

theorem set_agrees (h : Holds node t) (key : String) (value : Any Double) :
    Agrees (Op.step node (.set key value)) (t.step (.set key value)) := by
  rw [step_wrap (YamlTool.set key value) (fun _ => .done) rfl, Table.step, Table.put]
  cases hvalue : value.encode with
  | ok text =>
      obtain ⟨pairs, hset, hentry⟩ := set_keyed h.keyed key hvalue
      rw [hset]
      exact ⟨rfl, h.insert (.scalar text) hentry⟩
  | error name =>
      obtain ⟨e, hset⟩ := set_unregistered (keyed_defined h.keyed) key hvalue
      rw [hset]
      exact ⟨rfl, h⟩

theorem setDef_put_agrees (h : Holds node t) {key : String} (value : Any Double)
    (hentry : ∀ text, entry key node ≠ some (.scalar text)) :
    Agrees (Op.step node (.setDef key value)) (t.put key value (.wrote true)) := by
  rw [step_wrap (YamlTool.setDef key value) .wrote rfl, Table.put]
  cases hvalue : value.encode with
  | ok text =>
      obtain ⟨pairs, hset, hentries⟩ := setDef_writes h.keyed hentry hvalue
      rw [hset]
      exact ⟨rfl, h.insert (.scalar text) hentries⟩
  | error name =>
      obtain ⟨e, pairs, hset, hentries⟩ := setDef_unregistered h.keyed hentry hvalue
      rw [hset]
      exact ⟨rfl, h.same hentries⟩

theorem setDef_agrees (h : Holds node t) (key : String) (value : Any Double) :
    Agrees (Op.step node (.setDef key value)) (t.step (.setDef key value)) := by
  rw [Table.step]
  cases hcell : t[key]? with
  | none =>
      have hentry := h.entry_eq hcell
      exact setDef_put_agrees h value (by simp [hentry])
  | some cell =>
      have hentry := h.entry_eq hcell
      cases cell with
      | null => exact setDef_put_agrees h value (by simp [hentry, Cell.node])
      | scalar text =>
          obtain ⟨pairs, hset, hentries⟩ := setDef_scalar h.keyed hentry value
          rw [step_wrap (YamlTool.setDef key value) .wrote rfl, hset]
          by_cases hread : (decodeAs value.type text : Option (Any Double)).isSome
          · simp only [if_pos hread]
            exact ⟨rfl, h.same hentries⟩
          · simp only [if_neg hread]
            exact ⟨rfl, h.same hentries⟩

theorem setNull_agrees (h : Holds node t) (key : String) :
    Agrees (Op.step node (.setNull key : Op Double)) (t.step (.setNull key)) := by
  obtain ⟨pairs, hset, hentries⟩ := setNull_keyed h.keyed key
  rw [step_wrap (YamlTool.setNull key) (fun _ => .done) rfl, hset]
  exact ⟨rfl, h.insert .null hentries⟩

theorem setNullDef_agrees (h : Holds node t) (key : String) :
    Agrees (Op.step node (.setNullDef key : Op Double)) (t.step (.setNullDef key)) := by
  obtain ⟨pairs, hset, hentries⟩ := setNullDef_keyed h.keyed key
  rw [step_wrap (YamlTool.setNullDef key) .wrote rfl, hset, Table.step]
  cases hcell : t[key]? with
  | none =>
      have hnone : entry key node = none := h.entry_eq hcell
      simp only [hnone, and_true] at hentries ⊢
      exact ⟨rfl, h.insert .null hentries⟩
  | some cell =>
      have hsome : entry key node = some cell.node := h.entry_eq hcell
      simp only [hsome, reduceCtorEq, and_false, if_false] at hentries ⊢
      exact ⟨rfl, h.same hentries⟩

theorem getDef_agrees (h : Holds node t) (key : String) (dflt : Any Double) :
    Agrees (Op.step node (.getDef key dflt)) (t.step (.getDef key dflt)) := by
  rw [step_getDef, Table.step]
  cases hcell : t[key]? with
  | none =>
      rw [getDef_absent h.keyed (.inl (h.entry_eq hcell))]
      exact ⟨rfl, h⟩
  | some cell =>
      cases cell with
      | null =>
          rw [getDef_absent h.keyed (.inr (h.entry_eq hcell))]
          exact ⟨rfl, h⟩
      | scalar text =>
          have hread := getDef_scalar h.keyed (h.entry_eq hcell) dflt
          cases hd : (decodeAs dflt.type text : Option (Any Double)) with
          | some value =>
              rw [hd] at hread
              rw [hread]
              simp only [hd]
              exact ⟨rfl, h⟩
          | none =>
              rw [hd] at hread
              obtain ⟨e, he⟩ := hread
              rw [he]
              simp only [hd]
              exact ⟨rfl, h⟩

theorem step_agrees (h : Holds node t) (op : Op Double) : Agrees (op.step node) (t.step op) := by
  cases op with
  | set key value => exact set_agrees h key value
  | setDef key value => exact setDef_agrees h key value
  | setNull key => exact setNull_agrees h key
  | setNullDef key => exact setNullDef_agrees h key
  | getDef key dflt => exact getDef_agrees h key dflt

/-! ## Sequences of calls -/

theorem replies_agree :
    ∀ (ops : List (Op Double)) {node : Node} {t : Table}, Holds node t →
      (replies Op.step node ops).1 = (replies Table.step t ops).1 ∧
        Holds (replies Op.step node ops).2 (replies Table.step t ops).2 := by
  intro ops
  induction ops with
  | nil => exact fun h => ⟨rfl, h⟩
  | cons op ops ih =>
      intro node t h
      obtain ⟨hreply, hnext⟩ := step_agrees h op
      obtain ⟨hreplies, hlast⟩ := ih hnext
      exact ⟨by rw [replies, replies, hreply, hreplies], hlast⟩

section Runs

variable {σ : Type} (step : σ → Op Double → Option (Reply Double) × σ)

omit [DoubleText Double] in
theorem replies_append (ops ops' : List (Op Double)) (s : σ) :
    replies step s (ops ++ ops') =
      ((replies step s ops).1 ++ (replies step (replies step s ops).2 ops').1,
        (replies step (replies step s ops).2 ops').2) := by
  induction ops generalizing s with
  | nil => rfl
  | cons op ops ih => rw [List.cons_append, replies, ih, replies, List.cons_append]

omit [DoubleText Double] in
theorem replies_last (ops : List (Op Double)) (op : Op Double) (s : σ) :
    (replies step s (ops ++ [op])).1.getLast? = some (step (replies step s ops).2 op).1 := by
  rw [replies_append]
  exact List.getLast?_concat

end Runs

/-- The call writes under this key, whatever is there. -/
def Op.Overwrites (key : String) : Op Double → Prop
  | .set key' value => key' = key ∧ value.type.registered
  | .setNull key' => key' = key
  | _ => False

theorem put_other {key key' text : String} {value : Any Double} {reply : Reply Double}
    (hcell : t[key]? = some (.scalar text)) (h : key' = key → value.type.registered = false) :
    (t.put key' value reply).2[key]? = some (.scalar text) := by
  rw [Table.put]
  split
  · next hvalue =>
      have hne : key' ≠ key := by
        intro he
        obtain ⟨name, rfl⟩ := encode_of_unregistered (h he)
        cases hvalue
      rw [Std.ExtTreeMap.getElem?_insert]
      simp only [Std.LawfulEqCmp.compare_eq_iff_eq]
      rw [if_neg hne, hcell]
  · exact hcell

theorem insert_other {key key' : String} {cell : Option Cell} {cell' : Cell}
    (hcell : t[key]? = cell) (hne : key' ≠ key) : (t.insert key' cell')[key]? = cell := by
  rw [Std.ExtTreeMap.getElem?_insert]
  simp only [Std.LawfulEqCmp.compare_eq_iff_eq]
  rw [if_neg hne, hcell]

/-- A scalar survives a call that does not overwrite it. -/
theorem step_scalar {key text : String} {op : Op Double} (hcell : t[key]? = some (.scalar text))
    (h : ¬ op.Overwrites key) : (t.step op).2[key]? = some (.scalar text) := by
  cases op with
  | set key' value =>
      refine put_other hcell fun he => ?_
      simpa [Op.Overwrites, he] using h
  | setDef key' value =>
      rw [Table.step]
      rcases eq_or_ne key' key with rfl | hne
      · rw [hcell]
        simp only
        split <;> exact hcell
      · split
        · split <;> exact hcell
        · exact put_other hcell fun he => absurd he hne
        · exact put_other hcell fun he => absurd he hne
  | setNull key' => exact insert_other hcell h
  | setNullDef key' =>
      rw [Table.step]
      split
      · exact hcell
      · next hnone =>
          refine insert_other hcell ?_
          rintro rfl
          exact hnone (by rw [hcell]; rfl)
  | getDef key' dflt =>
      rw [Table.step]
      split
      · split <;> exact hcell
      · exact hcell
      · exact hcell

theorem replies_scalar {key text : String} :
    ∀ {ops : List (Op Double)} {t : Table}, t[key]? = some (.scalar text) →
      (∀ op ∈ ops, ¬ op.Overwrites key) →
        (replies Table.step t ops).2[key]? = some (.scalar text) := by
  intro ops
  induction ops with
  | nil => exact fun hcell _ => hcell
  | cons op ops ih =>
      intro t hcell h
      exact ih (step_scalar hcell (h op List.mem_cons_self))
        fun op' hop' => h op' (List.mem_cons_of_mem _ hop')

theorem getDef_last {before after : List (Op Double)} {key : String} {value dflt : Any Double}
    (hvalue : value.type.registered) (htype : dflt.type = value.type)
    (hafter : ∀ op ∈ after, ¬ op.Overwrites key) (t : Table) :
    (replies Table.step t (before ++ .set key value :: after ++ [.getDef key dflt])).1.getLast? =
      some (some (.value value)) := by
  obtain ⟨text, htext⟩ := encode_of_registered hvalue
  have hset : ∀ t : Table, (t.step (.set key value)).2[key]? = some (.scalar text) := by
    intro t
    rw [Table.step, Table.put, htext]
    exact Std.ExtTreeMap.getElem?_insert_self
  have hget : (replies Table.step t (before ++ .set key value :: after)).2[key]? =
      some (.scalar text) := by
    rw [replies_append, replies]
    exact replies_scalar (hset _) hafter
  rw [replies_last, Table.step, hget, htype]
  simp only [decodeAs_encode htext]

/-- The replies of any calls, made one after another on an empty node, are those
of a finite map; and a value of a registered type is returned until its key is
written again. -/
theorem finite_map :
    (∀ ops : List (Op Double),
      (replies Op.step .null ops).1 = (replies Table.step ∅ ops).1 ∧
        Holds (replies Op.step .null ops).2 (replies Table.step ∅ ops).2) ∧
    ∀ (before after : List (Op Double)) (key : String) (value dflt : Any Double),
      value.type.registered → dflt.type = value.type → (∀ op ∈ after, ¬ op.Overwrites key) →
        (replies Op.step .null
          (before ++ .set key value :: after ++ [.getDef key dflt])).1.getLast? =
          some (some (.value value)) := by
  refine ⟨fun ops => replies_agree ops holds_null, ?_⟩
  intro before after key value dflt hvalue htype hafter
  rw [(replies_agree _ holds_null).1]
  exact getDef_last hvalue htype hafter ∅

/-- Doubles known by what they print as. -/
structure Printed where
  text : String

instance : DoubleText Printed where
  decode text := some ⟨text⟩
  encode x := x.text
  decode_encode _ := rfl

theorem finite_map_answer :
    (replies Op.step .null ([] ++ .set "answer" (.int ⟨42, by decide⟩) ::
      [.setNull "name", .set "pi" (.double ⟨"3.14159"⟩)] ++
        [.getDef "answer" (.int ⟨0, by decide⟩ : Any Printed)])).1.getLast? =
      some (some (.value (.int ⟨42, by decide⟩))) :=
  finite_map.2 [] _ "answer" _ _ rfl rfl (by simp [Op.Overwrites])

end UempPlugin.Ref.YamlTool
