import UempPlugin.Proofs.YamlTable

/-!
# What `setDef` establishes

The header says that `setDef` writes where there is nothing or something of
another type, and the code has the comments for it. But the branch for a scalar
that does not read throws. Everything else is as announced: nothing, null, a
sequence or a map under the key is replaced by the value, and a scalar that
reads is kept.
-/

namespace UempPlugin.Ref.YamlTool

open Yaml (Node)

variable {Double : Type} [DoubleText Double]

/-- What the key holds, read as this type. -/
def readable (type : TypeIndex) (key : String) (node : Node) : Option (Any Double) :=
  match entry key node with
  | some (.scalar text) => decodeAs type text
  | _ => none

/-- What is announced: the call returns, says whether it wrote, and from then on
the key reads as it did before, or as the value if it did not. -/
def Establishes (node : Node) (key : String) (value : Any Double) : Prop :=
  ∃ written node', setDef key value node = .ok written node' ∧
    (written = true → ∃ text, value.encode = .ok text ∧ entry key node' = some (.scalar text)) ∧
    (written = false → entry key node' = entry key node) ∧
    (∀ dflt : Any Double, dflt.type = value.type →
      getDef node' key dflt = .ok ((readable value.type key node).getD value)) ∧
    ∀ key', key' ≠ key → entry key' node' = entry key' node

variable {node : Node} {key : String} {value : Any Double}

theorem establishes_kept (h : Keyed node) {text : String} {found : Any Double}
    (hentry : entry key node = some (.scalar text)) (hread : decodeAs value.type text = some found) :
    Establishes node key value := by
  obtain ⟨pairs, hset, hentries⟩ := setDef_scalar h hentry value
  rw [if_pos (by rw [hread]; rfl)] at hset
  refine ⟨false, .map pairs, hset, nofun, fun _ => hentries key, fun dflt htype => ?_,
    fun key' _ => hentries key'⟩
  have hget := getDef_scalar (.inr ⟨pairs, rfl⟩) ((hentries key).trans hentry) dflt
  simp only [htype, hread] at hget
  rw [hget, readable, hentry]
  simp only [hread, Option.getD_some]

theorem establishes_written (h : Keyed node) (hvalue : value.type.registered)
    (hentry : ∀ text, entry key node ≠ some (.scalar text)) : Establishes node key value := by
  obtain ⟨text, htext⟩ := encode_of_registered hvalue
  obtain ⟨pairs, hset, hentries⟩ := setDef_writes h hentry htext
  have hwritten : entry key (.map pairs) = some (.scalar text) := by rw [hentries, if_pos rfl]
  refine ⟨true, .map pairs, hset, fun _ => ⟨text, htext, hwritten⟩, nofun, fun dflt htype => ?_,
    fun key' hne => by rw [hentries, if_neg hne]⟩
  have hget := getDef_scalar (.inr ⟨pairs, rfl⟩) hwritten dflt
  simp only [htype, decodeAs_encode htext] at hget
  have hnone : (readable value.type key node : Option (Any Double)) = none := by
    rw [readable]
    split
    · next text' hscalar => exact absurd hscalar (hentry text')
    · rfl
  rw [hget, hnone, Option.getD_none]

/-- On a map, or an empty node, `setDef` does what is announced unless the key
holds a scalar that does not read as the type of the value. -/
theorem setDef_establishes_iff (node : Node) (key : String) (value : Any Double) (h : Keyed node)
    (hvalue : value.type.registered) :
    Establishes node key value ↔
      ∀ text, entry key node = some (.scalar text) →
        (decodeAs value.type text : Option (Any Double)).isSome := by
  constructor
  · rintro ⟨written, node', hset, _⟩ text hentry
    obtain ⟨pairs, hset', _⟩ := setDef_scalar h hentry value
    by_contra hread
    rw [if_neg hread, hset] at hset'
    cases hset'
  · intro hread
    by_cases hscalar : ∃ text, entry key node = some (.scalar text)
    · obtain ⟨text, hentry⟩ := hscalar
      obtain ⟨found, hfound⟩ := Option.isSome_iff_exists.1 (hread text hentry)
      exact establishes_kept h hentry hfound
    · exact establishes_written h hvalue fun text hentry => hscalar ⟨text, hentry⟩

/-- A port that is a number is kept, and a sequence in its place is replaced. -/
theorem setDef_establishes_port :
    Establishes (.map [(.scalar "port", .scalar "8080")]) "port"
        (.int ⟨80, by decide⟩ : Any Printed) ∧
      Establishes (.map [(.scalar "port", .sequence [])]) "port"
        (.int ⟨80, by decide⟩ : Any Printed) := by
  constructor
  · refine (setDef_establishes_iff _ _ _ (.inr ⟨_, rfl⟩) rfl).2 fun text hentry => ?_
    obtain rfl : "8080" = text := by simpa [entry, Node.lookup, Node.equals, Node.isDefined] using hentry
    decide
  · refine (setDef_establishes_iff _ _ _ (.inr ⟨_, rfl⟩) rfl).2 fun text hentry => ?_
    simp [entry, Node.lookup, Node.equals, Node.isDefined] at hentry

/-- A word where a number belongs makes the call throw. -/
theorem setDef_word_throws :
    ¬ Establishes (.map [(.scalar "port", .scalar "http")]) "port"
      (.int ⟨80, by decide⟩ : Any Printed) := by
  rintro ⟨written, node', hset, _⟩
  have hthrows : setDef "port" (.int ⟨80, by decide⟩ : Any Printed)
      (.map [(.scalar "port", .scalar "http")]) =
        .error (.runtimeError "wrong type for key: port")
          (.map [(.scalar "port", .scalar "http")]) := rfl
  rw [hthrows] at hset
  cases hset

end UempPlugin.Ref.YamlTool
