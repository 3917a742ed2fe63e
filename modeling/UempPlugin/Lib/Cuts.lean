import Mathlib.Data.List.Infix

/-!
# Cutting a list at a pattern

A list is cut at the leftmost place where the pattern occurs, and what follows
that occurrence is cut again, until the pattern does not occur any more. A
pattern has one such list of pieces for each list, which the pattern joins to
that list again.
-/

namespace UempPlugin.Lib

variable {α : Type} {pat s : List α}

/-- No occurrence of `pat` in `p ++ pat ++ rest` starts before the one shown. -/
def Leftmost (pat p rest : List α) : Prop :=
  ∀ q behind, p ++ pat ++ rest = q ++ pat ++ behind → p.length ≤ q.length

/-- `ps` is `s` cut at the leftmost occurrences of `pat` that do not overlap. -/
inductive Cuts (pat : List α) : List α → List (List α) → Prop
  | last {t : List α} : ¬ pat <:+: t → Cuts pat t [t]
  | cut {p rest : List α} {ps : List (List α)} : Leftmost pat p rest → Cuts pat rest ps →
      Cuts pat (p ++ pat ++ rest) (p :: ps)

theorem Leftmost.unique {p p' rest rest' : List α} (h : Leftmost pat p rest)
    (h' : Leftmost pat p' rest') (heq : p ++ pat ++ rest = p' ++ pat ++ rest') :
    p = p' ∧ rest = rest' := by
  have hlen : p.length = p'.length :=
    Nat.le_antisymm (h p' rest' heq) (h' p rest heq.symm)
  rw [List.append_assoc, List.append_assoc] at heq
  obtain ⟨hp, hrest⟩ := List.append_inj heq hlen
  exact ⟨hp, List.append_cancel_left hrest⟩

theorem Cuts.unique {ps qs : List (List α)} (h : Cuts pat s ps) (h' : Cuts pat s qs) :
    ps = qs := by
  induction h generalizing qs with
  | last habsent =>
      cases h' with
      | last => rfl
      | cut => exact absurd ⟨_, _, rfl⟩ habsent
  | @cut p rest ps hleft hcuts ih =>
      generalize hs : p ++ pat ++ rest = s at h'
      cases h' with
      | last habsent => exact absurd ⟨p, rest, hs⟩ habsent
      | cut hleft' hcuts' =>
          obtain ⟨rfl, rfl⟩ := hleft.unique hleft' hs
          rw [ih hcuts']

theorem Cuts.ne_nil {ps : List (List α)} (h : Cuts pat s ps) : ps ≠ [] := by
  cases h with
  | last => exact List.cons_ne_nil _ _
  | cut => exact List.cons_ne_nil _ _

/-- Joined with the pattern itself, the pieces are the list that was cut. -/
theorem Cuts.intercalate {ps : List (List α)} (h : Cuts pat s ps) : pat.intercalate ps = s := by
  induction h with
  | last => exact List.intercalate_singleton
  | cut hleft hcuts ih =>
      rw [List.intercalate_cons_of_ne_nil hcuts.ne_nil, ih, List.append_assoc]

end UempPlugin.Lib
