import UempPlugin.Lib.Cuts
import UempPlugin.Proofs.ReplaceAll

/-!
# `replace_all_` goes over the text once

The loop edits the string it searches and moves its position behind what it
has put in. What is still ahead of the position is an end of the original text,
shorter by the pattern after every round. So the rounds come to an end, none of
them looks at a replacement, and the places where they find the pattern are the
leftmost ones of the original that do not overlap.
-/

namespace UempPlugin.Ref

open UempPlugin.Lib

/-- `pos` and `s` between two rounds. -/
structure Replacing where
  pos : Nat
  s : Text

/-- What the next search goes through. -/
def Replacing.ahead (r : Replacing) : Text := r.s.drop r.pos

/-- A round; `find` ends the loop when it finds nothing. -/
def Replacing.round (pat repl : Text) (r : Replacing) : Option Replacing :=
  (find r.s pat r.pos).map fun i =>
    ⟨i + repl.length, r.s.take i ++ repl ++ r.s.drop (i + pat.length)⟩

/-- `n` rounds, if there are so many. -/
def Replacing.rounds (pat repl : Text) : Nat → Replacing → Option Replacing
  | 0, r => some r
  | n + 1, r => (r.round pat repl).bind (rounds pat repl n)

variable {pat repl : Text}

/-! ## What is ahead -/

theorem Replacing.round_ahead {r r' : Replacing} (h : r.round pat repl = some r') :
    r'.ahead <:+ r.ahead ∧ pat.length + r'.ahead.length ≤ r.ahead.length := by
  obtain ⟨i, hfind, rfl⟩ := Option.map_eq_some_iff.1 h
  obtain ⟨⟨hpos, hprefix⟩, hi, _⟩ := find_eq_some.1 hfind
  have hlen := hprefix.length_le
  rw [List.length_drop] at hlen
  have hahead : Replacing.ahead
      ⟨i + repl.length, r.s.take i ++ repl ++ r.s.drop (i + pat.length)⟩ =
      r.s.drop (i + pat.length) := by
    rw [Replacing.ahead, List.drop_left' (by simp [hi])]
  rw [hahead, Replacing.ahead, List.length_drop, List.length_drop]
  refine ⟨?_, by omega⟩
  obtain ⟨j, rfl⟩ := Nat.exists_eq_add_of_le hpos
  rw [Nat.add_assoc, ← List.drop_drop]
  exact List.drop_suffix _ _

/-- `n` rounds have found the pattern `n` times in the original text, and are
left with an end of it. -/
theorem Replacing.rounds_ahead {n : Nat} {r r' : Replacing}
    (h : r.rounds pat repl n = some r') :
    r'.ahead <:+ r.ahead ∧ n * pat.length + r'.ahead.length ≤ r.ahead.length := by
  induction n generalizing r with
  | zero =>
      rw [← Option.some_inj.1 h]
      exact ⟨List.suffix_refl _, by omega⟩
  | succ n ih =>
      obtain ⟨mid, hround, hrest⟩ := Option.bind_eq_some_iff.1 h
      obtain ⟨hsuffix, hlen⟩ := Replacing.round_ahead hround
      obtain ⟨hsuffix', hlen'⟩ := ih hrest
      refine ⟨hsuffix'.trans hsuffix, ?_⟩
      rw [Nat.succ_mul]
      omega

theorem replaceLoop_succ (k : Nat) (r : Replacing) :
    replaceLoop pat repl (k + 1) r.pos r.s =
      match r.round pat repl with
      | none => r.s
      | some r' => replaceLoop pat repl k r'.pos r'.s := by
  rw [replaceLoop, Replacing.round]
  cases find r.s pat r.pos with
  | none => rfl
  | some i => rfl

/-- With more rounds at hand than there are characters ahead, the loop comes to
its end, and has made the text of `replaceLoop`. -/
theorem Replacing.ends (hpat : pat ≠ []) {k : Nat} {r : Replacing} (hk : r.ahead.length < k) :
    ∃ n r', r.rounds pat repl n = some r' ∧ r'.round pat repl = none ∧
      r'.s = replaceLoop pat repl k r.pos r.s := by
  have hpos := List.length_pos_iff.2 hpat
  induction k generalizing r with
  | zero => exact absurd hk (Nat.not_lt_zero _)
  | succ k ih =>
      rw [replaceLoop_succ]
      cases hround : r.round pat repl with
      | none => exact ⟨0, r, rfl, hround, rfl⟩
      | some mid =>
          have hlen := (Replacing.round_ahead hround).2
          obtain ⟨n, r', hrounds, hend, htext⟩ := ih (r := mid) (by omega)
          exact ⟨n + 1, r', by rw [Replacing.rounds, hround, Option.bind_some, hrounds], hend,
            htext⟩

/-! ## The pieces are the cuts -/

theorem find_none_absent {s : Text} (h : find s pat 0 = none) : ¬ pat <:+: s := by
  rintro ⟨p, rest, hs⟩
  rw [List.append_assoc] at hs
  refine find_eq_none.1 h p.length ?_ (Nat.zero_le _) ?_
  · rw [← hs, List.length_append]
    exact Nat.le_add_right _ _
  · rw [← hs, List.drop_left]
    exact List.prefix_append _ _

theorem find_some_leftmost {s : Text} {i : Nat} (h : find s pat 0 = some i) :
    s = s.take i ++ pat ++ s.drop (i + pat.length) ∧
      Leftmost pat (s.take i) (s.drop (i + pat.length)) := by
  obtain ⟨⟨_, hprefix⟩, hi, hfirst⟩ := find_eq_some.1 h
  have hs : s = s.take i ++ pat ++ s.drop (i + pat.length) := by
    rw [List.append_assoc, ← List.drop_drop, List.prefix_iff_eq_append.1 hprefix,
      List.take_append_drop]
  refine ⟨hs, fun q behind heq => ?_⟩
  rw [← hs, List.append_assoc] at heq
  rw [List.length_take_of_le hi]
  by_contra hlt
  refine hfirst q.length (by omega) (Nat.zero_le _) ?_
  rw [heq, List.drop_left]
  exact List.prefix_append _ _

theorem cuts_pieces (hpat : pat ≠ []) {k : Nat} {s : Text} (hk : s.length < k) :
    Cuts pat s (pieces pat k s) := by
  have hpos := List.length_pos_iff.2 hpat
  induction k generalizing s with
  | zero => exact absurd hk (Nat.not_lt_zero _)
  | succ k ih =>
      rw [pieces]
      cases hfind : find s pat 0 with
      | none => exact Cuts.last (find_none_absent hfind)
      | some i =>
          obtain ⟨hs, hleft⟩ := find_some_leftmost hfind
          have hlen := congrArg List.length hs
          rw [List.length_append, List.length_append] at hlen
          have hcuts := Cuts.cut hleft (ih (s := s.drop (i + pat.length)) (by omega))
          rw [← hs] at hcuts
          exact hcuts

/-- The text is cut at the leftmost occurrences of the pattern that do not
overlap, in one way only, and joined with the replacement, whatever that
contains. The loop makes this text after finitely many rounds, and before every
round what it has still to search is an end of the original, without the
occurrences found so far. -/
theorem replaceAll_single_pass (s pat repl : Text) (hpat : pat ≠ []) :
    (∃ ps, (∀ qs, Cuts pat s qs ↔ qs = ps) ∧ pat.intercalate ps = s ∧
        replaceAll s pat repl = repl.intercalate ps) ∧
      (∃ n r, Replacing.rounds pat repl n ⟨0, s⟩ = some r ∧ r.round pat repl = none ∧
        r.s = replaceAll s pat repl) ∧
      ∀ n r, Replacing.rounds pat repl n ⟨0, s⟩ = some r →
        r.ahead <:+ s ∧ n * pat.length + r.ahead.length ≤ s.length := by
  have hcuts := cuts_pieces hpat (Nat.lt_succ_self s.length)
  refine ⟨⟨pieces pat (s.length + 1) s, fun qs => ?_, hcuts.intercalate, replaceAll_eq hpat⟩,
    ?_, ?_⟩
  · constructor
    · exact fun h => h.unique hcuts
    · rintro rfl
      exact hcuts
  · rw [replaceAll, if_neg hpat]
    exact Replacing.ends hpat (r := ⟨0, s⟩) (Nat.lt_succ_self _)
  · exact fun n r h => Replacing.rounds_ahead h

/-- `a` replaced by `aa`. -/
theorem replaceAll_single_pass_double :
    (∃ ps, (∀ qs, Cuts "a".toList "xaay".toList qs ↔ qs = ps) ∧
        "a".toList.intercalate ps = "xaay".toList ∧
        replaceAll "xaay".toList "a".toList "aa".toList = "aa".toList.intercalate ps) ∧
      (∃ n r, Replacing.rounds "a".toList "aa".toList n ⟨0, "xaay".toList⟩ = some r ∧
        r.round "a".toList "aa".toList = none ∧
        r.s = replaceAll "xaay".toList "a".toList "aa".toList) ∧
      ∀ n r, Replacing.rounds "a".toList "aa".toList n ⟨0, "xaay".toList⟩ = some r →
        r.ahead <:+ "xaay".toList ∧
          n * "a".toList.length + r.ahead.length ≤ "xaay".toList.length :=
  replaceAll_single_pass "xaay".toList "a".toList "aa".toList (by decide)

end UempPlugin.Ref
