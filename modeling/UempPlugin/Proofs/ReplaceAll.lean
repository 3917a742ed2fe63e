import UempPlugin.Ref.DateFormat

/-!
# What `replace_all_` makes

The loop searches behind what it has put in, so it cuts the original text at
the places where the placeholder is found in it and joins the pieces with the
replacement. The pieces do not depend on the replacement.
-/

namespace UempPlugin.Ref

open UempPlugin.Lib

/-! ## `find` -/

theorem found_iff {s pat : Text} {pos i : Nat} :
    (decide (pos ≤ i) && pat.isPrefixOf (s.drop i)) = true ↔ pos ≤ i ∧ pat <+: s.drop i := by
  rw [Bool.and_eq_true, decide_eq_true_eq, List.isPrefixOf_iff_prefix]

theorem missed_iff {s pat : Text} {pos i : Nat} :
    (!(decide (pos ≤ i) && pat.isPrefixOf (s.drop i))) = true ↔
      (pos ≤ i → ¬ pat <+: s.drop i) := by
  rw [Bool.not_eq_true', ← Bool.not_eq_true, found_iff, not_and]

theorem find_eq_some {s pat : Text} {pos i : Nat} :
    find s pat pos = some i ↔
      (pos ≤ i ∧ pat <+: s.drop i) ∧ i ≤ s.length ∧
        ∀ j, j < i → pos ≤ j → ¬ pat <+: s.drop j := by
  rw [find, List.find?_range_eq_some]
  simp only [found_iff, missed_iff, List.mem_range, Nat.lt_succ_iff]

theorem find_eq_none {s pat : Text} {pos : Nat} :
    find s pat pos = none ↔ ∀ i, i ≤ s.length → pos ≤ i → ¬ pat <+: s.drop i := by
  rw [find, List.find?_range_eq_none]
  simp only [missed_iff, Nat.lt_succ_iff]

theorem drop_behind (done rest : Text) (i : Nat) :
    (done ++ rest).drop (done.length + i) = rest.drop i := by
  rw [List.drop_append, Nat.add_sub_cancel_left, List.drop_of_length_le (by omega), List.nil_append]

/-- A search that starts behind `done` does not see it. -/
theorem find_behind (done rest pat : Text) :
    find (done ++ rest) pat done.length = (find rest pat 0).map (done.length + ·) := by
  cases hfind : find rest pat 0 with
  | none =>
      rw [find_eq_none] at hfind
      rw [Option.map_none, find_eq_none]
      intro i hi hpos
      obtain ⟨j, rfl⟩ := Nat.exists_eq_add_of_le hpos
      rw [drop_behind]
      rw [List.length_append] at hi
      exact hfind j (by omega) (Nat.zero_le j)
  | some k =>
      obtain ⟨⟨_, hk⟩, hlen, hfirst⟩ := find_eq_some.1 hfind
      rw [Option.map_some, find_eq_some, drop_behind, List.length_append]
      refine ⟨⟨by omega, hk⟩, by omega, fun i hi hpos => ?_⟩
      obtain ⟨j, rfl⟩ := Nat.exists_eq_add_of_le hpos
      rw [drop_behind]
      exact hfirst j (by omega) (Nat.zero_le j)

/-! ## The pieces -/

/-- The text between the places where `pat` is found; the number bounds the
cuts. -/
def pieces (pat : Text) : Nat → Text → List Text
  | 0, s => [s]
  | k + 1, s =>
      match find s pat 0 with
      | none => [s]
      | some i => s.take i :: pieces pat k (s.drop (i + pat.length))

theorem pieces_ne_nil (pat : Text) (k : Nat) (s : Text) : pieces pat k s ≠ [] := by
  cases k with
  | zero => simp [pieces]
  | succ k =>
      rw [pieces]
      split <;> simp

theorem replaceLoop_eq (pat repl : Text) :
    ∀ (k : Nat) (done rest : Text),
      replaceLoop pat repl k done.length (done ++ rest) =
        done ++ repl.intercalate (pieces pat k rest) := by
  intro k
  induction k with
  | zero =>
      intro done rest
      rw [replaceLoop, pieces, List.intercalate_singleton]
  | succ k ih =>
      intro done rest
      rw [replaceLoop, find_behind, pieces]
      cases hfind : find rest pat 0 with
      | none => simp
      | some i =>
          -- what has been written grows by a piece and the replacement
          have htake : (done ++ rest).take (done.length + i) = done ++ rest.take i := by
            rw [List.take_append, List.take_of_length_le (by omega), Nat.add_sub_cancel_left]
          have hdrop : (done ++ rest).drop (done.length + i + pat.length) =
              rest.drop (i + pat.length) := by
            rw [Nat.add_assoc, drop_behind]
          have hlength : (done ++ rest.take i ++ repl).length = done.length + i + repl.length := by
            have hi := (find_eq_some.1 hfind).2.1
            rw [List.length_append, List.length_append, List.length_take_of_le hi]
          simp only [Option.map_some]
          rw [htake, hdrop, ← hlength, ih,
            List.intercalate_cons_of_ne_nil (pieces_ne_nil pat k _), List.append_assoc,
            List.append_assoc, List.append_assoc]

/-- `replace_all_` joins the pieces of its text. -/
theorem replaceAll_eq {s pat repl : Text} (hpat : pat ≠ []) :
    replaceAll s pat repl = repl.intercalate (pieces pat (s.length + 1) s) := by
  rw [replaceAll, if_neg hpat]
  exact replaceLoop_eq pat repl (s.length + 1) [] s

/-! ## What does not depend on the replacement -/

/-- Replacements with equally many `c` give texts with equally many `c`. -/
theorem count_intercalate {c : Char} {repl repl' : Text} (h : repl.count c = repl'.count c) :
    ∀ ps : List Text, (repl.intercalate ps).count c = (repl'.intercalate ps).count c := by
  intro ps
  induction ps with
  | nil => rfl
  | cons p ps ih =>
      cases ps with
      | nil => simp
      | cons q ps =>
          rw [List.intercalate_cons_cons, List.intercalate_cons_cons]
          simp only [List.count_append, h, ih]

theorem mem_pieces {c : Char} {pat : Text} :
    ∀ {k : Nat} {s p : Text}, p ∈ pieces pat k s → c ∈ p → c ∈ s := by
  intro k
  induction k with
  | zero =>
      intro s p hp hc
      rw [pieces, List.mem_singleton] at hp
      rw [← hp]
      exact hc
  | succ k ih =>
      intro s p hp hc
      rw [pieces] at hp
      split at hp
      · rw [List.mem_singleton] at hp
        rw [← hp]
        exact hc
      · rcases List.mem_cons.1 hp with rfl | hp
        · exact List.mem_of_mem_take hc
        · exact List.mem_of_mem_drop (ih hp hc)

theorem mem_intercalate {c : Char} {repl : Text} :
    ∀ {ps : List Text}, c ∈ repl.intercalate ps → c ∈ repl ∨ ∃ p ∈ ps, c ∈ p := by
  intro ps
  induction ps with
  | nil => intro h; simp at h
  | cons p ps ih =>
      intro h
      cases ps with
      | nil => exact .inr ⟨p, List.mem_cons_self, by simpa using h⟩
      | cons q ps =>
          rw [List.intercalate_cons_cons, List.append_assoc, List.mem_append, List.mem_append] at h
          rcases h with h | h | h
          · exact .inr ⟨p, List.mem_cons_self, h⟩
          · exact .inl h
          · rcases ih h with hto | ⟨r, hr, hc⟩
            · exact .inl hto
            · exact .inr ⟨r, List.mem_cons_of_mem _ hr, hc⟩

theorem count_replaceAll {c : Char} {s pat repl repl' : Text}
    (h : repl.count c = repl'.count c) :
    (replaceAll s pat repl).count c = (replaceAll s pat repl').count c := by
  rcases eq_or_ne pat [] with rfl | hpat
  · rw [replaceAll, replaceAll, if_pos rfl, if_pos rfl]
  · rw [replaceAll_eq hpat, replaceAll_eq hpat, count_intercalate h]

theorem mem_replaceAll {c : Char} {s pat repl : Text} (hc : c ∈ replaceAll s pat repl) :
    c ∈ s ∨ c ∈ repl := by
  rcases eq_or_ne pat [] with rfl | hpat
  · rw [replaceAll, if_pos rfl] at hc
    exact .inl hc
  · rw [replaceAll_eq hpat] at hc
    rcases mem_intercalate hc with hto | ⟨p, hp, hcp⟩
    · exact .inr hto
    · exact .inl (mem_pieces hp hcp)

end UempPlugin.Ref
