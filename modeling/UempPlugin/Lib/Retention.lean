import Mathlib.Data.List.Basic
import Mathlib.Order.Basic

/-!
# The last entries of a list that grows at its end

A list keeps its last `n` entries, all of them when `n` is 0, and gives up the
ones in front. An increasing list that is given one more entry stays increasing,
without giving up an entry like the new one, when the new one is above all the
others. It can also be that only the new one is kept, and was not there before.
-/

namespace UempPlugin.Lib

variable {α : Type}

/-- What is given up. -/
def dropped (n : Nat) (xs : List α) : List α := if n = 0 then [] else xs.take (xs.length - n)

/-- What is kept. -/
def retained (n : Nat) (xs : List α) : List α := if n = 0 then xs else xs.drop (xs.length - n)

/-- An entry too many is given up, and the others are looked at again. -/
theorem dropped_cons {n : Nat} (hn : n ≠ 0) {x : α} {xs : List α} (h : n < xs.length + 1) :
    dropped n (x :: xs) = x :: dropped n xs ∧ retained n (x :: xs) = retained n xs := by
  have hsub : xs.length + 1 - n = (xs.length - n) + 1 := by omega
  rw [dropped, dropped, retained, retained, if_neg hn, if_neg hn, if_neg hn, if_neg hn,
    List.length_cons, hsub]
  exact ⟨rfl, rfl⟩

/-- With no entry too many, all are kept. -/
theorem retained_of_le {n : Nat} {xs : List α} (h : xs.length ≤ n) :
    dropped n xs = [] ∧ retained n xs = xs := by
  rw [dropped, retained, Nat.sub_eq_zero_of_le h]
  split
  · exact ⟨rfl, rfl⟩
  · exact ⟨rfl, rfl⟩

theorem dropped_append_retained (n : Nat) (xs : List α) : dropped n xs ++ retained n xs = xs := by
  rw [dropped, retained]
  split
  · rfl
  · exact List.take_append_drop _ xs

theorem retained_suffix (n : Nat) (xs : List α) : retained n xs <:+ xs := by
  rw [retained]
  split
  · exact List.suffix_refl xs
  · exact List.drop_suffix _ xs

theorem length_retained {n : Nat} (hn : n ≠ 0) (xs : List α) : (retained n xs).length ≤ n := by
  rw [retained, if_neg hn, List.length_drop]
  omega

/-- The newest entry is kept, and beside it the one before, if there is room for
two. -/
theorem retained_concat (n : Nat) (xs : List α) (x : α) :
    ∃ k, retained n (xs ++ [x]) = xs.drop k ++ [x] ∧ (n ≠ 1 → xs ≠ [] → k < xs.length) := by
  rw [retained]
  split
  · exact ⟨0, rfl, fun _ hne => List.length_pos_iff.2 hne⟩
  · refine ⟨xs.length + 1 - n, ?_, fun hn hne => ?_⟩
    · rw [List.length_append, List.length_singleton, List.drop_append_of_le_length (by omega)]
    · have hpos := List.length_pos_iff.2 hne
      omega

theorem mem_dropped_concat {n : Nat} {xs : List α} {x y : α} (h : y ∈ dropped n (xs ++ [x])) :
    y ∈ xs := by
  rw [dropped] at h
  split at h
  · exact absurd h List.not_mem_nil
  · rw [List.length_append, List.length_singleton, List.take_append_of_le_length (by omega)] at h
    exact List.mem_of_mem_take h

/-- What is given up at once is given up in two goes as well. -/
theorem retained_append (n : Nat) (xs ys : List α) :
    dropped n (xs ++ ys) = dropped n xs ++ dropped n (retained n xs ++ ys) ∧
      retained n (xs ++ ys) = retained n (retained n xs ++ ys) := by
  by_cases hn : n = 0
  · subst hn
    exact ⟨rfl, rfl⟩
  · have hlen : (retained n xs).length = min n xs.length := by
      rw [retained, if_neg hn, List.length_drop]
      omega
    have hsplit : xs ++ ys = dropped n xs ++ (retained n xs ++ ys) := by
      rw [← List.append_assoc, dropped_append_retained]
    have hfront : (dropped n xs).length = xs.length - n := by
      rw [dropped, if_neg hn, List.length_take]
      omega
    have hexcess : (xs ++ ys).length - n =
        (dropped n xs).length + ((retained n xs ++ ys).length - n) := by
      simp only [List.length_append, hlen, hfront]
      omega
    have hdropped : dropped n (retained n xs ++ ys) =
        (retained n xs ++ ys).take ((retained n xs ++ ys).length - n) := if_neg hn
    have hretained : retained n (retained n xs ++ ys) =
        (retained n xs ++ ys).drop ((retained n xs ++ ys).length - n) := if_neg hn
    constructor
    · calc dropped n (xs ++ ys) = (xs ++ ys).take ((xs ++ ys).length - n) := if_neg hn
        _ = _ := by rw [hexcess, hsplit, List.take_length_add_append, hdropped]
    · calc retained n (xs ++ ys) = (xs ++ ys).drop ((xs ++ ys).length - n) := if_neg hn
        _ = _ := by rw [hexcess, hsplit, List.drop_length_add_append, hretained]

/-- How many are given up does not depend on what the newest entry is. -/
theorem retained_newest (n : Nat) (xs : List α) :
    ∃ k, ∀ x, dropped n (xs ++ [x]) = xs.take k ∧ retained n (xs ++ [x]) = xs.drop k ++ [x] := by
  by_cases hn : n = 0
  · subst hn
    exact ⟨0, fun x => ⟨rfl, rfl⟩⟩
  · refine ⟨xs.length + 1 - n, fun x => ?_⟩
    have hk : xs.length + 1 - n ≤ xs.length := by omega
    rw [dropped, retained, if_neg hn, if_neg hn, List.length_append, List.length_singleton,
      List.take_append_of_le_length hk, List.drop_append_of_le_length hk]
    exact ⟨rfl, rfl⟩

/-- What a further entry pushes out is the one `n` places before it. -/
theorem mem_dropped_retained {n : Nat} (hn : n ≠ 0) {xs : List α} {x y : α} :
    y ∈ dropped n (retained n xs ++ [x]) ↔ n ≤ xs.length ∧ xs[xs.length - n]? = some y := by
  have hlen : (retained n xs).length = min n xs.length := by
    rw [retained, if_neg hn, List.length_drop]
    omega
  rw [dropped, if_neg hn, List.length_append, List.length_singleton, hlen]
  rcases Nat.lt_or_ge xs.length n with hlt | hge
  · rw [show min n xs.length + 1 - n = 0 by omega, List.take_zero]
    exact ⟨fun h => absurd h List.not_mem_nil, fun h => absurd h.1 (by omega)⟩
  · have hpos : xs.length - n < xs.length := by omega
    rw [show min n xs.length + 1 - n = 1 by omega, retained, if_neg hn,
      List.drop_eq_getElem_cons hpos, List.getElem?_eq_getElem hpos]
    simp only [List.cons_append, List.take_succ_cons, List.take_zero, List.mem_singleton,
      Option.some.injEq]
    exact ⟨fun h => ⟨hge, h.symm⟩, fun h => h.2.symm⟩

theorem dropped_one (xs : List α) (x : α) : dropped 1 (xs ++ [x]) = xs := by
  rw [dropped, if_neg Nat.one_ne_zero, List.length_append, List.length_singleton,
    Nat.add_sub_cancel, List.take_left]

theorem retained_one (xs : List α) (x : α) : retained 1 (xs ++ [x]) = [x] := by
  rw [retained, if_neg Nat.one_ne_zero, List.length_append, List.length_singleton,
    Nat.add_sub_cancel, List.drop_left]

theorem dropped_map {β : Type} (f : α → β) (n : Nat) (xs : List α) :
    dropped n (xs.map f) = (dropped n xs).map f := by
  rw [dropped, dropped, List.length_map]
  split
  · rfl
  · exact List.map_take.symm

theorem retained_map {β : Type} (f : α → β) (n : Nat) (xs : List α) :
    retained n (xs.map f) = (retained n xs).map f := by
  rw [retained, retained, List.length_map]
  split
  · rfl
  · exact List.map_drop.symm

section Increasing

variable [Preorder α] {n : Nat} {xs : List α} {x : α}

theorem pairwise_concat (hxs : xs.Pairwise (· < ·)) (h : ∀ y ∈ xs, y < x) :
    (xs ++ [x]).Pairwise (· < ·) := by
  rw [List.pairwise_append]
  exact ⟨hxs, List.pairwise_singleton _ x, fun y hy z hz => List.mem_singleton.1 hz ▸ h y hy⟩

theorem lt_of_retained (hn : n ≠ 1) (hxs : xs.Pairwise (· < ·))
    (h : (retained n (xs ++ [x])).Pairwise (· < ·)) : ∀ y ∈ xs, y < x := by
  intro y hy
  obtain ⟨k, hkept, hk⟩ := retained_concat n xs x
  obtain ⟨ys, z, rfl⟩ := (List.eq_nil_or_concat' xs).resolve_left (List.ne_nil_of_mem hy)
  have hlast : z ∈ (ys ++ [z]).drop k := by
    have hlen := hk hn (List.ne_nil_of_mem hy)
    rw [List.length_append, List.length_singleton] at hlen
    rw [List.drop_append_of_le_length (Nat.le_of_lt_succ hlen)]
    exact List.mem_append_right _ List.mem_cons_self
  rw [hkept, List.pairwise_append] at h
  have hzx : z < x := h.2.2 z hlast x List.mem_cons_self
  -- what stood before `z` was below it
  rcases List.mem_append.1 hy with hfront | hback
  · exact lt_trans ((List.pairwise_append.1 hxs).2.2 y hfront z List.mem_cons_self) hzx
  · exact List.mem_singleton.1 hback ▸ hzx

theorem increasing_concat_iff (hxs : xs.Pairwise (· < ·)) :
    (retained n (xs ++ [x])).Pairwise (· < ·) ∧ x ∉ dropped n (xs ++ [x]) ↔
      (∀ y ∈ xs, y < x) ∨ n = 1 ∧ x ∉ xs := by
  constructor
  · rintro ⟨hkept, hdropped⟩
    by_cases hn : n = 1
    · subst hn
      rw [dropped_one] at hdropped
      exact .inr ⟨rfl, hdropped⟩
    · exact .inl (lt_of_retained hn hxs hkept)
  · rintro (h | ⟨rfl, h⟩)
    · exact ⟨(pairwise_concat hxs h).sublist (retained_suffix n _).sublist,
        fun hx => lt_irrefl x (h x (mem_dropped_concat hx))⟩
    · rw [retained_one, dropped_one]
      exact ⟨List.pairwise_singleton _ x, h⟩

end Increasing

end UempPlugin.Lib
