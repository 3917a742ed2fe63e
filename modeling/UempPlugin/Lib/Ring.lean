import Mathlib.Data.List.Basic
import Mathlib.Data.Nat.ModEq

/-!
# A bounded queue, and a ring of slots that holds it

`Bounded n` is what a queue of at most `n` items is for: items leave at the
front, and an item that does not fit pushes the oldest out. How often that
happened is counted.

The usual implementation keeps the items in consecutive slots of an array and
wraps around at its end. `window` reads them back, and the two facts about it
are what an implementation has to know: taking the first item moves the window
by one slot, and writing the slot behind the last one adds an item to it.
-/

namespace UempPlugin.Lib

variable {α : Type}

/-! ## The queue -/

structure Bounded (n : Nat) (α : Type) where
  items : List α := []
  overrun : Nat := 0
  fits : items.length ≤ n

namespace Bounded

variable {n : Nat}

def empty (n : Nat) (α : Type) : Bounded n α where
  items := []
  fits := Nat.zero_le n

/-- How many items a further one pushes out: one, if there is no room. -/
def excess (q : Bounded n α) : Nat := q.items.length + 1 - n

def push (x : α) (q : Bounded n α) : Bounded n α where
  items := (q.items ++ [x]).drop q.excess
  overrun := q.overrun + q.excess
  fits := by
    have := q.fits
    simp only [excess, List.length_drop, List.length_append, List.length_singleton]
    omega

def pop (q : Bounded n α) : Bounded n α where
  items := q.items.tail
  overrun := q.overrun
  fits := by
    have := q.fits
    rw [List.length_tail]
    omega

theorem push_items (x : α) (q : Bounded n α) :
    (q.push x).items = (q.items ++ [x]).drop q.excess := rfl

theorem push_overrun (x : α) (q : Bounded n α) : (q.push x).overrun = q.overrun + q.excess := rfl

/-- With room left, nothing is pushed out. -/
theorem push_room {q : Bounded n α} (h : q.items.length < n) (x : α) :
    (q.push x).items = q.items ++ [x] ∧ (q.push x).overrun = q.overrun := by
  have hex : q.excess = 0 := by rw [excess]; omega
  rw [push_items, push_overrun, hex]
  exact ⟨rfl, rfl⟩

/-- Without, the oldest item is, be it the new one. -/
theorem push_full {q : Bounded n α} (h : q.items.length = n) (x : α) :
    (q.push x).items = (q.items ++ [x]).tail ∧ (q.push x).overrun = q.overrun + 1 := by
  have hex : q.excess = 1 := by rw [excess]; omega
  rw [push_items, push_overrun, hex]
  exact ⟨List.drop_one, rfl⟩

end Bounded

/-! ## The ring -/

variable [Inhabited α] {v : List α} {head n : Nat}

/-- The `n` items in the slots from `head` on. -/
def window (v : List α) (head n : Nat) : List α :=
  (List.range n).map fun i => v.getD ((head + i) % v.length) default

theorem window_length (v : List α) (head n : Nat) : (window v head n).length = n := by
  rw [window, List.length_map, List.length_range]

/-- Slots are named modulo their number. -/
theorem window_mod (v : List α) (head n : Nat) : window v (head % v.length) n = window v head n := by
  rw [window, window]
  refine List.map_congr_left fun i _ => ?_
  rw [Nat.mod_add_mod]

/-- The first item, and the window behind it. -/
theorem window_succ (v : List α) (head n : Nat) :
    window v head (n + 1) = v.getD (head % v.length) default :: window v (head + 1) n := by
  rw [window, List.range_succ_eq_map, List.map_cons, List.map_map, window, Nat.add_zero]
  refine congrArg _ (List.map_congr_left fun i _ => ?_)
  rw [Function.comp_apply, Nat.add_right_comm, Nat.add_assoc]

/-- Fewer items than slots are in different slots. -/
theorem slot_injective {m head i j : Nat} (hi : i < m) (hj : j < m)
    (h : (head + i) % m = (head + j) % m) : i = j :=
  Nat.ModEq.eq_of_lt_of_lt (Nat.ModEq.add_left_cancel' head h) hi hj

/-- The slot behind the last item takes a further one. -/
theorem window_push (h : n < v.length) (head : Nat) (x : α) :
    window (v.set ((head + n) % v.length) x) head (n + 1) = window v head n ++ [x] := by
  have hpos : 0 < v.length := by omega
  rw [window, List.range_succ, List.map_append, List.map_singleton, List.length_set, window]
  congr 1
  · refine List.map_congr_left fun i hi => ?_
    have hin : i < n := List.mem_range.1 hi
    have hne : (head + n) % v.length ≠ (head + i) % v.length := fun heq => by
      have := slot_injective h (by omega) heq
      omega
    rw [List.getD_eq_getElem?_getD, List.getD_eq_getElem?_getD, List.getElem?_set_ne hne]
  · rw [List.getD_eq_getElem?_getD, List.getElem?_set_self (Nat.mod_lt _ hpos)]
    rfl

end UempPlugin.Lib
