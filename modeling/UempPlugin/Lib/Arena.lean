import Mathlib.Logic.Function.Basic

/-!
# Objects under addresses

Objects are allocated under addresses that count up, and given back one by one.
`Holding base own m` is what somebody knows who started when the arena was
`base` and since then only touched what he had allocated himself: below the
address where he started nothing has changed, and above it lies exactly what he
owns. When he owns nothing any more, nothing has changed at all; and what he
still owns when he goes is lost.
-/

namespace UempPlugin.Lib

structure Arena (O : Type) where
  live : Nat → Option O := fun _ => none
  /-- The next address. -/
  next : Nat := 0

namespace Arena

variable {O : Type}

/-- Allocates an object, under the address that was next. -/
def add (m : Arena O) (o : O) : Arena O where
  live := Function.update m.live m.next (some o)
  next := m.next + 1

/-- Changes an object, or gives it back. -/
def put (m : Arena O) (p : Nat) (o : Option O) : Arena O :=
  { m with live := Function.update m.live p o }

@[simp] theorem put_self (m : Arena O) (p : Nat) (o : Option O) : (m.put p o).live p = o :=
  Function.update_self ..

theorem put_ne (m : Arena O) {p q : Nat} (h : q ≠ p) (o : Option O) :
    (m.put p o).live q = m.live q := Function.update_of_ne h ..

@[simp] theorem put_put (m : Arena O) (p : Nat) (o o' : Option O) :
    (m.put p o).put p o' = m.put p o' := by
  simp only [put, Function.update_idem]

theorem add_ne (m : Arena O) {p : Nat} (h : p ≠ m.next) (o : O) :
    (m.add o).live p = m.live p := Function.update_of_ne h ..

/-- Nothing lies where nothing was allocated yet. -/
def Fresh (m : Arena O) : Prop := ∀ p, m.next ≤ p → m.live p = none

structure Holding (base : Arena O) (own : Nat → Option O) (m : Arena O) : Prop where
  next : base.next ≤ m.next
  below : ∀ p < base.next, m.live p = base.live p
  above : ∀ p, base.next ≤ p → m.live p = own p
  fresh : ∀ p, m.next ≤ p → own p = none
  others : ∀ p < base.next, own p = none

namespace Holding

variable {base m : Arena O} {own : Nat → Option O} {p : Nat} {o : O}

theorem start (h : Fresh base) : Holding base (fun _ => none) base where
  next := Nat.le_refl _
  below _ _ := rfl
  above p hp := h p hp
  fresh _ _ := rfl
  others _ _ := rfl

/-- What is owned is there. -/
theorem live (h : Holding base own m) (hp : own p = some o) : m.live p = some o := by
  rcases Nat.lt_or_ge p base.next with hlt | hge
  · rw [h.others p hlt] at hp
    cases hp
  · rw [h.above p hge, hp]

theorem add (h : Holding base own m) (o : O) :
    Holding base (Function.update own m.next (some o)) (m.add o) where
  next := Nat.le_succ_of_le h.next
  below p hp := by
    have hne : p ≠ m.next := Nat.ne_of_lt (Nat.lt_of_lt_of_le hp h.next)
    rw [add_ne m hne, h.below p hp]
  above p hp := by
    simp only [Arena.add, Function.update_apply]
    split
    · rfl
    · exact h.above p hp
  fresh p hp := by
    have hle : m.next + 1 ≤ p := hp
    rw [Function.update_of_ne (by omega)]
    exact h.fresh p (by omega)
  others p hp := by
    rw [Function.update_of_ne (Nat.ne_of_lt (Nat.lt_of_lt_of_le hp h.next))]
    exact h.others p hp

theorem put (h : Holding base own m) (hp : own p = some o) (o' : Option O) :
    Holding base (Function.update own p o') (m.put p o') where
  next := h.next
  below q hq := by
    have hne : q ≠ p := by
      rintro rfl
      rw [h.others _ hq] at hp
      cases hp
    rw [put_ne m hne, h.below q hq]
  above q hq := by
    simp only [Arena.put, Function.update_apply]
    split
    · rfl
    · exact h.above q hq
  fresh q hq := by
    have hne : q ≠ p := by
      rintro rfl
      rw [h.fresh _ hq] at hp
      cases hp
    rw [Function.update_of_ne hne]
    exact h.fresh q hq
  others q hq := by
    have hne : q ≠ p := by
      rintro rfl
      rw [h.others _ hq] at hp
      cases hp
    rw [Function.update_of_ne hne]
    exact h.others q hq

/-- Giving back what was allocated owns what was owned before. -/
theorem release (h : Holding base (Function.update own p (some o)) m) (hp : own p = none) :
    Holding base own (m.put p none) := by
  have hput := h.put (p := p) (o := o) (Function.update_self ..) none
  rwa [Function.update_idem, Function.update_eq_self_iff.2 hp.symm] at hput

/-- The arena is what it was, exactly when nothing is owned. -/
theorem same_iff (h : Holding base own m) (hfresh : Fresh base) :
    m.live = base.live ↔ ∀ p, own p = none := by
  constructor
  · intro heq p
    rcases Nat.lt_or_ge p base.next with hlt | hge
    · exact h.others p hlt
    · rw [← h.above p hge, heq, hfresh p hge]
  · intro hnone
    funext p
    rcases Nat.lt_or_ge p base.next with hlt | hge
    · exact h.below p hlt
    · rw [h.above p hge, hnone, hfresh p hge]

theorem toFresh (h : Holding base own m) : Fresh m := by
  intro p hp
  rw [h.above p (Nat.le_trans h.next hp), h.fresh p hp]

end Holding

end Arena

end UempPlugin.Lib
