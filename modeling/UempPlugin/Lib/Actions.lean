import Mathlib.Data.List.Basic

/-!
# Systems whose threads act in any order

A system is a state and a set of actions, an action being possible or not.
`perform` is one order in which the threads got their turns. What every action
keeps holds after any of them (`perform_induct`); an amount of work that every
action uses up bounds their number (`perform_length`), and then some order ends
with all threads stuck (`exists_stuck`). What the stuck states are is left to
the system.
-/

namespace UempPlugin.Lib

variable {σ α : Type} {step : σ → α → Option σ}

/-- The actions one after another; `none` if one of them is not possible. -/
def perform (step : σ → α → Option σ) (s : σ) : List α → Option σ
  | [] => some s
  | a :: as =>
      match step s a with
      | some s' => perform step s' as
      | none => none

/-- No action is possible. -/
def Stuck (step : σ → α → Option σ) (s : σ) : Prop := ∀ a, step s a = none

theorem perform_cons {s s' : σ} {a : α} {as : List α} (h : perform step s (a :: as) = some s') :
    ∃ t, step s a = some t ∧ perform step t as = some s' := by
  rw [perform] at h
  split at h
  · next t ht => exact ⟨t, ht, h⟩
  · cases h

theorem perform_append (s : σ) (as bs : List α) :
    perform step s (as ++ bs) = (perform step s as).bind fun t => perform step t bs := by
  induction as generalizing s with
  | nil => rfl
  | cons a as ih =>
      rw [List.cons_append, perform, perform]
      cases step s a with
      | some t => exact ih t
      | none => rfl

/-- What every action keeps. -/
theorem perform_induct {P : σ → Prop} (hstep : ∀ s a s', P s → step s a = some s' → P s')
    {as : List α} {s s' : σ} (hs : P s) (h : perform step s as = some s') : P s' := by
  induction as generalizing s with
  | nil =>
      injection h with h
      exact h ▸ hs
  | cons a as ih =>
      obtain ⟨t, ht, hrest⟩ := perform_cons h
      exact ih (hstep s a t hs ht) hrest

/-- Every action uses up some of the work. -/
theorem perform_length {P : σ → Prop} {work : σ → Nat}
    (hstep : ∀ s a s', P s → step s a = some s' → P s')
    (hwork : ∀ s a s', P s → step s a = some s' → work s' < work s) {as : List α} {s s' : σ}
    (hs : P s) (h : perform step s as = some s') : as.length + work s' ≤ work s := by
  induction as generalizing s with
  | nil =>
      injection h with h
      exact h ▸ Nat.le_of_eq (Nat.zero_add _)
  | cons a as ih =>
      obtain ⟨t, ht, hrest⟩ := perform_cons h
      have hlt := hwork s a t hs ht
      have hle := ih (hstep s a t hs ht) hrest
      rw [List.length_cons]
      omega

/-- Where the number of actions is bounded, going on as long as possible ends. -/
theorem exists_stuck {s : σ} {bound : Nat}
    (hbound : ∀ as s', perform step s as = some s' → as.length ≤ bound) :
    ∃ as s', perform step s as = some s' ∧ Stuck step s' := by
  by_contra hnone
  have hlong : ∀ n, ∃ as s', perform step s as = some s' ∧ as.length = n := by
    intro n
    induction n with
    | zero => exact ⟨[], s, rfl, rfl⟩
    | succ n ih =>
        obtain ⟨as, t, ht, hlen⟩ := ih
        have hmoves : ∃ a t', step t a = some t' := by
          by_contra hstuck
          refine hnone ⟨as, t, ht, fun a => ?_⟩
          cases ha : step t a with
          | none => rfl
          | some t' => exact absurd ⟨a, t', ha⟩ hstuck
        obtain ⟨a, t', ha⟩ := hmoves
        refine ⟨as ++ [a], t', ?_, by rw [List.length_append, hlen, List.length_singleton]⟩
        rw [perform_append, ht, Option.bind_some, perform, ha]
        rfl
  obtain ⟨as, s', has, hlen⟩ := hlong (bound + 1)
  have := hbound as s' has
  omega

/-! ## Threads in a list -/

section

variable {β : Type} {l : List α} {i : Nat} {x : α}

/-- One thread moves, seen from the lists that the threads stand for. -/
theorem flatMap_set (f : α → List β) (h : l[i]? = some x) :
    ∃ pre post, l.flatMap f = pre ++ f x ++ post ∧
      ∀ y, (l.set i y).flatMap f = pre ++ f y ++ post := by
  obtain ⟨hlt, hx⟩ := List.getElem?_eq_some_iff.1 h
  refine ⟨(l.take i).flatMap f, (l.drop (i + 1)).flatMap f, ?_, fun y => ?_⟩
  · rw [← hx, ← List.flatMap_singleton f l[i], ← List.flatMap_append, ← List.flatMap_append,
      List.append_assoc, List.singleton_append, ← List.drop_eq_getElem_cons hlt,
      List.take_append_drop]
  · rw [List.set_eq_take_append_cons_drop, if_pos hlt, List.flatMap_append, List.flatMap_cons,
      List.append_assoc]

/-- An amount for each thread, added up. -/
def total (f : α → Nat) : List α → Nat
  | [] => 0
  | x :: xs => f x + total f xs

theorem total_append (f : α → Nat) (xs ys : List α) :
    total f (xs ++ ys) = total f xs + total f ys := by
  induction xs with
  | nil => exact (Nat.zero_add _).symm
  | cons x xs ih => rw [List.cons_append, total, total, ih, Nat.add_assoc]

theorem total_set (f : α → Nat) (h : l[i]? = some x) (y : α) :
    total f (l.set i y) + f x = total f l + f y := by
  induction l generalizing i with
  | nil => cases h
  | cons z l ih =>
      cases i with
      | zero =>
          cases h
          rw [List.set_cons_zero, total, total]
          omega
      | succ i =>
          have := ih h
          rw [List.set_cons_succ, total, total]
          omega

end

end UempPlugin.Lib
