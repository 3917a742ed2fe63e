import Mathlib.Data.List.Pairwise

/-!
# Time cut into periods

A line of instants is cut at `shift`, `shift + len`, `shift + 2 len` and so on
in both directions. `period` numbers the pieces and `boundary` names the cuts;
two instants lie in the same piece exactly when no cut separates them.

`firstIn` looks up, in a list of readings of a clock that never goes back, the
first one that fell into the period of a given reading: the moment at which
somebody who only looks at those readings finds that the period has begun.
-/

namespace UempPlugin.Lib

/-- Periods of length `len`, one of them beginning at `shift`. -/
structure Periods where
  len : Int
  shift : Int
  pos : 0 < len

namespace Periods

variable (P : Periods)

/-- The period of an instant. -/
def period (t : Int) : Int := (t - P.shift) / P.len

/-- The instant at which period `k` begins. -/
def boundary (k : Int) : Int := k * P.len + P.shift

variable {P}

theorem boundary_le (t : Int) : P.boundary (P.period t) ≤ t := by
  have h := Int.ediv_mul_le (t - P.shift) (Int.ne_of_gt P.pos)
  rw [boundary, period]
  omega

theorem lt_boundary (t : Int) : t < P.boundary (P.period t + 1) := by
  have h := Int.lt_ediv_add_one_mul_self (t - P.shift) P.pos
  rw [boundary, period]
  omega

theorem boundary_mono {j k : Int} (h : j ≤ k) : P.boundary j ≤ P.boundary k := by
  have := Int.mul_le_mul_of_nonneg_right h (Int.le_of_lt P.pos)
  rw [boundary, boundary]
  omega

/-- An instant is in period `k` if it lies between its two ends. -/
theorem period_eq {t k : Int} (hlo : P.boundary k ≤ t) (hhi : t < P.boundary (k + 1)) :
    P.period t = k := by
  have hle := boundary_le (P := P) t
  have hlt := lt_boundary (P := P) t
  rcases Int.lt_trichotomy (P.period t) k with h | h | h
  · exact absurd (boundary_mono (P := P) (show P.period t + 1 ≤ k by omega)) (by omega)
  · exact h
  · exact absurd (boundary_mono (P := P) (show k + 1 ≤ P.period t by omega)) (by omega)

theorem period_mono {t u : Int} (h : t ≤ u) : P.period t ≤ P.period u := by
  refine Int.ediv_le_ediv P.pos ?_
  omega

theorem lt_boundary_iff {t k : Int} : t < P.boundary (k + 1) ↔ P.period t ≤ k := by
  constructor
  · intro h
    have hle := boundary_le (P := P) t
    refine Int.not_lt.1 fun hlt => ?_
    exact absurd (boundary_mono (P := P) (show k + 1 ≤ P.period t by omega)) (by omega)
  · intro h
    exact Int.lt_of_lt_of_le (lt_boundary t) (boundary_mono (by omega))

/-- Two instants share a period exactly when no boundary separates them. -/
theorem period_eq_iff {t u : Int} (h : t ≤ u) :
    P.period t = P.period u ↔ ¬ ∃ k, t < P.boundary k ∧ P.boundary k ≤ u := by
  constructor
  · rintro heq ⟨k, hlo, hhi⟩
    have hlt : t < P.boundary (k - 1 + 1) := by rwa [Int.sub_add_cancel]
    have hk := lt_boundary_iff.1 hlt
    have hu : u < P.boundary (P.period u + 1) := lt_boundary u
    have := boundary_mono (P := P) (show P.period u + 1 ≤ k by omega)
    omega
  · intro hno
    by_contra hne
    have hlt : P.period t + 1 ≤ P.period u := by
      have := period_mono (P := P) h
      omega
    exact hno ⟨P.period t + 1, lt_boundary t,
      Int.le_trans (boundary_mono hlt) (boundary_le u)⟩

/-! ## Readings of a clock -/

/-- The first reading that fell into the period of `t`. -/
def firstIn (P : Periods) (ts : List Int) (t : Int) : Int :=
  (ts.find? fun x => P.period x = P.period t).getD t

theorem firstIn_singleton (t : Int) : P.firstIn [t] t = t := by simp [firstIn]

/-- Readings of the same period have the same first one. -/
theorem firstIn_congr {ts : List Int} {t u : Int} (ht : t ∈ ts)
    (h : P.period t = P.period u) : P.firstIn ts t = P.firstIn ts u := by
  rw [firstIn, firstIn, h]
  cases hf : ts.find? fun x => P.period x = P.period u with
  | some x => rfl
  | none =>
      have := List.find?_eq_none.1 hf t ht
      exact absurd h (by simpa using this)

/-- A later reading does not change what was found before. -/
theorem firstIn_append {ts : List Int} {t : Int} (ht : t ∈ ts) (us : List Int) :
    P.firstIn (ts ++ us) t = P.firstIn ts t := by
  rw [firstIn, firstIn, List.find?_append]
  cases hf : ts.find? fun x => P.period x = P.period t with
  | some x => rfl
  | none =>
      exact absurd (by simp) (List.find?_eq_none.1 hf t ht)

/-- A reading in a period that nothing before it reached is the first one. -/
theorem firstIn_new {ts : List Int} {t : Int} (h : ∀ x ∈ ts, P.period x ≠ P.period t) :
    P.firstIn (ts ++ [t]) t = t := by
  have hnone : ts.find? (fun x => P.period x = P.period t) = none :=
    List.find?_eq_none.2 fun x hx => by simpa using h x hx
  rw [firstIn, List.find?_append, hnone]
  simp

end Periods

end UempPlugin.Lib
