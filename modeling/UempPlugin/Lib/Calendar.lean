/-!
# The Gregorian calendar on day numbers

Days are counted from 1970-01-01. `civil` splits a day number into year, month
and day by the cycles of 400, 100, 4 and 1 years, over years that begin in
March, so that a leap day is the last day of its year and the months fall on
the line `(153 m + 2) / 5`; `dayNumber` adds the same cycles up again.

The two are inverse in the direction a clock needs: a date read off a day
number names that day (`dayNumber_civil`), so different days have different
dates.
-/

namespace UempPlugin.Lib

/-- A calendar date; months and days count from 1. -/
structure Date where
  year : Int
  month : Int
  day : Int
deriving DecidableEq, Repr

namespace Date

/-- Days from 0000-03-01 to 1970-01-01. -/
def epoch : Int := 719468

/-- The days before the March of year `y`. -/
def yearStart (y : Int) : Int := 365 * y + y / 4 - y / 100 + y / 400

/-- The year that contains day `z` after 0000-03-01, counted from its March,
and the day's place in it. -/
def yearOf (z : Int) : Int × Int :=
  let n400 := z / 146097
  let r400 := z % 146097
  -- The last century of a cycle has the extra day, and so has its last year.
  let n100 := min (r400 / 36524) 3
  let r100 := r400 - n100 * 36524
  let n4 := r100 / 1461
  let r4 := r100 - n4 * 1461
  let n1 := min (r4 / 365) 3
  (400 * n400 + 100 * n100 + 4 * n4 + n1, r4 - n1 * 365)

/-- The date of day `n`. -/
def civil (n : Int) : Date :=
  let (y, doy) := yearOf (n + epoch)
  let mp := (5 * doy + 2) / 153
  { year := if mp < 10 then y else y + 1
    month := if mp < 10 then mp + 3 else mp - 9
    day := doy - (153 * mp + 2) / 5 + 1 }

/-- The day number of a date. -/
def dayNumber (d : Date) : Int :=
  let y := if d.month ≤ 2 then d.year - 1 else d.year
  let mp := if d.month ≤ 2 then d.month + 9 else d.month - 3
  yearStart y + (153 * mp + 2) / 5 + d.day - 1 - epoch

/-- The days before a year made of whole cycles. -/
theorem yearStart_cycles {a b c e : Int} (hb : 0 ≤ b ∧ b ≤ 3) (hc : 0 ≤ c ∧ c ≤ 24)
    (he : 0 ≤ e ∧ e ≤ 3) :
    yearStart (400 * a + 100 * b + 4 * c + e) = 146097 * a + 36524 * b + 1461 * c + 365 * e := by
  have h4 : (400 * a + 100 * b + 4 * c + e) / 4 = 100 * a + 25 * b + c := by omega
  have h100 : (400 * a + 100 * b + 4 * c + e) / 100 = 4 * a + b := by omega
  have h400 : (400 * a + 100 * b + 4 * c + e) / 400 = a := by omega
  rw [yearStart, h4, h100, h400]
  omega

theorem yearOf_spec (z : Int) :
    yearStart (yearOf z).1 + (yearOf z).2 = z ∧ 0 ≤ (yearOf z).2 ∧ (yearOf z).2 ≤ 365 := by
  rw [yearOf]
  have hsplit : 146097 * (z / 146097) + z % 146097 = z := by omega
  have h400 : 0 ≤ z % 146097 ∧ z % 146097 < 146097 := by omega
  generalize z / 146097 = a at hsplit ⊢
  generalize z % 146097 = r at hsplit h400 ⊢
  have hb : 0 ≤ min (r / 36524) 3 ∧ min (r / 36524) 3 ≤ 3 := by omega
  have h100 : 0 ≤ r - min (r / 36524) 3 * 36524 ∧ r - min (r / 36524) 3 * 36524 ≤ 36524 := by
    omega
  generalize min (r / 36524) 3 = b at hb h100 ⊢
  generalize hs : r - b * 36524 = s at h100 ⊢
  have hc : 0 ≤ s / 1461 ∧ s / 1461 ≤ 24 := by omega
  have h4 : 0 ≤ s - s / 1461 * 1461 ∧ s - s / 1461 * 1461 ≤ 1460 := by omega
  generalize s / 1461 = c at hc h4 ⊢
  generalize ht : s - c * 1461 = t at h4 ⊢
  have he : 0 ≤ min (t / 365) 3 ∧ min (t / 365) 3 ≤ 3 := by omega
  have hday : 0 ≤ t - min (t / 365) 3 * 365 ∧ t - min (t / 365) 3 * 365 ≤ 365 := by omega
  generalize min (t / 365) 3 = e at he hday ⊢
  refine ⟨?_, hday⟩
  rw [yearStart_cycles hb hc he]
  omega

/-- The date of a day names that day. -/
theorem dayNumber_civil (n : Int) : dayNumber (civil n) = n := by
  obtain ⟨hstart, hlo, hhi⟩ := yearOf_spec (n + epoch)
  rw [dayNumber, civil]
  generalize yearOf (n + epoch) = p at hstart hlo hhi ⊢
  obtain ⟨y, doy⟩ := p
  simp only at hstart hlo hhi ⊢
  have hmp : 0 ≤ (5 * doy + 2) / 153 ∧ (5 * doy + 2) / 153 ≤ 11 := by omega
  generalize (5 * doy + 2) / 153 = mp at hmp ⊢
  by_cases h10 : mp < 10
  · rw [if_pos h10, if_pos h10, if_neg (by omega), if_neg (by omega), Int.add_sub_cancel]
    omega
  · rw [if_neg h10, if_neg h10, if_pos (by omega), if_pos (by omega), Int.add_sub_cancel,
      Int.sub_add_cancel]
    omega

example : civil 0 = ⟨1970, 1, 1⟩ := by decide

example : civil 11016 = ⟨2000, 2, 29⟩ := by decide

end Date

end UempPlugin.Lib
