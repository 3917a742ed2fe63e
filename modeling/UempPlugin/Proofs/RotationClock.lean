import UempPlugin.Lib.Period
import UempPlugin.Proofs.DailyTargets

/-!
# The rotation clock in a zone with a constant offset

`compute_next_rotation_` works with calendar fields: it splits a reading into
a local date and a time of day, overwrites the time and asks `mktime` for the
instant. With a constant offset all of that is arithmetic on one line cut into
days at the rotation time, and the function returns the next cut
(`computeNextRotation_eq`); the catching-up loop after it never runs.

`Clocked` is what a sink knows about time: it was last told the base name at
some reading `e`, no cut lies between `e` and the last reading, and the next
rotation is the next cut.
-/

namespace UempPlugin.Ref

open UempPlugin.Lib

/-! ## Dates and instants -/

/-- Truncation towards zero stays within a second. -/
theorem toTimeT_bounds (t : Int) :
    (toTimeT t - 1) * nanos < t ∧ t < (toTimeT t + 1) * nanos ∧
      (0 ≤ t → toTimeT t * nanos ≤ t) := by
  rw [toTimeT, nanos]
  rcases Int.le_total 0 t with h | h
  · rw [Int.tdiv_eq_ediv_of_nonneg h]
    omega
  · obtain ⟨n, rfl⟩ : ∃ n, t = -n := ⟨-t, by omega⟩
    rw [Int.neg_tdiv, Int.tdiv_eq_ediv_of_nonneg (by omega)]
    omega

/-- The instant of a local date with the time of day overwritten. -/
theorem timegm_gmtime (sec hour min : Int) :
    timegm { gmtime sec with hour := hour, min := min, sec := 0 } =
      sec / secondsPerDay * secondsPerDay + hour * 3600 + min * 60 := by
  have hdate : Date.mk ((Date.civil (sec / secondsPerDay)).year - 1900 + 1900)
      ((Date.civil (sec / secondsPerDay)).month - 1 + 1)
      (Date.civil (sec / secondsPerDay)).day = Date.civil (sec / secondsPerDay) := by
    rw [Int.sub_add_cancel, Int.sub_add_cancel]
  rw [timegm, gmtime, hdate, Date.dayNumber_civil, Int.add_zero]

namespace DailyArgs

/-- The days of a sink, cut at its rotation time in the zone `offset`. -/
def days (a : DailyArgs) (offset : Int) : Periods where
  len := secondsPerDay * nanos
  shift := (a.rotationHour * 3600 + a.rotationMin * 60 - offset) * nanos
  pos := by decide

/-- The constructor's check of the rotation time. -/
structure TimeOfDay (a : DailyArgs) : Prop where
  hour : 0 ≤ a.rotationHour ∧ a.rotationHour ≤ 23
  min : 0 ≤ a.rotationMin ∧ a.rotationMin ≤ 59

end DailyArgs

namespace DailySink

variable {a : DailyArgs} {offset : Int}

theorem construct_timeOfDay {zone : Zone} {now : Int} {d : Disk Path} {s : DailySink}
    (h : construct a zone now d = .ok s) : a.TimeOfDay := by
  rw [construct] at h
  split at h
  · cases h
  · exact ⟨by omega, by omega⟩

theorem computeNextRotation_eq (ha : a.TimeOfDay) (t : Int) :
    computeNextRotation a (Zone.fixed offset) t =
      (a.days offset).boundary ((a.days offset).period t + 1) := by
  obtain ⟨hlo, hhi, -⟩ := toTimeT_bounds t
  have hday := Int.ediv_mul_le (toTimeT t + offset) (show secondsPerDay ≠ 0 by decide)
  have hday' := Int.lt_ediv_add_one_mul_self (toTimeT t + offset) (show 0 < secondsPerDay by decide)
  have hh := ha.hour
  have hm := ha.min
  simp only [computeNextRotation, Zone.fixed, timegm_gmtime, fromTimeT]
  generalize toTimeT t = sec at hlo hhi hday hday' ⊢
  generalize (sec + offset) / secondsPerDay = day at hday hday' ⊢
  -- Whether today's rotation is still to come decides which cut is the next.
  split
  · next ht =>
      have hperiod : (a.days offset).period t = day - 1 := by
        refine Periods.period_eq ?_ ?_
        · simp only [Periods.boundary, DailyArgs.days, secondsPerDay, nanos] at *
          omega
        · simp only [Periods.boundary, DailyArgs.days, secondsPerDay, nanos] at *
          omega
      rw [hperiod]
      simp only [Periods.boundary, DailyArgs.days, secondsPerDay, nanos] at *
      omega
  · next ht =>
      have hperiod : (a.days offset).period t = day := by
        refine Periods.period_eq ?_ ?_
        · simp only [Periods.boundary, DailyArgs.days, secondsPerDay, nanos] at *
          omega
        · simp only [Periods.boundary, DailyArgs.days, secondsPerDay, nanos] at *
          omega
      rw [hperiod]
      simp only [Periods.boundary, DailyArgs.days, secondsPerDay, nanos, hours] at *
      omega

/-- What the sink knows about time after its last reading `last`. -/
structure Clocked (a : DailyArgs) (offset : Int) (e last : Int) (s : DailySink) : Prop where
  name : s.currentBasename = a.basenameAt (Zone.fixed offset) e
  next : s.nextRotation = (a.days offset).boundary ((a.days offset).period last + 1)
  same : (a.days offset).period e = (a.days offset).period last

theorem Clocked.lt_next {e last : Int} {s : DailySink} (h : Clocked a offset e last s) :
    last < s.nextRotation := by
  rw [h.next]
  exact Periods.lt_boundary last

theorem clocked_start (ha : a.TimeOfDay) (now : Int) (d : Disk Path) :
    Clocked a offset now now (start a (Zone.fixed offset) now d) :=
  ⟨rfl, computeNextRotation_eq ha now, rfl⟩

theorem Clocked.same_group {e last : Int} {s s' : DailySink} (h : Clocked a offset e last s)
    (hs : SameGroup a s s') : Clocked a offset e last s' :=
  ⟨hs.basename.trans h.name, hs.next.trans h.next, h.same⟩

/-- A later reading in the same period changes nothing; one in a later period
names the group anew. -/
theorem Clocked.rotate (ha : a.TimeOfDay) {e last now : Int} {s : DailySink}
    (h : Clocked a offset e last s) (hle : last ≤ now) :
    Clocked a offset
      (if (a.days offset).period last = (a.days offset).period now then e else now) now
      (rotateIfNeededByTime a (Zone.fixed offset) now s) := by
  have hmono := Periods.period_mono (P := a.days offset) hle
  rw [rotateIfNeededByTime, h.next]
  by_cases ht : now < (a.days offset).boundary ((a.days offset).period last + 1)
  · have heq : (a.days offset).period last = (a.days offset).period now := by
      have := Periods.lt_boundary_iff.1 ht
      omega
    rw [if_pos ht, if_pos heq]
    exact ⟨h.name, by rw [h.next, heq], h.same.trans heq⟩
  · have hne : (a.days offset).period last ≠ (a.days offset).period now := by
      intro heq
      rw [heq] at ht
      exact ht (Periods.lt_boundary now)
    rw [if_neg ht, if_neg hne]
    refine ⟨rfl, ?_, rfl⟩
    simp only [catchUp, computeNextRotation_eq ha]
    rw [if_neg (Int.not_le.2 (Periods.lt_boundary now))]

theorem Clocked.log (ha : a.TimeOfDay) {e last now : Int} {s : DailySink}
    (h : Clocked a offset e last s) (hle : last ≤ now) (m : Bytes) :
    Clocked a offset
      (if (a.days offset).period last = (a.days offset).period now then e else now) now
      (step a (Zone.fixed offset) s (.log now m)) := by
  have hsame := sinkBody_same (a := a) m (rotateIfNeededByTime a (Zone.fixed offset) now s)
  have hnext := (h.rotate ha hle).same_group hsame
  rw [step, sinkIt_eq]
  cases hr : sinkBody a m (rotateIfNeededByTime a (Zone.fixed offset) now s) with
  | ok _ s' =>
      rw [hr] at hnext
      exact hnext
  | error _ s' =>
      rw [hr] at hnext
      exact hnext

/-- An open sink stays anchored over a whole run. -/
theorem anchored_step {zone : Zone} {s : DailySink} (h : Anchored a s) (ev : Event) :
    Anchored a (step a zone s ev) := by
  match ev with
  | .restart now => exact anchored_start a zone now s.disk
  | .log now m =>
      have hclock : Anchored a (rotateIfNeededByTime a zone now s) := anchored_clock h
      have hsame := sinkBody_same (a := a) m (rotateIfNeededByTime a zone now s)
      rw [step, sinkIt_eq]
      cases hr : sinkBody a m (rotateIfNeededByTime a zone now s) with
      | ok _ s' =>
          rw [hr] at hsame
          exact hsame.anchored hclock
      | error _ s' =>
          rw [hr] at hsame
          exact hsame.anchored hclock

end DailySink

end UempPlugin.Ref
