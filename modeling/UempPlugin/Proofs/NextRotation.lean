import Mathlib.Data.Int.LeastGreatest
import UempPlugin.Proofs.RotationTime
import UempPlugin.Ref.ZoneRules

/-!
# The next rotation in a zone with daylight saving

`compute_next_rotation_` overwrites the time of day in the local time of now,
daylight saving flag included, and adds 24 hours to what `mktime` makes of it
when that is no longer ahead. So it applies one offset: that of today's rotation
time if the flag is right there, else the one in force now. The result is the
next rotation time exactly when that offset is in force then. Where it is not,
the clock reads something else at the result.

A zone may also leave out whole days or repeat them; then the offset may be
wrong by as many days as the date is.
-/

namespace UempPlugin.Ref

open UempPlugin.Lib

/-! ## Fields -/

/-- What `timegm` makes of a day's fields with any time of day. -/
theorem timegm_time (sec hour min sec' isdst : Int) :
    timegm { gmtime sec with hour := hour, min := min, sec := sec', isdst := isdst } =
      sec / secondsPerDay * secondsPerDay + hour * 3600 + min * 60 + sec' := by
  have h := timegm_gmtime sec hour min
  rw [timegm] at h ⊢
  exact congrArg (· + sec') (by simpa using h)

theorem timegm_localtime (sec isdst : Int) : timegm { gmtime sec with isdst := isdst } = sec := by
  have h := timegm_time sec (gmtime sec).hour (gmtime sec).min (gmtime sec).sec isdst
  have hday := Int.ediv_mul_le sec (show secondsPerDay ≠ 0 by decide)
  refine h.trans ?_
  simp only [gmtime, secondsPerDay]
  omega

/-- The fields of a time of day on the date of a second. -/
theorem gmtime_time {hour min : Int} (hh : 0 ≤ hour ∧ hour ≤ 23) (hm : 0 ≤ min ∧ min ≤ 59)
    (sec : Int) :
    gmtime (sec / secondsPerDay * secondsPerDay + (hour * 3600 + min * 60)) =
      { gmtime sec with hour := hour, min := min, sec := 0 } := by
  have hdiv : (sec / secondsPerDay * secondsPerDay + (hour * 3600 + min * 60)) / secondsPerDay =
      sec / secondsPerDay := by
    rw [secondsPerDay]
    omega
  have hmod : (sec / secondsPerDay * secondsPerDay + (hour * 3600 + min * 60)) % secondsPerDay =
      hour * 3600 + min * 60 := by
    rw [secondsPerDay]
    omega
  simp only [gmtime, hdiv, hmod, Tm.mk.injEq, and_true]
  omega

namespace ZoneRules

variable (rules : ZoneRules)

theorem timegm_localtime (t : Int) : timegm (rules.localtime t) = rules.clock t :=
  Ref.timegm_localtime _ _

/-! ## Changes come to an end -/

theorem typeAt_eventually : ∃ type t0, ∀ t, t0 ≤ t → rules.typeAt t = type := by
  obtain ⟨first, changes⟩ := rules
  simp only [typeAt]
  induction changes generalizing first with
  | nil => exact ⟨first, 0, fun _ _ => rfl⟩
  | cons change changes ih =>
      obtain ⟨type, t0, h⟩ := ih change.2
      refine ⟨type, max change.1 t0, fun t ht => ?_⟩
      rw [List.foldl_cons, if_pos (by omega)]
      exact h t (by omega)

/-! ## A `mktime` -/

theorem typeAt_mem (t : Int) : rules.typeAt t ∈ rules.types := by
  obtain ⟨first, changes⟩ := rules
  simp only [typeAt, types]
  induction changes generalizing first with
  | nil => simp
  | cons change changes ih =>
      rw [List.foldl_cons, List.map_cons]
      split
      · exact List.mem_cons_of_mem _ (ih change.2)
      · rcases List.mem_cons.1 (ih first) with h | h
        · rw [h]
          exact List.mem_cons_self
        · exact List.mem_cons_of_mem _ (List.mem_cons_of_mem _ h)

theorem mktime_found (t : Int) :
    rules.localtime (rules.mktime (rules.localtime t)) = rules.localtime t := by
  have hfits : rules.fits (rules.localtime t) (rules.typeAt t) := by
    rw [fits, rules.timegm_localtime, clock, Int.add_sub_cancel, beq_self_eq_true]
  rw [mktime]
  cases hfind : rules.types.find? (rules.fits (rules.localtime t)) with
  | some type =>
      have hfound := List.find?_some hfind
      rw [fits, beq_iff_eq] at hfound
      rw [Option.some_or, Option.getD_some, hfound]
  | none => exact absurd hfits (List.find?_eq_none.1 hfind _ (rules.typeAt_mem t))

variable {rules}

theorem mktime_unfound {tm : Tm} (hnone : ∀ t, rules.localtime t ≠ tm) {type : TimeType}
    (hmem : type ∈ rules.types) (hflag : flagged tm type)
    (hflags : ∀ type' ∈ rules.types, flagged tm type' → type'.utoff = type.utoff) :
    rules.mktime tm = timegm tm - type.utoff := by
  have hunfit : rules.types.find? (rules.fits tm) = none := by
    refine List.find?_eq_none.2 fun type' _ hfits => ?_
    rw [fits, beq_iff_eq] at hfits
    exact hnone _ hfits
  rw [mktime, hunfit, Option.none_or]
  cases hfind : rules.types.find? (flagged tm) with
  | some type' =>
      rw [Option.getD_some, hflags type' (List.mem_of_find?_eq_some hfind) (List.find?_some hfind)]
  | none => exact absurd hflag (List.find?_eq_none.1 hfind _ hmem)

/-- Where each flag has one offset, trying the offsets does what is documented. -/
theorem mktime_documented
    (hflags : ∀ type ∈ rules.types, ∀ type' ∈ rules.types,
      type.isdst = type'.isdst → type.utoff = type'.utoff) (s : Int) :
    rules.Mktime rules.mktime s where
  found := rules.mktime_found
  presumed hour min sec hnone := by
    have hflag : ∀ type : TimeType, flagged
        { rules.localtime s with hour := hour, min := min, sec := sec } type =
          ((if type.isdst then 1 else 0 : Int) == if (rules.typeAt s).isdst then 1 else 0) :=
      fun _ => rfl
    refine mktime_unfound hnone (rules.typeAt_mem s) ?_ fun type hmem htype => ?_
    · rw [hflag, beq_self_eq_true]
    · refine hflags type hmem _ (rules.typeAt_mem s) ?_
      rw [hflag] at htype
      revert htype
      cases type.isdst <;> cases (rules.typeAt s).isdst <;> decide

end ZoneRules

namespace DailySink

variable (a : DailyArgs) (rules : ZoneRules)

/-- `rotation_hour_` and `rotation_min_`, in seconds. -/
def rotationSecond : Int := a.rotationHour * 3600 + a.rotationMin * 60

/-- `r` is the first instant after `now` at which the clock reads the rotation
time. -/
def IsNext (zone : Zone) (now r : Int) : Prop :=
  now < r ∧ AtRotationTime a zone r ∧ ∀ u, now < u → AtRotationTime a zone u → r ≤ u

/-- The local date of a second, as a day number. -/
def dayOf (t : Int) : Int := rules.clock t / secondsPerDay

/-- The rotation time comes once on the date of `now`, at second `A`. -/
structure OnceToday (now A : Int) : Prop where
  reads : rules.clock A = dayOf rules (toTimeT now) * secondsPerDay + rotationSecond a
  only : ∀ t, rules.clock t = dayOf rules (toTimeT now) * secondsPerDay + rotationSecond a → t = A

/-- The offset by which the code turns a rotation time into an instant. -/
def appliedOffset (now A : Int) : Int :=
  if (rules.typeAt A).isdst = (rules.typeAt (toTimeT now)).isdst then (rules.typeAt A).utoff
  else (rules.typeAt (toTimeT now)).utoff

/-- The date on which the code looks for the next rotation: today, if with that
offset today's is still ahead. -/
def aimedDay (now A : Int) : Int :=
  if now < fromTimeT (dayOf rules (toTimeT now) * secondsPerDay + rotationSecond a -
      appliedOffset rules now A) then dayOf rules (toTimeT now)
  else dayOf rules (toTimeT now) + 1

/-- At the next rotation time the offset is the one the code applies; should the
date not be the one it looks at, the two differ by as many days. -/
def OffsetKept (mktime : Tm → Int) (now A : Int) : Prop :=
  ∀ next, IsNext a (rules.zone mktime) now (fromTimeT next) →
    (rules.typeAt next).utoff - appliedOffset rules now A =
      (dayOf rules next - aimedDay a rules now A) * secondsPerDay

variable {a rules} {mktime : Tm → Int} {now A : Int}

theorem rotationSecond_bounds (ha : a.TimeOfDay) :
    0 ≤ rotationSecond a ∧ rotationSecond a < secondsPerDay := by
  have hh := ha.hour
  have hm := ha.min
  rw [rotationSecond, secondsPerDay]
  omega

/-! ## Reading the rotation time -/

theorem atRotationTime_clock (ha : a.TimeOfDay) (sec : Int) :
    AtRotationTime a (rules.zone mktime) (fromTimeT sec) ↔
      rules.clock sec % secondsPerDay = rotationSecond a := by
  have hh := ha.hour
  have hm := ha.min
  constructor
  · rintro ⟨sec', heq, hhour, hmin, hsec⟩
    obtain rfl : sec = sec' := by
      rw [fromTimeT, fromTimeT, nanos] at heq
      omega
    simp only [ZoneRules.zone, ZoneRules.localtime, gmtime, secondsPerDay] at hhour hmin hsec
    rw [rotationSecond, secondsPerDay]
    omega
  · intro h
    rw [rotationSecond, secondsPerDay] at h
    refine ⟨sec, rfl, ?_, ?_, ?_⟩
    · simp only [ZoneRules.zone, ZoneRules.localtime, gmtime, secondsPerDay]
      omega
    · simp only [ZoneRules.zone, ZoneRules.localtime, gmtime, secondsPerDay]
      omega
    · simp only [ZoneRules.zone, ZoneRules.localtime, gmtime, secondsPerDay]
      omega

/-- A second at which the clock reads the rotation time, by its date and the
offset in force. -/
theorem rotationTime_eq {sec : Int} (h : rules.clock sec % secondsPerDay = rotationSecond a) :
    sec = dayOf rules sec * secondsPerDay + rotationSecond a - (rules.typeAt sec).utoff := by
  have hday := Int.mul_ediv_add_emod (rules.clock sec) secondsPerDay
  rw [h, ZoneRules.clock, Int.mul_comm] at hday
  rw [dayOf, ZoneRules.clock]
  omega

variable (a rules now) in
/-- There is a next rotation time. -/
theorem exists_isNext (ha : a.TimeOfDay) (mktime : Tm → Int) :
    ∃ next, IsNext a (rules.zone mktime) now (fromTimeT next) := by
  obtain ⟨type, t0, htype⟩ := rules.typeAt_eventually
  obtain ⟨hlo, hhi, -⟩ := toTimeT_bounds now
  have hrot := rotationSecond_bounds ha
  -- behind the last change there is one a day
  have hsome : ∃ sec, now < fromTimeT sec ∧
      rules.clock sec % secondsPerDay = rotationSecond a := by
    let m := max t0 (toTimeT now + 1)
    let sec := ((m + type.utoff) / secondsPerDay + 1) * secondsPerDay + rotationSecond a - type.utoff
    have hm : m < sec := by
      simp only [sec, secondsPerDay] at hrot ⊢
      omega
    refine ⟨sec, ?_, ?_⟩
    · rw [fromTimeT]
      rw [nanos] at hhi ⊢
      omega
    · rw [ZoneRules.clock, htype sec (by omega)]
      simp only [sec, secondsPerDay] at hrot ⊢
      omega
  have hbound : ∀ sec, (now < fromTimeT sec ∧
      rules.clock sec % secondsPerDay = rotationSecond a) → toTimeT now - 1 ≤ sec := by
    rintro sec ⟨h, -⟩
    rw [fromTimeT, nanos] at h
    rw [nanos] at hlo
    omega
  obtain ⟨next, ⟨hlt, hreads⟩, hleast⟩ := Int.exists_least_of_bdd ⟨_, hbound⟩ hsome
  refine ⟨next, hlt, (atRotationTime_clock ha next).2 hreads, fun u hu hat => ?_⟩
  obtain ⟨sec, rfl, -⟩ := id hat
  have hle := hleast sec ⟨hu, (atRotationTime_clock ha sec).1 hat⟩
  exact Int.mul_le_mul_of_nonneg_right hle (by decide)

theorem IsNext.unique {zone : Zone} {r r' : Int} (h : IsNext a zone now r)
    (h' : IsNext a zone now r') : r = r' :=
  Int.le_antisymm (h.2.2 _ h'.1 h'.2.1) (h'.2.2 _ h.1 h.2.1)

/-! ## What the code computes -/

theorem localtime_today (ha : a.TimeOfDay) (hA : OnceToday a rules now A)
    (hdst : (rules.typeAt A).isdst = (rules.typeAt (toTimeT now)).isdst) :
    rules.localtime A = { rules.localtime (toTimeT now) with
      hour := a.rotationHour, min := a.rotationMin, sec := 0 } := by
  rw [ZoneRules.localtime, hA.reads, dayOf, rotationSecond, gmtime_time ha.hour ha.min, hdst]
  rfl

theorem mktime_today (ha : a.TimeOfDay) (hmk : rules.Mktime mktime (toTimeT now))
    (hA : OnceToday a rules now A) :
    mktime { rules.localtime (toTimeT now) with
        hour := a.rotationHour, min := a.rotationMin, sec := 0 } =
      dayOf rules (toTimeT now) * secondsPerDay + rotationSecond a - appliedOffset rules now A := by
  have htimegm : timegm { rules.localtime (toTimeT now) with
      hour := a.rotationHour, min := a.rotationMin, sec := 0 } =
        dayOf rules (toTimeT now) * secondsPerDay + rotationSecond a := by
    rw [ZoneRules.localtime, timegm_time, dayOf, rotationSecond]
    omega
  -- whatever has these fields is today's rotation time
  have honly : ∀ t, rules.localtime t = { rules.localtime (toTimeT now) with
      hour := a.rotationHour, min := a.rotationMin, sec := 0 } → t = A := by
    intro t ht
    refine hA.only t ?_
    rw [← rules.timegm_localtime, ht, htimegm]
  rw [appliedOffset]
  split
  · next hdst =>
    have htoday := localtime_today ha hA hdst
    have hfound := hmk.found A
    rw [htoday] at hfound
    have hreads := hA.reads
    rw [ZoneRules.clock] at hreads
    rw [honly _ hfound]
    omega
  · next hdst =>
    rw [hmk.presumed, htimegm]
    intro t ht
    have hflag := congrArg Tm.isdst ht
    rw [honly t ht] at hflag
    simp only [ZoneRules.localtime] at hflag
    refine hdst ?_
    revert hflag
    cases (rules.typeAt A).isdst <;> cases (rules.typeAt (toTimeT now)).isdst <;> decide

theorem computeNextRotation_rules (ha : a.TimeOfDay) (hmk : rules.Mktime mktime (toTimeT now))
    (hA : OnceToday a rules now A) :
    computeNextRotation a (rules.zone mktime) now =
      fromTimeT (aimedDay a rules now A * secondsPerDay + rotationSecond a -
        appliedOffset rules now A) := by
  have htoday := mktime_today ha hmk hA
  simp only [computeNextRotation, ZoneRules.zone, htoday, aimedDay]
  split
  · rfl
  · simp only [fromTimeT, hours, secondsPerDay, nanos]
    omega

/-- The computed instant is the next rotation time exactly when the offset that
the code applies is in force there. -/
theorem next_rotation_iff (ha : a.TimeOfDay) (hmk : rules.Mktime mktime (toTimeT now))
    (hA : OnceToday a rules now A) :
    IsNext a (rules.zone mktime) now (computeNextRotation a (rules.zone mktime) now) ↔
      OffsetKept a rules mktime now A := by
  rw [computeNextRotation_rules ha hmk hA]
  constructor
  · intro h next hnext
    have heq := h.unique hnext
    have hnext := rotationTime_eq ((atRotationTime_clock ha next).1 hnext.2.1)
    simp only [fromTimeT, nanos, secondsPerDay] at heq hnext ⊢
    omega
  · intro h
    obtain ⟨next, hnext⟩ := exists_isNext a rules now ha mktime
    have hkept := h next hnext
    have heq := rotationTime_eq ((atRotationTime_clock ha next).1 hnext.2.1)
    have hresult : aimedDay a rules now A * secondsPerDay + rotationSecond a -
        appliedOffset rules now A = next := by
      simp only [secondsPerDay] at hkept heq ⊢
      omega
    rw [hresult]
    exact hnext

/-- When the next rotation time is on the date the code looks at, the offset has
to be the same. -/
theorem next_rotation_aimed (ha : a.TimeOfDay) (hmk : rules.Mktime mktime (toTimeT now))
    (hA : OnceToday a rules now A) {next : Int}
    (hnext : IsNext a (rules.zone mktime) now (fromTimeT next))
    (hday : dayOf rules next = aimedDay a rules now A) :
    IsNext a (rules.zone mktime) now (computeNextRotation a (rules.zone mktime) now) ↔
      (rules.typeAt next).utoff = appliedOffset rules now A := by
  rw [computeNextRotation_rules ha hmk hA, ← hday]
  have heq := rotationTime_eq ((atRotationTime_clock ha next).1 hnext.2.1)
  constructor
  · intro h
    have hresult := h.unique hnext
    simp only [fromTimeT, nanos, secondsPerDay] at hresult heq
    omega
  · intro h
    rw [← h, ← heq]
    exact hnext

/-! ## A day of 23 hours -/

/-- An hour ahead of UTC, and two from 2024-03-31, 01:00 UTC on. -/
def springForward : ZoneRules where
  first := ⟨3600, false⟩
  changes := [(1711846800, ⟨7200, true⟩)]

/-- Rotation at 04:00. -/
def atFour : DailyArgs where
  dir := []
  namePattern := datedPattern
  dateFormat := datedFormat
  rotationHour := 4
  rotationMin := 0
  maxSizeBits := 8
  maxFiles := 1

/-- The second of 04:00 on the day of the change, as the clock reads. -/
def changeDayFour : Int := 1711850400

theorem springForward_mktime (s : Int) : springForward.Mktime springForward.mktime s :=
  ZoneRules.mktime_documented (by decide) s

theorem springForward_clock (t : Int) :
    springForward.clock t = if 1711846800 ≤ t then t + 7200 else t + 3600 := by
  rw [ZoneRules.clock, ZoneRules.typeAt]
  simp only [springForward, List.foldl_cons, List.foldl_nil]
  split <;> rfl

theorem atFour_timeOfDay : atFour.TimeOfDay := ⟨by decide, by decide⟩

theorem springForward_once {now : Int}
    (hnow : dayOf springForward (toTimeT now) * secondsPerDay + rotationSecond atFour =
      springForward.clock changeDayFour) : OnceToday atFour springForward now changeDayFour where
  reads := hnow.symm
  only t ht := by
    rw [hnow, springForward_clock, springForward_clock, changeDayFour] at ht
    rw [changeDayFour]
    split at ht <;> omega

/-- From 00:30 on, 04:00 is next. -/
theorem springForward_next {s : Int} (hs : 1711841400 ≤ s ∧ s < changeDayFour) :
    IsNext atFour (springForward.zone springForward.mktime) (fromTimeT s)
      (fromTimeT changeDayFour) := by
  have hfour : rotationSecond atFour = 14400 := rfl
  rw [changeDayFour] at hs ⊢
  refine ⟨?_, ?_, fun u hu hat => ?_⟩
  · rw [fromTimeT, fromTimeT, nanos]
    omega
  · rw [atRotationTime_clock atFour_timeOfDay, springForward_clock]
    rfl
  · obtain ⟨sec, rfl, -⟩ := id hat
    rw [atRotationTime_clock atFour_timeOfDay, springForward_clock, hfour, secondsPerDay] at hat
    rw [fromTimeT, fromTimeT, nanos] at hu ⊢
    split at hat <;> omega

/-- At 03:00, after the change, the next rotation time is found. -/
theorem next_rotation_after_change :
    IsNext atFour (springForward.zone springForward.mktime) (fromTimeT 1711846800)
      (computeNextRotation atFour (springForward.zone springForward.mktime)
        (fromTimeT 1711846800)) := by
  refine (next_rotation_iff atFour_timeOfDay (springForward_mktime _)
    (springForward_once (by decide +kernel))).2 fun next hnext => ?_
  have heq := hnext.unique (springForward_next (by decide))
  obtain rfl : next = changeDayFour := by
    rw [fromTimeT, fromTimeT, nanos] at heq
    omega
  decide +kernel

/-- At 00:30, before it, the result is 05:00. -/
theorem next_rotation_before_change :
    springForward.Mktime springForward.mktime (toTimeT (fromTimeT 1711841400)) ∧
      OnceToday atFour springForward (fromTimeT 1711841400) changeDayFour ∧
      computeNextRotation atFour (springForward.zone springForward.mktime)
        (fromTimeT 1711841400) = fromTimeT (changeDayFour + 3600) ∧
      ¬ IsNext atFour (springForward.zone springForward.mktime) (fromTimeT 1711841400)
        (computeNextRotation atFour (springForward.zone springForward.mktime)
          (fromTimeT 1711841400)) := by
  have hresult : computeNextRotation atFour (springForward.zone springForward.mktime)
      (fromTimeT 1711841400) = fromTimeT (changeDayFour + 3600) := by
    decide +kernel
  refine ⟨springForward_mktime _, springForward_once (by decide +kernel), hresult, fun h => ?_⟩
  have heq := h.unique (springForward_next (by decide))
  rw [hresult] at heq
  revert heq
  decide

end DailySink

end UempPlugin.Ref
