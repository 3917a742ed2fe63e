import UempPlugin.Proofs.DailyGroup
import UempPlugin.Proofs.RotationClock

/-!
# Every message goes to the file of its own day

With the rotation time 00:00 the days of the rotation clock are the local
calendar days, so the reading at which a base name was made and the reading of
a message written under it have the same date. A format without time tokens
sees nothing but the date, and so the name is the one that the message's own
reading would have made.
-/

namespace UempPlugin.Ref

open UempPlugin.Lib

/-! ## Formats made of date tokens -/

/-- The scan of `formatLoop`, looking for `AP`, `ap` and the time letters. -/
def dateOnlyLoop : Nat → Bool → Text → Bool
  | 0, _, _ => true
  | _, _, [] => true
  | k + 1, inQuote, c :: rest =>
      if c = '\'' then
        if rest.head? = some '\'' then dateOnlyLoop k inQuote (rest.drop 1)
        else dateOnlyLoop k (!inQuote) rest
      else if inQuote then dateOnlyLoop k inQuote rest
      else
        !isAmPm c rest && !(['H', 'h', 'm', 's', 'z'].contains c) &&
          dateOnlyLoop k inQuote (rest.drop (repeats c rest))

/-- Outside quotes there are only runs of `y`, `M` and `d` and literals. -/
def DateOnly (fmt : Text) : Prop := dateOnlyLoop fmt.length false fmt = true

instance (fmt : Text) : Decidable (DateOnly fmt) := inferInstanceAs (Decidable (_ = _))

/-- Two readings show the same date. -/
structure SameDate (p p' : LocalDateTimeParts) : Prop where
  year : p.tm.year = p'.tm.year
  mon : p.tm.mon = p'.tm.mon
  mday : p.tm.mday = p'.tm.mday
  wday : p.tm.wday = p'.tm.wday

theorem formatRun_date {p p' : LocalDateTimeParts} (h : SameDate p p') {c : Char}
    (hc : ['H', 'h', 'm', 's', 'z'].contains c = false) (n : Nat) :
    formatRun p c n = formatRun p' c n := by
  simp only [formatRun, h.year, h.mon, h.mday, h.wday]
  split
  any_goals rfl
  all_goals exact absurd hc (by decide)

theorem formatLoop_date {p p' : LocalDateTimeParts} (h : SameDate p p') :
    ∀ (k : Nat) (inQuote : Bool) (fmt : Text), dateOnlyLoop k inQuote fmt = true →
      formatLoop p k inQuote fmt = formatLoop p' k inQuote fmt := by
  intro k
  induction k with
  | zero => intro inQuote fmt _; rfl
  | succ k ih =>
      intro inQuote fmt hd
      match fmt with
      | [] => rfl
      | c :: rest =>
          rw [dateOnlyLoop] at hd
          rw [formatLoop, formatLoop]
          by_cases hq : c = '\''
          · rw [if_pos hq] at hd ⊢
            rw [if_pos hq]
            by_cases hqq : rest.head? = some '\''
            · rw [if_pos hqq] at hd ⊢
              rw [if_pos hqq, ih _ _ hd]
            · rw [if_neg hqq] at hd ⊢
              rw [if_neg hqq, ih _ _ hd]
          · rw [if_neg hq] at hd ⊢
            rw [if_neg hq]
            by_cases hin : inQuote = true
            · rw [if_pos hin] at hd ⊢
              rw [if_pos hin, ih _ _ hd]
            · rw [if_neg hin] at hd ⊢
              rw [if_neg hin]
              simp only [Bool.and_eq_true, Bool.not_eq_true'] at hd
              obtain ⟨⟨ham, hc⟩, hd⟩ := hd
              rw [if_neg (by rw [ham]; decide), if_neg (by rw [ham]; decide),
                formatRun_date h hc, ih _ _ hd]

/-! ## Days cut at midnight -/

namespace DailySink

variable {a : DailyArgs} {offset : Int}

/-- Cut at 00:00, a day is what `localtime_r` calls a day. -/
theorem period_midnight (hh : a.rotationHour = 0) (hm : a.rotationMin = 0) {t : Int}
    (ht : 0 ≤ t) : (a.days offset).period t = (toTimeT t + offset) / secondsPerDay := by
  obtain ⟨-, hhi, hlo⟩ := toTimeT_bounds t
  have hlo := hlo ht
  have hday := Int.ediv_mul_le (toTimeT t + offset) (show secondsPerDay ≠ 0 by decide)
  have hday' := Int.lt_ediv_add_one_mul_self (toTimeT t + offset) (show 0 < secondsPerDay by decide)
  refine Periods.period_eq ?_ ?_
  · simp only [Periods.boundary, DailyArgs.days, hh, hm, secondsPerDay, nanos] at *
    omega
  · simp only [Periods.boundary, DailyArgs.days, hh, hm, secondsPerDay, nanos] at *
    omega

/-- Readings of the same day make the same name. -/
theorem basenameAt_day (hh : a.rotationHour = 0) (hm : a.rotationMin = 0)
    (hfmt : DateOnly a.dateFormat) {t u : Int} (ht : 0 ≤ t) (hu : 0 ≤ u)
    (h : (a.days offset).period t = (a.days offset).period u) :
    a.basenameAt (Zone.fixed offset) t = a.basenameAt (Zone.fixed offset) u := by
  rw [period_midnight hh hm ht, period_midnight hh hm hu] at h
  have hdate :
      SameDate (toLocalParts (Zone.fixed offset) t) (toLocalParts (Zone.fixed offset) u) := by
    constructor <;> simp only [toLocalParts, Zone.fixed, gmtime, h]
  rw [DailyArgs.basenameAt, DailyArgs.basenameAt, makeBasename, makeBasename,
    qtDatetimeFormatSubset, qtDatetimeFormatSubset, formatLoop_date hdate _ _ _ hfmt]

/-! ## Runs -/

theorem clocked_step (ha : a.TimeOfDay) {e last : Int} {s : DailySink}
    (h : Clocked a offset e last s) {ev : Event} (hle : last ≤ ev.now) :
    ∃ e', (e' = e ∨ e' = ev.now) ∧
      Clocked a offset e' ev.now (step a (Zone.fixed offset) s ev) := by
  match ev with
  | .restart now => exact ⟨now, .inr rfl, clocked_start ha now s.disk⟩
  | .log now m =>
      refine ⟨_, ?_, h.log ha hle m⟩
      split
      · exact .inl rfl
      · exact .inr rfl

/-- Over a run with readings that never go back, the base name was made in the
day of the last reading. -/
theorem clocked_run (ha : a.TimeOfDay) :
    ∀ (evs : List Event) {e t0 : Int} {s : DailySink}, Clocked a offset e t0 s → 0 ≤ e → 0 ≤ t0 →
      (t0 :: evs.map Event.now).Pairwise (· ≤ ·) →
      ∃ e', 0 ≤ e' ∧ 0 ≤ lastReading t0 evs ∧
        Clocked a offset e' (lastReading t0 evs) (run a (Zone.fixed offset) s evs) := by
  intro evs
  induction evs with
  | nil => exact fun h he h0 _ => ⟨_, he, h0, h⟩
  | cons ev evs ih =>
      intro e t0 s h he h0 hsorted
      rw [List.map_cons, List.pairwise_cons] at hsorted
      have hle : t0 ≤ ev.now := hsorted.1 _ (List.mem_cons_self)
      obtain ⟨e', hor, hnext⟩ := clocked_step ha h hle
      have he' : 0 ≤ e' := by
        rcases hor with rfl | rfl
        · exact he
        · omega
      have hnow : 0 ≤ ev.now := Int.le_trans h0 hle
      exact ih hnext he' hnow hsorted.2

theorem anchored_run {zone : Zone} :
    ∀ (evs : List Event) {s : DailySink}, Anchored a s → Anchored a (run a zone s evs) := by
  intro evs
  induction evs with
  | nil => exact fun h => h
  | cons ev evs ih => exact fun h => ih (anchored_step h ev)

theorem lastReading_concat (t0 : Int) (evs : List Event) (ev : Event) :
    lastReading t0 (evs ++ [ev]) = ev.now := by
  rw [lastReading, List.foldl_append]
  rfl

/-- The last reading before an event is not later than the event's. -/
theorem lastReading_le {t0 : Int} {evs : List Event} {ev : Event}
    (h : (t0 :: (evs ++ [ev]).map Event.now).Pairwise (· ≤ ·)) : lastReading t0 evs ≤ ev.now := by
  induction evs generalizing t0 with
  | nil => exact (List.pairwise_cons.1 h).1 _ (by simp)
  | cons e evs ih => exact ih (List.pairwise_cons.1 h).2

/-- On a disk without failing calls every message is written. -/
theorem run_returns {zone : Zone} {t0 : Int} {d : Disk Path} {s0 : DailySink} (hd : d.NoFault)
    (hs : construct a zone t0 d = .ok s0) (done : List Event) (now : Int) (m : Bytes) :
    ∃ s', sinkIt a zone now m (run a zone s0 done) = .ok () s' := by
  have hstart : Ready a s0.currentBasename s0 := by
    rw [construct_ok hs]
    exact ⟨hd.of_fault rfl, fun _ ho => by cases ho⟩
  have hrun : Ready a (run a zone s0 done).currentBasename (run a zone s0 done) :=
    ready_run hstart done
  exact ⟨_, sinkIt_returns ⟨hrun.1, fun hb => by rw [← hb]; exact hrun.2 rfl⟩ rfl⟩

/-- With the rotation time 00:00 and a format of date tokens, in a zone with a
constant offset and with a clock that does not go back: every message that is
written, as all are where no call fails, goes to the base file named after the
date of its own reading, and the next rotation is always later than the last
reading. -/
theorem run_dates (a : DailyArgs) (offset t0 : Int) (d : Disk Path) (s0 : DailySink)
    (hs : construct a (Zone.fixed offset) t0 d = .ok s0)
    (hh : a.rotationHour = 0) (hm : a.rotationMin = 0) (hfmt : DateOnly a.dateFormat)
    (h0 : 0 ≤ t0) (evs : List Event) (hsorted : (t0 :: evs.map Event.now).Pairwise (· ≤ ·)) :
    (∀ done now m, done ++ [.log now m] <+: evs →
      ∀ s', sinkIt a (Zone.fixed offset) now m (run a (Zone.fixed offset) s0 done) = .ok () s' →
        s'.fd = some (a.basePath (a.basenameAt (Zone.fixed offset) now)) ∧
        ∃ f, s'.disk.files (a.basePath (a.basenameAt (Zone.fixed offset) now)) = some f ∧
          m <:+ f.bytes) ∧
    (d.NoFault → ∀ done now m, done ++ [.log now m] <+: evs →
      ∃ s', sinkIt a (Zone.fixed offset) now m (run a (Zone.fixed offset) s0 done) = .ok () s') ∧
    ∀ done, done <+: evs →
      lastReading t0 done < (run a (Zone.fixed offset) s0 done).nextRotation := by
  have ha := construct_timeOfDay hs
  have hdates : ∀ done, done <+: evs → (t0 :: done.map Event.now).Pairwise (· ≤ ·) := by
    rintro done ⟨rest, rfl⟩
    rw [List.map_append, ← List.cons_append] at hsorted
    exact (List.pairwise_append.1 hsorted).1
  have hclock : Clocked a offset t0 t0 s0 := by
    rw [construct_ok hs]
    exact clocked_start ha t0 d
  have hanchor : Anchored a s0 := by
    rw [construct_ok hs]
    exact anchored_start a _ t0 d
  refine ⟨fun done now m hpre s' hret => ?_,
    fun hd done now m _ => run_returns hd hs done now m, fun done hpre => ?_⟩
  · have hdone := hdates _ hpre
    obtain ⟨e, he, hlast, hc⟩ := clocked_run ha done hclock h0 h0
      (hdates _ ((List.prefix_append _ _).trans hpre))
    have hle : lastReading t0 done ≤ now := lastReading_le hdone
    have hnow := hc.rotate ha hle
    have hends := sinkIt_ends (anchored_clock (anchored_run done hanchor)) hret
    have hname : s'.currentBasename = a.basenameAt (Zone.fixed offset) now := by
      have hbody := (sinkBody_same m).ok hret
      rw [hbody.basename, hnow.name]
      refine basenameAt_day hh hm hfmt ?_ (by omega) hnow.same
      split <;> omega
    rw [hname] at hends
    exact hends
  · obtain ⟨e, -, -, hc⟩ := clocked_run ha done hclock h0 h0 (hdates done hpre)
    exact hc.lt_next

/-- A new file every local day, one hour ahead of UTC. -/
def everyDay : DailyArgs where
  dir := "logs".toList
  namePattern := "app_{date}".toList
  dateFormat := "yyyyMMdd".toList
  rotationHour := 0
  rotationMin := 0
  maxSizeBits := 8192
  maxFiles := 0

/-- Two writes of which the first is at 23:30 UTC, and a third one days later. -/
def lateWrites : List Event :=
  [.log 84600000000000 [97], .log 86400000000000 [98], .log 600000000000000 [99]]

def everyDaySink : DailySink := start everyDay (Zone.fixed 3600) 0 { files := fun _ => none }

theorem run_dates_everyDay :
    (∀ done now m, done ++ [.log now m] <+: lateWrites →
      ∀ s', sinkIt everyDay (Zone.fixed 3600) now m
          (run everyDay (Zone.fixed 3600) everyDaySink done) = .ok () s' →
        s'.fd = some (everyDay.basePath (everyDay.basenameAt (Zone.fixed 3600) now)) ∧
        ∃ f, s'.disk.files (everyDay.basePath (everyDay.basenameAt (Zone.fixed 3600) now)) =
          some f ∧ m <:+ f.bytes) ∧
    (∀ done now m, done ++ [.log now m] <+: lateWrites →
      ∃ s', sinkIt everyDay (Zone.fixed 3600) now m
        (run everyDay (Zone.fixed 3600) everyDaySink done) = .ok () s') ∧
    ∀ done, done <+: lateWrites →
      lastReading 0 done < (run everyDay (Zone.fixed 3600) everyDaySink done).nextRotation := by
  obtain ⟨hfiles, hreturns, hnext⟩ := run_dates everyDay 3600 0 { files := fun _ => none }
    everyDaySink rfl rfl rfl (by decide) (by decide) lateWrites (by decide)
  exact ⟨hfiles, hreturns fun _ _ => rfl, hnext⟩

end DailySink

end UempPlugin.Ref
