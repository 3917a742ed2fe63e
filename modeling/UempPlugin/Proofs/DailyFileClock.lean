import UempPlugin.Proofs.CalendarNames
import UempPlugin.Proofs.DailyDates
import UempPlugin.Proofs.DailyFile

/-!
# When the daily sink opens a name again

In a zone with a constant offset the names are days, and the rotations cut the
line of time once a day. A sink that rotates at some time of the day can open
the file of one day twice: before that time, and again at it. It cannot do so
three times. So with two files or more the file that is written is never the one
that is given up; and with the rotation at 00:00 no name is opened twice at all.

The clock may go on between a message's making and its writing. All that is used
is that no message is written before it was made.
-/

namespace UempPlugin.Ref

open UempPlugin.Lib
open UempPlugin.Spec

/-! ## A name is a day -/

theorem isCalendarDate_gmtime {sec : Int} (h : -719468 ≤ sec / secondsPerDay) :
    IsCalendarDate (gmtime sec) := by
  have hfields : (gmtime sec).year + 1900 = (Date.civil (sec / secondsPerDay)).year ∧
      (gmtime sec).mon + 1 = (Date.civil (sec / secondsPerDay)).month ∧
      (gmtime sec).mday = (Date.civil (sec / secondsPerDay)).day :=
    ⟨Int.sub_add_cancel _ _, Int.sub_add_cancel _ _, rfl⟩
  generalize sec / secondsPerDay = n at h hfields
  obtain ⟨-, hlo, hhi⟩ := Date.yearOf_spec (n + Date.epoch)
  have hyear : 0 ≤ (Date.yearOf (n + Date.epoch)).1 := by
    simp only [Date.yearOf, Date.epoch]
    omega
  rw [Date.civil] at hfields
  generalize Date.yearOf (n + Date.epoch) = p at hlo hhi hyear hfields
  obtain ⟨y, doy⟩ := p
  simp only at hlo hhi hyear hfields
  obtain ⟨hy, hm, hd⟩ := hfields
  refine ⟨?_, ?_, ?_⟩
  · rw [hy]
    split
    · exact hyear
    · omega
  · split at hm
    · omega
    · omega
  · omega

theorem printfInt_eq {v : Int} (hv : 0 ≤ v) (width : Nat) :
    printfInt width v = appendInt v width := by
  obtain ⟨n, rfl⟩ := Int.eq_ofNat_of_zero_le hv
  rw [appendInt_nat, printfInt, if_neg (by omega)]
  rfl

namespace DailyFileArgs

/-- The file of a day, counted from the epoch. -/
def dayPath (a : DailyFileArgs) (day : Int) : Path :=
  calcDailyPath a.baseFilename (gmtime (day * secondsPerDay))

/-- The local day of an instant. -/
def dayOf (offset t : Int) : Int := (toTimeT t + offset) / secondsPerDay

theorem pathAt_day (a : DailyFileArgs) (offset t : Int) :
    a.pathAt (Zone.fixed offset) t = a.dayPath (dayOf offset t) := by
  have hday : dayOf offset t * secondsPerDay / secondsPerDay = dayOf offset t :=
    Int.mul_ediv_cancel _ (by decide)
  simp only [pathAt, dayPath, calcDailyPath, Zone.fixed, gmtime, hday]
  rfl

theorem dayPath_injective (a : DailyFileArgs) {m n : Int} (hm : -719468 ≤ m) (hn : -719468 ≤ n)
    (h : a.dayPath m = a.dayPath n) : m = n := by
  have hcal : ∀ {n : Int}, -719468 ≤ n → IsCalendarDate (gmtime (n * secondsPerDay)) := by
    intro n hn
    refine isCalendarDate_gmtime ?_
    rw [Int.mul_ediv_cancel _ (by decide)]
    exact hn
  let parts : List DatePart := [.year, .literal ['-'], .month, .literal ['-'], .day]
  have htext : ∀ {tm : Tm}, IsCalendarDate tm →
      printfInt 4 (tm.year + 1900) ++ '-' :: printfInt 2 (tm.mon + 1) ++
          '-' :: printfInt 2 tm.mday =
        parts.flatMap (DatePart.text tm) := by
    intro tm htm
    have hmon := htm.mon
    have hmday := htm.mday
    rw [printfInt_eq htm.year, printfInt_eq (by omega), printfInt_eq (by omega)]
    simp [parts, DatePart.text]
  rw [dayPath, dayPath, calcDailyPath, calcDailyPath] at h
  have hdate := (List.cons_inj_right _).1
    (List.append_cancel_left (List.append_cancel_right h))
  rw [htext (hcal hm), htext (hcal hn)] at hdate
  obtain ⟨hy, hmo, hd⟩ := date_eq_of_text (hcal hm) (hcal hn) (by simp [parts]) (by simp [parts])
    (by simp [parts]) hdate
  have hcivil : Date.civil m = Date.civil n := by
    simp only [gmtime, Int.mul_ediv_cancel _ (show secondsPerDay ≠ 0 by decide)] at hy hmo hd
    cases hc : Date.civil m
    cases hc' : Date.civil n
    simp only [hc, hc'] at hy hmo hd
    congr 1 <;> omega
  rw [← Date.dayNumber_civil m, hcivil, Date.dayNumber_civil]

end DailyFileArgs

namespace DailyFileSink

variable {a : DailyFileArgs} {s : DailyFileSink} {offset : Int}

/-! ## The days and the cuts -/

/-- The rotation time, as arguments of the repository's own sink. -/
def clock (a : DailyFileArgs) : DailyArgs where
  dir := []
  namePattern := []
  dateFormat := []
  rotationHour := a.rotationH
  rotationMin := a.rotationM
  maxSizeBits := 0
  maxFiles := a.maxFiles

/-- The days of a sink, cut at its rotation time. -/
def days (a : DailyFileArgs) (offset : Int) : Periods := (clock a).days offset

theorem construct_timeOfDay {zone : Zone} {now nowNext nowInit : Int} {d d' : Disk Path}
    (h : construct a zone now nowNext nowInit d = .ok s d') : (clock a).TimeOfDay := by
  rw [construct] at h
  split at h
  · cases h
  · next hcheck =>
      simp only [not_or, Int.not_lt] at hcheck
      exact ⟨⟨hcheck.1, hcheck.2.1⟩, hcheck.2.2⟩

theorem nextRotationTp_eq (ha : (clock a).TimeOfDay) (now : Int) :
    nextRotationTp a (Zone.fixed offset) now =
      (days a offset).boundary ((days a offset).period now + 1) :=
  DailySink.computeNextRotation_eq ha now

/-- An instant is in the piece that begins on its day or in the one before. -/
theorem period_day (offset : Int) (ha : (clock a).TimeOfDay) {t : Int} (ht : 0 ≤ t) :
    (days a offset).period t ≤ DailyFileArgs.dayOf offset t ∧
      DailyFileArgs.dayOf offset t ≤ (days a offset).period t + 1 := by
  obtain ⟨-, hhi, hlo⟩ := toTimeT_bounds t
  have hlo := hlo ht
  have hday := Int.ediv_mul_le (toTimeT t + offset) (show secondsPerDay ≠ 0 by decide)
  have hday' := Int.lt_ediv_add_one_mul_self (toTimeT t + offset) (show 0 < secondsPerDay by decide)
  have hh := ha.hour
  have hm := ha.min
  rw [DailyFileArgs.dayOf]
  generalize (toTimeT t + offset) / secondsPerDay = day at hday hday' ⊢
  have hupper : t < (days a offset).boundary (day + 1) := by
    simp only [Periods.boundary, days, DailyArgs.days, secondsPerDay, nanos] at *
    omega
  have hlower : ¬ t < (days a offset).boundary (day - 2 + 1) := by
    simp only [Periods.boundary, days, DailyArgs.days, secondsPerDay, nanos] at *
    omega
  rw [Periods.lt_boundary_iff] at hupper hlower
  omega

/-! ## When names are opened -/

/-- The times of the messages that open a file. -/
def openTimes (a : DailyFileArgs) (zone : Zone) : Int → List Event → List Int
  | _, [] => []
  | tp, e :: es =>
      if e.time ≥ tp then e.time :: openTimes a zone (nextRotationTp a zone e.now) es
      else openTimes a zone tp es

theorem openings_eq (a : DailyFileArgs) (zone : Zone) : ∀ (es : List Event) (tp : Int),
    openings a zone tp es = (openTimes a zone tp es).map (a.pathAt zone) := by
  intro es
  induction es with
  | nil => exact fun _ => rfl
  | cons e es ih =>
      intro tp
      rw [openings, turns, DatedLog.opened_cons, openTimes, turnOf]
      split
      · exact congrArg (a.pathAt zone e.time :: ·) (ih _)
      · exact ih tp

/-- Each file is opened in a later piece than the one before. -/
theorem openTimes_increase (offset : Int) (ha : (clock a).TimeOfDay) :
    ∀ (es : List Event) (k : Int),
    (∀ e ∈ es, e.time ≤ e.now) →
      let ts := openTimes a (Zone.fixed offset) ((days a offset).boundary (k + 1)) es
      (∀ t ∈ ts, k < (days a offset).period t) ∧
        ts.Pairwise fun t u => (days a offset).period t < (days a offset).period u := by
  intro es
  induction es with
  | nil => exact fun k _ => ⟨fun _ ht => (nomatch ht), .nil⟩
  | cons e es ih =>
      intro k hes
      have hrest : ∀ e ∈ es, e.time ≤ e.now := fun e he => hes e (List.mem_cons_of_mem _ he)
      rw [openTimes]
      split
      · next hopen =>
          have hnow := Periods.period_mono (P := days a offset) (hes e List.mem_cons_self)
          have hcut : k < (days a offset).period e.time := by
            refine Int.not_le.1 fun hle => ?_
            exact absurd hopen (Int.not_le.2 (Periods.lt_boundary_iff.2 hle))
          obtain ⟨hlater, hsorted⟩ := ih ((days a offset).period e.now) hrest
          rw [nextRotationTp_eq ha]
          refine ⟨fun t ht => ?_, .cons (fun t ht => ?_) hsorted⟩
          · rcases List.mem_cons.1 ht with rfl | ht
            · exact hcut
            · exact Int.lt_trans hcut (Int.lt_of_le_of_lt hnow (hlater t ht))
          · exact Int.lt_of_le_of_lt hnow (hlater t ht)
      · exact ih k hrest

/-- The days the constructor looks back to are one piece apart. -/
theorem daysBack_decrease (offset : Int) : ∀ (m : Nat) (now : Int), hours 24 * m ≤ now →
    (∀ t ∈ daysBack m now, 0 ≤ t ∧ (days a offset).period t ≤ (days a offset).period now) ∧
      (daysBack m now).Pairwise fun t u => (days a offset).period u < (days a offset).period t := by
  intro m
  induction m with
  | zero => exact fun now _ => ⟨fun _ ht => (nomatch ht), .nil⟩
  | succ m ih =>
      intro now hnow
      have hback : (days a offset).period (now - hours 24) = (days a offset).period now - 1 := by
        refine Periods.period_eq ?_ ?_
        · have hle := Periods.boundary_le (P := days a offset) now
          simp only [Periods.boundary, days, DailyArgs.days, secondsPerDay, nanos, hours] at *
          omega
        · have hlt := Periods.lt_boundary (P := days a offset) now
          simp only [Periods.boundary, days, DailyArgs.days, secondsPerDay, nanos, hours] at *
          omega
      have hpos : 0 ≤ hours 24 := by decide
      obtain ⟨hall, hsorted⟩ := ih (now - hours 24) (by
        rw [Int.natCast_add, Int.mul_add] at hnow
        omega)
      rw [hback] at hall
      refine ⟨fun t ht => ?_, .cons (fun t ht => ?_) hsorted⟩
      · rcases List.mem_cons.1 ht with rfl | ht
        · exact ⟨Int.le_trans (Int.mul_nonneg hpos (Int.natCast_nonneg _)) hnow, Int.le_refl _⟩
        · exact ⟨(hall t ht).1, Int.le_trans (hall t ht).2 (by omega)⟩
      · exact Int.lt_of_le_sub_one (hall t ht).2

/-- Readings of one day look back to the same names. -/
theorem daysBack_names (a : DailyFileArgs) (offset : Int) : ∀ (m : Nat) {t u : Int},
    hours 24 * m ≤ t → hours 24 * m ≤ u →
      DailyFileArgs.dayOf offset t = DailyFileArgs.dayOf offset u →
        (daysBack m t).map (a.pathAt (Zone.fixed offset)) =
          (daysBack m u).map (a.pathAt (Zone.fixed offset)) := by
  intro m
  induction m with
  | zero => exact fun _ _ _ => rfl
  | succ m ih =>
      intro t u ht hu hday
      have hpos : 0 ≤ hours 24 * m := Int.mul_nonneg (by decide) (Int.natCast_nonneg m)
      rw [Int.natCast_add, Int.mul_add] at ht hu
      have hback : ∀ {t : Int}, hours 24 * m + hours 24 * (1 : Nat) ≤ t →
          DailyFileArgs.dayOf offset (t - hours 24) = DailyFileArgs.dayOf offset t - 1 := by
        intro t ht
        have hsec : toTimeT (t - hours 24) = toTimeT t - secondsPerDay := by
          rw [toTimeT, toTimeT, Int.tdiv_eq_ediv_of_nonneg (by omega),
            Int.tdiv_eq_ediv_of_nonneg (by simp only [hours, nanos] at *; omega)]
          simp only [hours, nanos, secondsPerDay]
          omega
        rw [DailyFileArgs.dayOf, DailyFileArgs.dayOf, hsec]
        simp only [secondsPerDay]
        omega
      have hrest := ih (t := t - hours 24) (u := u - hours 24) (by omega) (by omega)
        (by rw [hback ht, hback hu, hday])
      rw [daysBack, daysBack, List.map_cons, List.map_cons, hrest, DailyFileArgs.pathAt_day,
        DailyFileArgs.pathAt_day, hday]

theorem daysBack_length : ∀ (m : Nat) (now : Int), (daysBack m now).length = m := by
  intro m
  induction m with
  | zero => exact fun _ => rfl
  | succ m ih => exact fun now => congrArg (· + 1) (ih _)

theorem dayOf_ge (hoffset : -secondsPerDay ≤ offset) {t : Int} (ht : 0 ≤ t) :
    -719468 ≤ DailyFileArgs.dayOf offset t := by
  have hsec : 0 ≤ toTimeT t := by
    rw [toTimeT, Int.tdiv_eq_ediv_of_nonneg ht]
    exact Int.ediv_nonneg ht (by decide)
  rw [DailyFileArgs.dayOf]
  simp only [secondsPerDay] at *
  omega

/-! ## The files of a run -/

theorem period_gap {P : Periods} {ts : List Int}
    (h : ts.Pairwise fun t u => P.period t < P.period u) {i : Nat} {t : Int}
    (hi : ts[i]? = some t) :
    ∀ (n : Nat) {u : Int}, ts[i + n]? = some u → P.period t + n ≤ P.period u := by
  intro n
  induction n with
  | zero =>
      intro u hu
      cases hi.symm.trans hu
      omega
  | succ n ih =>
      intro u hu
      obtain ⟨hlen, rfl⟩ := List.getElem?_eq_some_iff.1 hu
      have hstep := List.pairwise_iff_getElem.1 h (i + n) (i + (n + 1)) (by omega) hlen (by omega)
      have hgap := ih (List.getElem?_eq_getElem (by omega))
      omega

/-- Every name held or opened is the name of a day; the instants lie in pieces
of their own. -/
theorem run_instants {now nowNext nowInit : Int} {d d' : Disk Path} (hd : d.NoFault)
    (h : construct a (Zone.fixed offset) now nowNext nowInit d = .ok s d')
    (hday : a.pathAt (Zone.fixed offset) nowInit = a.pathAt (Zone.fixed offset) now)
    (hoffset : -secondsPerDay ≤ offset) (hclock : now ≤ nowNext ∧ nowNext ≤ nowInit)
    (hepoch : hours 24 * (held a s).length ≤ now) {es : List Event}
    (hes : ∀ e ∈ es, e.time ≤ e.now) :
    ∃ ts : List Int,
      held a s ++ openings a (Zone.fixed offset) s.rotationTp es =
        ts.map (fun t => a.dayPath (DailyFileArgs.dayOf offset t)) ∧
      (∀ t ∈ ts, 0 ≤ t) ∧
      ts.Pairwise fun t u => (days a offset).period t < (days a offset).period u := by
  have ha := construct_timeOfDay h
  obtain ⟨-, htp, m, hheld⟩ := construct_spec hd h hday
  have hlen : (held a s).length = m := by
    rw [hheld, List.length_reverse, List.length_map, daysBack_length]
  rw [hlen] at hepoch
  have hnow : 0 ≤ now := Int.le_trans (Int.mul_nonneg (by decide) (Int.natCast_nonneg m)) hepoch
  have hinit : now ≤ nowInit := Int.le_trans hclock.1 hclock.2
  have hsame : DailyFileArgs.dayOf offset nowInit = DailyFileArgs.dayOf offset now := by
    rw [DailyFileArgs.pathAt_day, DailyFileArgs.pathAt_day] at hday
    exact a.dayPath_injective (dayOf_ge hoffset (Int.le_trans hnow hinit))
      (dayOf_ge hoffset hnow) hday
  rw [daysBack_names a offset m (Int.le_trans hepoch hinit) hepoch hsame] at hheld
  obtain ⟨hback, hbacks⟩ := daysBack_decrease (a := a) offset m now hepoch
  obtain ⟨hlater, hlaters⟩ := openTimes_increase offset ha es
    ((days a offset).period nowNext) hes
  rw [nextRotationTp_eq ha] at htp
  rw [← htp] at hlater hlaters
  have hstart := Periods.period_mono (P := days a offset) hclock.1
  have hpositive : ∀ t ∈ openTimes a (Zone.fixed offset) s.rotationTp es, 0 ≤ t := by
    intro t ht
    by_contra hneg
    have hle := Periods.period_mono (P := days a offset) (show t ≤ now by omega)
    have hlt := hlater t ht
    omega
  refine ⟨(daysBack m now).reverse ++ openTimes a (Zone.fixed offset) s.rotationTp es, ?_, ?_, ?_⟩
  · rw [hheld, openings_eq, ← List.map_reverse, ← List.map_append]
    exact List.map_congr_left fun t _ => a.pathAt_day offset t
  · intro t ht
    rcases List.mem_append.1 ht with ht | ht
    · exact (hback t (List.mem_reverse.1 ht)).1
    · exact hpositive t ht
  · refine List.pairwise_append.2 ⟨List.pairwise_reverse.2 hbacks, hlaters, fun t ht u hu => ?_⟩
    have hle := (hback t (List.mem_reverse.1 ht)).2
    have hlt := hlater u hu
    omega

theorem noReturn_of_nodup {n : Nat} (hn : n ≠ 0) {names : List Path} (h : names.Nodup) :
    DatedLog.NoReturn n names := by
  intro i p hi hin
  have heq := (List.getElem?_inj (List.getElem?_eq_some_iff.1 hi).1 h).1 (hi.trans hin.symm)
  omega

/-- In a zone with a constant offset the file that is written is never the one
that is given up, unless only one is kept and the rotation is not at 00:00. With
the rotation at 00:00 no name is opened twice. -/
theorem daily_keeps_current {now nowNext nowInit : Int} {d d' : Disk Path} (hd : d.NoFault)
    (h : construct a (Zone.fixed offset) now nowNext nowInit d = .ok s d')
    (hday : a.pathAt (Zone.fixed offset) nowInit = a.pathAt (Zone.fixed offset) now)
    (hoffset : -secondsPerDay ≤ offset) (hclock : now ≤ nowNext ∧ nowNext ≤ nowInit)
    (hepoch : hours 24 * (held a s).length ≤ now) (es : List Event)
    (hes : ∀ e ∈ es, e.time ≤ e.now) :
    (a.maxFiles ≠ 1 ∨ a.rotationH = 0 ∧ a.rotationM = 0 →
      ∀ es', es' <+: es →
        ((run a (Zone.fixed offset) s es').disk.files
          (run a (Zone.fixed offset) s es').filename).isSome) ∧
    (a.rotationH = 0 ∧ a.rotationM = 0 →
      (held a s ++ openings a (Zone.fixed offset) s.rotationTp es).Nodup) := by
  have ha := construct_timeOfDay h
  obtain ⟨hs, -⟩ := construct_spec hd h hday
  obtain ⟨ts, hnames, hpositive, hsorted⟩ := run_instants hd h hday hoffset hclock hepoch hes
  have hmidnight : a.rotationH = 0 ∧ a.rotationM = 0 →
      (held a s ++ openings a (Zone.fixed offset) s.rotationTp es).Nodup := by
    rintro ⟨hh, hm⟩
    rw [hnames, List.Nodup, List.pairwise_map]
    refine hsorted.imp_of_mem fun {t u} ht hu hlt heq => ?_
    have hdays := a.dayPath_injective (dayOf_ge hoffset (hpositive t ht))
      (dayOf_ge hoffset (hpositive u hu)) heq
    rw [days, DailySink.period_midnight hh hm (hpositive t ht),
      DailySink.period_midnight hh hm (hpositive u hu)] at hlt
    exact absurd hdays (Int.ne_of_lt hlt)
  refine ⟨fun hcase => ?_, hmidnight⟩
  rw [hs.present_iff]
  by_cases hzero : a.maxFiles = 0
  · exact .inl hzero
  refine .inr ?_
  by_cases hone : a.maxFiles = 1
  · exact noReturn_of_nodup hzero (hmidnight (hcase.resolve_left fun hne => hne hone))
  · -- two pieces later it is another day
    intro i p hi hin
    rw [hnames, List.getElem?_map, Option.map_eq_some_iff] at hi hin
    obtain ⟨t, ht, rfl⟩ := hi
    obtain ⟨u, hu, heq⟩ := hin
    have htpos := hpositive t (List.mem_of_getElem? ht)
    have hupos := hpositive u (List.mem_of_getElem? hu)
    have hdays := a.dayPath_injective (dayOf_ge hoffset hupos) (dayOf_ge hoffset htpos) heq
    have hgap := period_gap hsorted ht a.maxFiles hu
    have htday := (period_day offset ha htpos).2
    have huday := (period_day offset ha hupos).1
    omega

/-- With two files it stays, although its name is opened twice. -/
theorem daily_keeps_current_afternoon :
    let s := run (dailyAt false 2) (Zone.fixed 0) (newYear false 2) oneAfternoon
    s.filenamesQ.items = [onJanuary 2, onJanuary 2] ∧ (s.disk.files s.filename).isSome := by
  have hconstruct : construct (dailyAt false 2) (Zone.fixed 0) (hours 24) (hours 24) (hours 24)
      noFiles = .ok (newYear false 2) (newYear false 2).disk := rfl
  have hkeeps := (daily_keeps_current (fun _ _ => rfl) hconstruct rfl (by decide) (by decide)
    (by decide +kernel) oneAfternoon (by decide)).1 (.inl (by decide))
  exact ⟨by decide +kernel, hkeeps oneAfternoon (List.prefix_refl _)⟩

end DailyFileSink

end UempPlugin.Ref
