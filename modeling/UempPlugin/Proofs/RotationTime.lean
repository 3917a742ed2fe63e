import UempPlugin.Proofs.DailyDates
import UempPlugin.Proofs.DateNames

/-!
# What the configured rotation time separates

At the rotation time the sink is meant to switch to a new date group. The
switch happens, but the new name is made from the calendar date of the reading
that notices it, and with a rotation time other than 00:00 one calendar date
reaches over two periods. If both are entered on that date they get the same
name, and their messages end up in one file.

A group is entered at the first reading in its period (`Periods.firstIn`).
Writes on two sides of a rotation go to different files exactly when the two
periods were entered on different dates, or at least under different names.
-/

namespace UempPlugin.Ref.DailySink

open UempPlugin.Lib

/-- The writes of one sink, as events. -/
def logs (ws : List (Int × Bytes)) : List Event := ws.map fun w => .log w.1 w.2

/-- The base file that the `i`-th write selects. -/
def fileOf (a : DailyArgs) (zone : Zone) (s : DailySink) (ws : List (Int × Bytes)) (i : Nat) :
    Path :=
  a.basePath (run a zone s (logs (ws.take (i + 1)))).currentBasename

/-- The local clock reads the configured rotation time, on the second. -/
def AtRotationTime (a : DailyArgs) (zone : Zone) (t : Int) : Prop :=
  ∃ sec, t = fromTimeT sec ∧ (zone.localtime sec).hour = a.rotationHour ∧
    (zone.localtime sec).min = a.rotationMin ∧ (zone.localtime sec).sec = 0

/-- A rotation time lies after `t` and not after `u`. -/
def Separated (a : DailyArgs) (zone : Zone) (t u : Int) : Prop :=
  ∃ r, t < r ∧ r ≤ u ∧ AtRotationTime a zone r

/-- The calendar date of a reading. -/
def localDate (zone : Zone) (t : Int) : Int × Int × Int :=
  let tm := zone.localtime (toTimeT t)
  (tm.year, tm.mon, tm.mday)

/-- The reading, by the constructor or a write, at which the period of `t` was
entered. -/
def enteredAt (a : DailyArgs) (offset t0 : Int) (ws : List (Int × Bytes)) (t : Int) : Int :=
  (a.days offset).firstIn (t0 :: ws.map Prod.fst) t

variable {a : DailyArgs} {offset : Int}

theorem atRotationTime_iff (ha : a.TimeOfDay) (t : Int) :
    AtRotationTime a (Zone.fixed offset) t ↔ ∃ k, t = (a.days offset).boundary k := by
  have hh := ha.hour
  have hm := ha.min
  constructor
  · rintro ⟨sec, rfl, hhour, hmin, hsec⟩
    refine ⟨(sec + offset) / secondsPerDay, ?_⟩
    simp only [Zone.fixed, gmtime, secondsPerDay] at hhour hmin hsec
    simp only [fromTimeT, Periods.boundary, DailyArgs.days, secondsPerDay, nanos]
    omega
  · rintro ⟨k, rfl⟩
    refine ⟨k * secondsPerDay + (a.rotationHour * 3600 + a.rotationMin * 60 - offset), ?_, ?_, ?_, ?_⟩
    · simp only [fromTimeT, Periods.boundary, DailyArgs.days, secondsPerDay, nanos]
      omega
    · simp only [Zone.fixed, gmtime, secondsPerDay]
      omega
    · simp only [Zone.fixed, gmtime, secondsPerDay]
      omega
    · simp only [Zone.fixed, gmtime, secondsPerDay]
      omega

/-- No rotation time between two readings: they share a period. -/
theorem separated_iff (ha : a.TimeOfDay) {t u : Int} (h : t ≤ u) :
    Separated a (Zone.fixed offset) t u ↔
      (a.days offset).period t ≠ (a.days offset).period u := by
  rw [ne_eq, Periods.period_eq_iff h, not_not]
  constructor
  · rintro ⟨r, hlo, hhi, hr⟩
    obtain ⟨k, rfl⟩ := (atRotationTime_iff ha r).1 hr
    exact ⟨k, hlo, hhi⟩
  · rintro ⟨k, hlo, hhi⟩
    exact ⟨_, hlo, hhi, (atRotationTime_iff ha _).2 ⟨k, rfl⟩⟩

/-- The sink's name was made at the first reading in the period of the last. -/
theorem clocked_first (ha : a.TimeOfDay) :
    ∀ (ws : List (Int × Bytes)) {seen : List Int} {last : Int} {s : DailySink},
      last ∈ seen → (∀ x ∈ seen, x ≤ last) →
      Clocked a offset ((a.days offset).firstIn seen last) last s →
      (last :: ws.map Prod.fst).Pairwise (· ≤ ·) →
      Clocked a offset
        ((a.days offset).firstIn (seen ++ ws.map Prod.fst) (lastReading last (logs ws)))
        (lastReading last (logs ws)) (run a (Zone.fixed offset) s (logs ws)) := by
  intro ws
  induction ws with
  | nil =>
      intro seen last s _ _ h _
      rw [List.map_nil, List.append_nil]
      exact h
  | cons w ws ih =>
      intro seen last s hmem hmax h hsorted
      rw [List.map_cons, List.pairwise_cons] at hsorted
      have hle : last ≤ w.1 := hsorted.1 _ List.mem_cons_self
      have hstep := h.log ha hle w.2
      have hfirst : (if (a.days offset).period last = (a.days offset).period w.1 then
          (a.days offset).firstIn seen last else w.1) =
          (a.days offset).firstIn (seen ++ [w.1]) w.1 := by
        split
        · next heq =>
            rw [← Periods.firstIn_congr (List.mem_append_left _ hmem) heq,
              Periods.firstIn_append hmem]
        · next hne =>
            refine (Periods.firstIn_new fun x hx heq => hne ?_).symm
            have hx1 := Periods.period_mono (P := a.days offset) (hmax x hx)
            have hx2 := Periods.period_mono (P := a.days offset) hle
            omega
      rw [hfirst] at hstep
      have hmax' : ∀ x ∈ seen ++ [w.1], x ≤ w.1 := by
        intro x hx
        rcases List.mem_append.1 hx with hx | hx
        · exact Int.le_trans (hmax x hx) hle
        · exact Int.le_of_eq (List.mem_singleton.1 hx)
      have hrest := ih (by simp) hmax' hstep hsorted.2
      rw [List.append_assoc] at hrest
      exact hrest

/-- The base file of a write is named after the reading that entered its
period. -/
theorem fileOf_eq (ha : a.TimeOfDay) {t0 : Int} {d : Disk Path} {ws : List (Int × Bytes)}
    (hsorted : (t0 :: ws.map Prod.fst).Pairwise (· ≤ ·)) (i : Fin ws.length) :
    fileOf a (Zone.fixed offset) (start a (Zone.fixed offset) t0 d) ws i =
      a.basePath (a.basenameAt (Zone.fixed offset) (enteredAt a offset t0 ws (ws.get i).1)) := by
  have hsplit : ws.take (i + 1) ++ ws.drop (i + 1) = ws := List.take_append_drop _ _
  have htake : ws.take (i + 1) = ws.take i ++ [ws.get i] := by
    rw [List.take_succ_eq_append_getElem i.2]
    rfl
  have hsorted' : (t0 :: (ws.take (i + 1)).map Prod.fst).Pairwise (· ≤ ·) := by
    rw [← hsplit, List.map_append, ← List.cons_append] at hsorted
    exact (List.pairwise_append.1 hsorted).1
  have hstart : Clocked a offset ((a.days offset).firstIn [t0] t0) t0
      (start a (Zone.fixed offset) t0 d) := by
    rw [Periods.firstIn_singleton]
    exact clocked_start ha t0 d
  have hc := clocked_first ha (ws.take (i + 1)) (List.mem_singleton_self t0) (by simp) hstart
    hsorted'
  have hlast : lastReading t0 (logs (ws.take (i + 1))) = (ws.get i).1 := by
    rw [htake, logs, List.map_append]
    exact lastReading_concat _ _ _
  have hmem : (ws.get i).1 ∈ [t0] ++ (ws.take (i + 1)).map Prod.fst := by
    rw [htake, List.map_append]
    exact List.mem_append_right _ (List.mem_append_right _ (List.mem_singleton_self _))
  have hentered : enteredAt a offset t0 ws (ws.get i).1 =
      (a.days offset).firstIn ([t0] ++ (ws.take (i + 1)).map Prod.fst) (ws.get i).1 := by
    rw [← Periods.firstIn_append hmem ((ws.drop (i + 1)).map Prod.fst), List.append_assoc,
      ← List.map_append, hsplit]
    rfl
  rw [fileOf, hc.name, hlast, hentered]

theorem write_times_le {t0 : Int} {ws : List (Int × Bytes)}
    (hsorted : (t0 :: ws.map Prod.fst).Pairwise (· ≤ ·)) {i j : Fin ws.length} (hij : i ≤ j) :
    (ws.get i).1 ≤ (ws.get j).1 := by
  have hpair := List.pairwise_map.1 (List.pairwise_cons.1 hsorted).2
  rcases Nat.lt_or_eq_of_le hij with h | h
  · exact List.pairwise_iff_get.1 hpair i j h
  · exact Int.le_of_eq (by rw [Fin.ext h])

/-- A write that returns ends the base file it selected. -/
theorem returned_ends {a : DailyArgs} {offset t0 : Int} {d : Disk Path}
    {ws : List (Int × Bytes)} {i : Fin ws.length} {s' : DailySink}
    (hret : sinkIt a (Zone.fixed offset) (ws.get i).1 (ws.get i).2
      (run a (Zone.fixed offset) (start a (Zone.fixed offset) t0 d) (logs (ws.take i))) =
        .ok () s') :
    s'.fd = some (fileOf a (Zone.fixed offset) (start a (Zone.fixed offset) t0 d) ws i) ∧
      ∃ f, s'.disk.files (fileOf a (Zone.fixed offset) (start a (Zone.fixed offset) t0 d) ws i) =
        some f ∧ (ws.get i).2 <:+ f.bytes := by
  have hends := sinkIt_ends
    (anchored_clock (anchored_run (logs (ws.take i)) (anchored_start a _ t0 d))) hret
  have hbase : s'.currentBasename = (run a (Zone.fixed offset)
      (start a (Zone.fixed offset) t0 d) (logs (ws.take (i + 1)))).currentBasename := by
    rw [List.take_succ_eq_append_getElem i.2, logs, List.map_append]
    show _ = (run _ _ _ (_ ++ [.log (ws.get i).1 (ws.get i).2])).currentBasename
    rw [run_concat, step]
    rw [logs] at hret
    rw [hret]
  rw [hbase] at hends
  exact hends

/-- For every rotation time, every zone with a constant offset and every name
that tells calendar dates apart: a write that returns ends the base file it
selected; and two writes select the same base file exactly when no rotation
time separates them, for all pairs of writes, if and only if no two separated
writes lie in periods entered on the same date under the same name. -/
theorem rotation_separates_iff (a : DailyArgs) (offset t0 : Int) (d : Disk Path) (s0 : DailySink)
    (hs : construct a (Zone.fixed offset) t0 d = .ok s0)
    (hnames : ∀ t u, a.basePath (a.basenameAt (Zone.fixed offset) t) =
      a.basePath (a.basenameAt (Zone.fixed offset) u) →
        localDate (Zone.fixed offset) t = localDate (Zone.fixed offset) u)
    (ws : List (Int × Bytes)) (hsorted : (t0 :: ws.map Prod.fst).Pairwise (· ≤ ·)) :
    (∀ (i : Fin ws.length) (s' : DailySink),
      sinkIt a (Zone.fixed offset) (ws.get i).1 (ws.get i).2
          (run a (Zone.fixed offset) s0 (logs (ws.take i))) = .ok () s' →
        s'.fd = some (fileOf a (Zone.fixed offset) s0 ws i) ∧
        ∃ f, s'.disk.files (fileOf a (Zone.fixed offset) s0 ws i) = some f ∧
          (ws.get i).2 <:+ f.bytes) ∧
    ((∀ i j : Fin ws.length, i ≤ j →
        (fileOf a (Zone.fixed offset) s0 ws i = fileOf a (Zone.fixed offset) s0 ws j ↔
          ¬ Separated a (Zone.fixed offset) (ws.get i).1 (ws.get j).1)) ↔
      ∀ i j : Fin ws.length, i ≤ j →
        Separated a (Zone.fixed offset) (ws.get i).1 (ws.get j).1 →
          ¬ (localDate (Zone.fixed offset) (enteredAt a offset t0 ws (ws.get i).1) =
              localDate (Zone.fixed offset) (enteredAt a offset t0 ws (ws.get j).1) ∧
            a.basePath (a.basenameAt (Zone.fixed offset)
                (enteredAt a offset t0 ws (ws.get i).1)) =
              a.basePath (a.basenameAt (Zone.fixed offset)
                (enteredAt a offset t0 ws (ws.get j).1)))) := by
  have ha := construct_timeOfDay hs
  obtain rfl := construct_ok hs
  have hfile : ∀ i : Fin ws.length, fileOf a (Zone.fixed offset) (start a (Zone.fixed offset) t0 d) ws i =
      a.basePath (a.basenameAt (Zone.fixed offset) (enteredAt a offset t0 ws (ws.get i).1)) :=
    fun i => fileOf_eq ha hsorted i
  refine ⟨fun i s' hret => returned_ends hret, fun hall i j hij hsep hsame => ?_,
    fun hcond i j hij => ?_⟩
  · exact (hall i j hij).1 (by rw [hfile i, hfile j]; exact hsame.2) hsep
  · rw [hfile i, hfile j, separated_iff ha (write_times_le hsorted hij), not_not]
    constructor
    · intro heq
      by_contra hne
      exact hcond i j hij ((separated_iff ha (write_times_le hsorted hij)).2 hne) ⟨hnames _ _ heq, heq⟩
    · intro heq
      have hmem : (ws.get i).1 ∈ t0 :: ws.map Prod.fst :=
        List.mem_cons_of_mem _ (List.mem_map_of_mem (List.get_mem ws i))
      rw [enteredAt, enteredAt, Periods.firstIn_congr hmem heq]

/-- Rotation at 04:00, in UTC. -/
def fourOClock : DailyArgs where
  dir := "logs".toList
  namePattern := datedPattern
  dateFormat := datedFormat
  rotationHour := 4
  rotationMin := 0
  maxSizeBits := 8192
  maxFiles := 0

/-- A sink built at 01:00. -/
def earlySink : DailySink :=
  start fourOClock (Zone.fixed 0) 3600000000000 { files := fun _ => none }

/-- Writes at 03:00 and at 05:00 of the same day. -/
def aroundFour : List (Int × Bytes) := [(10800000000000, [97]), (18000000000000, [98])]

theorem fourOClock_names (t u : Int)
    (h : fourOClock.basePath (fourOClock.basenameAt (Zone.fixed 0) t) =
      fourOClock.basePath (fourOClock.basenameAt (Zone.fixed 0) u)) :
    localDate (Zone.fixed 0) t = localDate (Zone.fixed 0) u := by
  obtain ⟨hy, hm, hd⟩ := dated_names rfl rfl (Zone.fixed 0) h
  rw [localDate, localDate, hy, hm, hd]

theorem rotation_separates_iff_fourOClock :
    (∀ (i : Fin aroundFour.length) (s' : DailySink),
      sinkIt fourOClock (Zone.fixed 0) (aroundFour.get i).1 (aroundFour.get i).2
          (run fourOClock (Zone.fixed 0) earlySink (logs (aroundFour.take i))) = .ok () s' →
        s'.fd = some (fileOf fourOClock (Zone.fixed 0) earlySink aroundFour i) ∧
        ∃ f, s'.disk.files (fileOf fourOClock (Zone.fixed 0) earlySink aroundFour i) = some f ∧
          (aroundFour.get i).2 <:+ f.bytes) ∧
    ((∀ i j : Fin aroundFour.length, i ≤ j →
        (fileOf fourOClock (Zone.fixed 0) earlySink aroundFour i =
            fileOf fourOClock (Zone.fixed 0) earlySink aroundFour j ↔
          ¬ Separated fourOClock (Zone.fixed 0) (aroundFour.get i).1 (aroundFour.get j).1)) ↔
      ∀ i j : Fin aroundFour.length, i ≤ j →
        Separated fourOClock (Zone.fixed 0) (aroundFour.get i).1 (aroundFour.get j).1 →
          ¬ (localDate (Zone.fixed 0)
                (enteredAt fourOClock 0 3600000000000 aroundFour (aroundFour.get i).1) =
              localDate (Zone.fixed 0)
                (enteredAt fourOClock 0 3600000000000 aroundFour (aroundFour.get j).1) ∧
            fourOClock.basePath (fourOClock.basenameAt (Zone.fixed 0)
                (enteredAt fourOClock 0 3600000000000 aroundFour (aroundFour.get i).1)) =
              fourOClock.basePath (fourOClock.basenameAt (Zone.fixed 0)
                (enteredAt fourOClock 0 3600000000000 aroundFour (aroundFour.get j).1)))) :=
  rotation_separates_iff fourOClock 0 3600000000000 { files := fun _ => none } earlySink rfl
    fourOClock_names aroundFour (by decide)

/-- The two writes are separated by 04:00 and go to the same file, although
the pattern tells dates apart. -/
theorem one_file_across_rotation :
    (∀ t u, fourOClock.basePath (fourOClock.basenameAt (Zone.fixed 0) t) =
        fourOClock.basePath (fourOClock.basenameAt (Zone.fixed 0) u) →
      localDate (Zone.fixed 0) t = localDate (Zone.fixed 0) u) ∧
    (3600000000000 :: aroundFour.map Prod.fst).Pairwise (· ≤ ·) ∧
    Separated fourOClock (Zone.fixed 0) 10800000000000 18000000000000 ∧
    fileOf fourOClock (Zone.fixed 0) earlySink aroundFour 0 =
      fileOf fourOClock (Zone.fixed 0) earlySink aroundFour 1 := by
  refine ⟨fourOClock_names, by decide, ⟨14400000000000, by decide, by decide, 14400, ?_⟩, ?_⟩
  · exact ⟨by decide, by decide, by decide, by decide⟩
  · decide +kernel

end UempPlugin.Ref.DailySink
