import UempPlugin.Proofs.VolumeIndices

/-!
# Runs of the dated sink

A message on the day that is open leaves the list in order unless it makes the
index run over; a message that changes the day opens the new one like the
constructor does. So the list stays in order in every run without a message of
the one kind or the other, whatever the folder holds at the start.

With `rotate_on_open`, and files of the day beside the one of index 0, the order
is lost as soon as the sink is built.
-/

namespace UempPlugin.Ref.DailyCountSink

open UempPlugin.Lib

variable {a : DailyCountArgs} {is : List Nat} {s : DailyCountSink} {zone : Zone} {e : Event}

/-- The date that the clock shows when the message comes. -/
def Event.today (zone : Zone) (e : Event) : Text := localDateYyyyMmDd (zone.localtime e.now)

/-- The message neither opens a day with a new file that is not the last one,
nor fills the file of the last index there can be, unless only the new file is
kept and was not there. -/
structure Sound (a : DailyCountArgs) (zone : Zone) (s : DailyCountSink) (e : Event) : Prop where
  same : e.today zone = s.currentDate → Fills a s.currentSize e.msg →
    s.currentIndex = wordSize - 1 → a.maxFiles = 1 ∧ a.makeFilename s.currentDate 0 ∉ s.files
  opens : e.today zone ≠ s.currentDate → OpensWell a (e.today zone) s.disk
  full : e.today zone ≠ s.currentDate → a.rotateOnOpen = false →
    a.Present (e.today zone) s.disk (wordSize - 1) →
    Fills a (sizeOnDisk s.disk (a.makePath (e.today zone) (wordSize - 1))) e.msg →
    a.maxFiles = 1 ∧ ¬ a.Present (e.today zone) s.disk 0

theorem step_same (htoday : e.today zone = s.currentDate) :
    step a zone s e = writeMessage a e.msg s := by
  have hroll : maybeRollDay a (e.today zone) e.ls s = .ok () s := by
    rw [maybeRollDay, bind_of_ok (f := get) (a := s) rfl, if_pos htoday]
    rfl
  have hsink : sinkIt a zone e.now e.msg e.ls s = .ok () (writeMessage a e.msg s) := by
    rw [sinkIt]
    exact (bind_of_ok hroll).trans rfl
  rw [step, hsink]

/-- The state in which a new day is opened. -/
def rolled (a : DailyCountArgs) (today : Text) (s : DailyCountSink) : DailyCountSink :=
  { s with
    fd := none
    currentDate := today
    currentIndex := 0
    currentSize := 0
    disk := s.disk.mkdirs a.dir }

theorem step_rolled {s' : DailyCountSink} (htoday : e.today zone ≠ s.currentDate)
    (hopen : openDay a e.ls (rolled a (e.today zone) s) = .ok () s') :
    step a zone s e = writeMessage a e.msg s' := by
  have hroll : maybeRollDay a (e.today zone) e.ls s = .ok () s' := by
    rw [maybeRollDay, bind_of_ok (f := get) (a := s) rfl, if_neg htoday]
    exact hopen
  have hsink : sinkIt a zone e.now e.msg e.ls s = .ok () (writeMessage a e.msg s') := by
    rw [sinkIt]
    exact (bind_of_ok hroll).trans rfl
  rw [step, hsink]

theorem step_consistent (h : Consistent a is s) (hsound : Sound a zone s e)
    (hnamed : a.Named (e.today zone) s.disk)
    (hls : e.today zone ≠ s.currentDate → a.Lists s.disk e.ls) :
    (∃ is', Consistent a is' (step a zone s e)) ∧ Tame a s.disk (step a zone s e).disk := by
  by_cases htoday : e.today zone = s.currentDate
  · rw [step_same htoday]
    refine writeMessage_consistent h e.msg fun hfills hfull => ?_
    obtain ⟨hone, hzero⟩ := hsound.same htoday hfills hfull
    exact ⟨hone, fun hmem => hzero (h.files ▸ List.mem_map_of_mem hmem)⟩
  · obtain ⟨s', hopen, hdate, htame, _, hopened⟩ := openDay_opened (a := a)
      (s := rolled a (e.today zone) s) h.noFault (length_localDate _) (sep_notMem_localDate _)
      h.kept hnamed ((hls htoday).mkdirs a.dir) rfl
    obtain ⟨is', hopened⟩ := hopened (hsound.opens htoday)
    rw [step_rolled htoday hopen]
    obtain ⟨hconsistent, htame'⟩ := writeMessage_consistent hopened.toConsistent e.msg (by
      intro hfills hfull
      obtain ⟨hrotate, hpresent, hsize, hzero⟩ := hopened.full hfull
      rw [hdate] at hpresent hsize hzero
      rw [hsize] at hfills
      obtain ⟨hone, hnone⟩ := hsound.full htoday hrotate hpresent hfills
      exact ⟨hone, fun hmem => hnone (hzero hmem)⟩)
    have hmkdirs : Tame a s.disk (s.disk.mkdirs a.dir) := .of_subset h.noFault fun _ hp => hp
    exact ⟨hconsistent, (hmkdirs.trans htame).trans htame'⟩

theorem run_concat (a : DailyCountArgs) (zone : Zone) (s : DailyCountSink) (evs : List Event)
    (e : Event) : run a zone s (evs ++ [e]) = step a zone (run a zone s evs) e := by
  rw [run, List.foldl_append]
  rfl

theorem run_keeps (h : Consistent a is s) {evs : List Event}
    (hnamed : ∀ e ∈ evs, a.Named (e.today zone) s.disk)
    (hsteps : ∀ done e, done ++ [e] <+: evs → Sound a zone (run a zone s done) e ∧
      (e.today zone ≠ (run a zone s done).currentDate → a.Lists (run a zone s done).disk e.ls)) :
    (∃ is', Consistent a is' (run a zone s evs)) ∧ Tame a s.disk (run a zone s evs).disk := by
  induction evs using List.reverseRecOn with
  | nil => exact ⟨⟨is, h⟩, .of_subset h.noFault fun _ hp => hp⟩
  | append_singleton evs e ih =>
      obtain ⟨⟨is', h'⟩, htame⟩ := ih (fun x hx => hnamed x (List.mem_append_left _ hx))
        fun done x hdone => hsteps done x (hdone.trans (List.prefix_append _ _))
      obtain ⟨hsound, hls⟩ := hsteps evs e (List.prefix_refl _)
      have hnamedHere := htame.named _ (length_localDate _)
        (hnamed e (List.mem_append_right _ List.mem_cons_self))
      obtain ⟨hconsistent, htame'⟩ := step_consistent h' hsound hnamedHere hls
      rw [run_concat]
      exact ⟨hconsistent, htame.trans htame'⟩

/-! ## A folder -/

/-- A folder with these files, all of them empty. -/
def folder (a : DailyCountArgs) (names : List Text) : Disk Path where
  files p := if p ∈ names.map (joinPath a.dir) then some { bytes := [] } else none

theorem folder_isSome {names : List Text} {p : Path} :
    ((folder a names).files p).isSome ↔ p ∈ names.map (joinPath a.dir) := by
  simp only [folder]
  split
  · next h => exact ⟨fun _ => h, fun _ => rfl⟩
  · next h => exact ⟨fun hsome => absurd hsome Bool.false_ne_true, fun hmem => absurd hmem h⟩

section Names

variable {date : Text} (hdate : sep ∉ date)

include hdate

theorem folder_present {is : List Nat} (his : ∀ i ∈ is, i < wordSize) (i : Nat) :
    a.Present date (folder a (is.map (a.makeFilename date))) i ↔ i ∈ is := by
  rw [DailyCountArgs.Present, folder_isSome, List.map_map, List.mem_map]
  constructor
  · rintro ⟨hi, j, hj, heq⟩
    exact a.makePath_injective hdate (his j hj) hi heq ▸ hj
  · exact fun hi => ⟨his i hi, i, hi, rfl⟩

theorem folder_named {is : List Nat} (his : ∀ i ∈ is, i < wordSize) :
    a.Named date (folder a (is.map (a.makeFilename date))) := by
  intro name hsep _ hsome
  rw [folder_isSome, List.map_map, List.mem_map] at hsome
  obtain ⟨i, hi, heq⟩ := hsome
  exact ⟨i, his i hi, (joinPath_inj (a.sep_notMem_makeFilename hdate i) hsep heq).symm⟩

theorem folder_lists {is : List Nat} (his : ∀ i ∈ is, i < wordSize) (hnodup : is.Nodup) :
    a.Lists (folder a (is.map (a.makeFilename date))) (is.map (a.makeFilename date)) where
  nodup := hnodup.map_on fun i hi j hj heq =>
    a.makeFilename_injective date (his i hi) (his j hj) heq
  mem_iff := by
    intro name
    rw [folder_isSome, List.mem_map]
    constructor
    · rintro ⟨i, hi, rfl⟩
      exact ⟨a.makeFilename_ne_nil date i, a.sep_notMem_makeFilename hdate i,
        List.mem_map_of_mem (List.mem_map_of_mem hi)⟩
    · rintro ⟨_, hsep, hmem⟩
      obtain ⟨i, hi, heq⟩ := List.mem_map.1 (List.map_map ▸ hmem)
      exact ⟨i, hi, joinPath_inj (a.sep_notMem_makeFilename hdate i) hsep heq⟩

end Names

/-! ## The list in order -/

/-- Built over a folder whose files of the day bear their names, the sink has
its list in order exactly if `rotate_on_open` did not make it pass over files of
the day; and it keeps it in order through every run whose messages do not make
it do so either. -/
theorem run_bookkept (a : DailyCountArgs) (zone : Zone) (t : Int) (ls : List Text)
    (d : Disk Path) (hd : d.NoFault) (hls : a.Lists d ls)
    (hnamed : a.Named (localDateYyyyMmDd (zone.localtime t)) d) :
    ∃ s, construct a zone t ls d = .ok s ∧
      (Bookkept a s ↔ OpensWell a (localDateYyyyMmDd (zone.localtime t)) d) ∧
      ∀ evs : List Event, OpensWell a (localDateYyyyMmDd (zone.localtime t)) d →
        (∀ e ∈ evs, a.Named (e.today zone) d) →
        (∀ done e, done ++ [e] <+: evs → Sound a zone (run a zone s done) e ∧
          (e.today zone ≠ (run a zone s done).currentDate →
            a.Lists (run a zone s done).disk e.ls)) →
        Bookkept a (run a zone s evs) := by
  obtain ⟨s, hs, htame, hiff, hopened⟩ := construct_opened zone t hd hls hnamed
  refine ⟨s, hs, hiff, fun evs hwell hdays hsteps => ?_⟩
  obtain ⟨is, hconsistent⟩ := hopened hwell
  have hnamedHere : ∀ e ∈ evs, a.Named (e.today zone) s.disk := fun e he =>
    htame.named _ (length_localDate _) (hdays e he)
  obtain ⟨⟨is', hend⟩, _⟩ := run_keeps hconsistent hnamedHere hsteps
  exact hend.bookkept

/-- The sink of the two runs below; the second one rotates after every message. -/
def appArgs (maxSize : Nat) : DailyCountArgs where
  baseFilename := "logs/app.log".toList
  maxSize := maxSize
  rotateOnOpen := true

def epochDate : Text := localDateYyyyMmDd ((Zone.fixed 0).localtime 0)

/-- The names of the day for some indices. -/
def appNames (maxSize : Nat) (is : List Nat) : List Text :=
  is.map ((appArgs maxSize).makeFilename epochDate)

/-- With the files 0 and 1 of the day there already, the new one is 1 again. -/
theorem construct_out_of_order :
    (folder (appArgs 1000) (appNames 1000 [0, 1])).NoFault ∧
      (appArgs 1000).Lists (folder (appArgs 1000) (appNames 1000 [0, 1]))
        (appNames 1000 [0, 1]) ∧
      (appArgs 1000).Named epochDate (folder (appArgs 1000) (appNames 1000 [0, 1])) ∧
      ∃ s, construct (appArgs 1000) (Zone.fixed 0) 0 (appNames 1000 [0, 1])
          (folder (appArgs 1000) (appNames 1000 [0, 1])) = .ok s ∧
        s.files = appNames 1000 [0, 1, 1] ∧ ¬ Bookkept (appArgs 1000) s := by
  have hsep : sep ∉ epochDate := sep_notMem_localDate _
  have hbound : ∀ i ∈ [0, 1], i < wordSize := by decide
  have hlists := folder_lists (a := appArgs 1000) hsep hbound (by decide)
  have hnamed := folder_named (a := appArgs 1000) hsep hbound
  have hfault : (folder (appArgs 1000) (appNames 1000 [0, 1])).NoFault := fun _ _ => rfl
  obtain ⟨s, hs, _, hiff, _⟩ := construct_opened (Zone.fixed 0) 0 hfault hlists hnamed
  have hfiles : (construct (appArgs 1000) (Zone.fixed 0) 0 (appNames 1000 [0, 1])
      (folder (appArgs 1000) (appNames 1000 [0, 1]))).toOption.map (·.files) =
        some (appNames 1000 [0, 1, 1]) := by decide +kernel
  refine ⟨hfault, hlists, hnamed, s, hs, ?_, fun hbook => ?_⟩
  · have hs' : construct (appArgs 1000) (Zone.fixed 0) 0 (appNames 1000 [0, 1])
        (folder (appArgs 1000) (appNames 1000 [0, 1])) = .ok s := hs
    rw [hs'] at hfiles
    exact Option.some_inj.1 hfiles
  · have hthere := folder_present (a := appArgs 1000) hsep hbound
    rcases hiff.1 hbook rfl with habove | ⟨hone, _⟩
    · exact absurd (habove 1 ((hthere 1).2 (by decide))) (lt_irrefl 1)
    · exact absurd hone (by decide)

/-- Over the file 0 of the day alone, and with a message that fills the new one. -/
theorem run_bookkept_rotated :
    ∃ s, construct (appArgs 1) (Zone.fixed 0) 0 (appNames 1 [0])
        (folder (appArgs 1) (appNames 1 [0])) = .ok s ∧
      Bookkept (appArgs 1) s ∧
      Bookkept (appArgs 1) (run (appArgs 1) (Zone.fixed 0) s [⟨1, [97, 10], []⟩]) := by
  have hsep : sep ∉ epochDate := sep_notMem_localDate _
  have hbound : ∀ i ∈ [0], i < wordSize := by decide
  have hnamed := folder_named (a := appArgs 1) hsep hbound
  have hthere := folder_present (a := appArgs 1) hsep hbound
  obtain ⟨s, hs, hiff, hrun⟩ := run_bookkept (appArgs 1) (Zone.fixed 0) 0 (appNames 1 [0])
    (folder (appArgs 1) (appNames 1 [0])) (fun _ _ => rfl)
    (folder_lists hsep hbound (by decide)) hnamed
  have hwell : OpensWell (appArgs 1) epochDate (folder (appArgs 1) (appNames 1 [0])) := by
    intro _
    left
    intro i hi
    rw [List.mem_singleton.1 ((hthere i).1 hi)]
    exact Nat.zero_lt_one
  have hcurrent : (construct (appArgs 1) (Zone.fixed 0) 0 (appNames 1 [0])
      (folder (appArgs 1) (appNames 1 [0]))).toOption.map
        (fun s => (s.currentDate, s.currentIndex)) = some (epochDate, 1) := by decide +kernel
  rw [hs] at hcurrent
  obtain ⟨hdate, hindex⟩ := Prod.mk.inj (Option.some_inj.1 hcurrent)
  refine ⟨s, hs, hiff.2 hwell, hrun _ hwell ?_ ?_⟩
  · intro e he
    rw [List.mem_singleton.1 he]
    exact hnamed
  · intro done e hdone
    have hlen := hdone.length_le
    rw [List.length_append, List.length_singleton, List.length_singleton] at hlen
    obtain rfl : done = [] := List.length_eq_zero_iff.1 (by omega)
    obtain rfl := (List.cons_prefix_cons.1 hdone).1
    have hsame : Event.today (Zone.fixed 0) ⟨1, [97, 10], []⟩ = s.currentDate := by
      rw [hdate]
      decide +kernel
    refine ⟨⟨fun _ _ hfull => ?_, fun hne => absurd hsame hne, fun hne => absurd hsame hne⟩,
      fun hne => absurd hsame hne⟩
    have hone : s.currentIndex = wordSize - 1 := hfull
    rw [hindex] at hone
    exact absurd hone (by decide)

end UempPlugin.Ref.DailyCountSink
