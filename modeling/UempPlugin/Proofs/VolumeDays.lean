import UempPlugin.Proofs.VolumeText

/-!
# The text of the dated sink

In every run that keeps the list in order, the sink is the log of
`Spec/VolumeLog` over the folder: the volumes of every date, today's and all
others, are what that log has. So they are the last of the volumes the log
would have if it kept all, which no line is missing from; no date has more
volumes than are to be kept; and a volume is followed by another one exactly
when a line has filled it.
-/

namespace UempPlugin.Ref.DailyCountSink

open UempPlugin.Lib UempPlugin.Spec

variable {a : DailyCountArgs} {d : Disk Path} {is : List Nat} {s : DailyCountSink} {zone : Zone}
  {e : Event} {log : VolumeLog Text}

/-! ## One message -/

/-- The sink is on the log's date, and the folder has the log's volumes. -/
structure Shows (a : DailyCountArgs) (log : VolumeLog Text) (s : DailyCountSink) : Prop where
  today : s.currentDate = log.today
  days : ∀ date, date.length = 10 → sep ∉ date → volumes a s.disk date = log.days date

/-- What a message is to the log. -/
def entry (zone : Zone) (e : Event) : Text × Bytes := (e.today zone, line e.msg)

/-- After a change of the volumes of the sink's own date. -/
theorem Shows.turns {s' : DailyCountSink} {v : Volumes} (h : Shows a log s)
    (hturns : Turns a s v s') :
    Shows a { log with days := Function.update log.days log.today v } s' where
  today := hturns.date.trans h.today
  days := by
    intro date hlen hsep
    show volumes a s'.disk date = Function.update log.days log.today v date
    by_cases hdate : date = log.today
    · subst hdate
      rw [Function.update_self, ← h.today]
      exact hturns.volumes
    · rw [Function.update_of_ne hdate, ← h.days date hlen hsep]
      exact hturns.others date hlen hsep (by rw [h.today]; exact hdate)

theorem Shows.written (hshows : Shows a log s) (h : Filed a is s) (msg : Bytes)
    (hfull : Fills a s.currentSize msg → s.currentIndex = wordSize - 1 →
      a.maxFiles = 1 ∧ 0 ∉ is) :
    Shows a (log.write (cfg a) (line msg)) (writeMessage a msg s) := by
  have hnext := hshows.turns (writeMessage_filed h msg hfull).2
  rw [hshows.days _ h.length h.sep, hshows.today] at hnext
  exact hnext

theorem step_shows (h : Filed a is s) (hshows : Shows a log s) (hsound : Sound a zone s e)
    (hnamed : a.Named (e.today zone) s.disk)
    (hls : e.today zone ≠ s.currentDate → a.Lists s.disk e.ls) :
    (∃ is', Filed a is' (step a zone s e)) ∧
      Shows a (log.log (cfg a) (entry zone e)) (step a zone s e) := by
  by_cases htoday : e.today zone = s.currentDate
  · rw [step_same htoday]
    have hfull : Fills a s.currentSize e.msg → s.currentIndex = wordSize - 1 →
        a.maxFiles = 1 ∧ 0 ∉ is := by
      intro hfills hlast
      obtain ⟨hone, hzero⟩ := hsound.same htoday hfills hlast
      exact ⟨hone, fun hmem => hzero (h.files ▸ List.mem_map_of_mem hmem)⟩
    refine ⟨(writeMessage_filed h e.msg hfull).1, ?_⟩
    rw [VolumeLog.log, entry, if_pos (htoday.trans hshows.today)]
    exact hshows.written h e.msg hfull
  · obtain ⟨s', hopen, hdate, -, -, hopened⟩ := openDay_opened (a := a)
      (s := rolled a (e.today zone) s) h.noFault (length_localDate _) (sep_notMem_localDate _)
      h.kept hnamed ((hls htoday).mkdirs a.dir) rfl
    obtain ⟨is', hopened⟩ := hopened (hsound.opens htoday)
    obtain ⟨s'', js, hopen', hfiled, hturns⟩ := openDay_filed (a := a)
      (s := rolled a (e.today zone) s) h.noFault (length_localDate _) (sep_notMem_localDate _)
      h.kept hnamed ((hls htoday).mkdirs a.dir) rfl (hsound.opens htoday)
    obtain rfl : s' = s'' := by
      rw [hopen] at hopen'
      cases hopen'
      rfl
    rw [step_rolled htoday hopen]
    -- both descriptions of the opened day have the same indices
    have hzeros : 0 ∈ js → 0 ∈ is' := by
      intro hmem
      have hname : a.makeFilename s'.currentDate 0 ∈ s'.files :=
        hfiled.files ▸ List.mem_map_of_mem hmem
      rw [hopened.files] at hname
      obtain ⟨j, hj, heq⟩ := List.mem_map.1 hname
      exact a.makeFilename_injective _ (hopened.bounded j hj) (hfiled.bounded 0 hmem) heq ▸ hj
    have hfull : Fills a s'.currentSize e.msg → s'.currentIndex = wordSize - 1 →
        a.maxFiles = 1 ∧ 0 ∉ js := by
      intro hfills hlast
      obtain ⟨hrotate, hpresent, hsize, hzero⟩ := hopened.full hlast
      rw [hdate] at hpresent hsize hzero
      rw [hsize] at hfills
      obtain ⟨hone, hnone⟩ := hsound.full htoday hrotate hpresent hfills
      exact ⟨hone, fun hmem => hnone (hzero (hzeros hmem))⟩
    refine ⟨(writeMessage_filed hfiled e.msg hfull).1, ?_⟩
    have hrolled : Shows a { log with today := e.today zone } (rolled a (e.today zone) s) :=
      ⟨rfl, fun date hlen hsep => (volumes_mkdirs a.dir).trans (hshows.days date hlen hsep)⟩
    have hturned : Shows a (log.turn (cfg a) (e.today zone)) s' := by
      have hbefore : volumes a (rolled a (e.today zone) s).disk (e.today zone) =
          log.days (e.today zone) :=
        hrolled.days _ (length_localDate _) (sep_notMem_localDate _)
      rw [VolumeLog.turn, ← hbefore]
      exact hrolled.turns hturns
    rw [VolumeLog.log, entry, if_neg fun heq => htoday (heq.trans hshows.today.symm)]
    exact hturned.written hfiled e.msg hfull

/-! ## Runs -/

/-- A folder and a run that keep the list in order: nothing fails, the folder is
listed as it is, the files of the days concerned bear their names, and no
message is one of those that put the list out of order. -/
structure Orderly (a : DailyCountArgs) (zone : Zone) (t : Int) (ls : List Text) (d : Disk Path)
    (evs : List Event) : Prop where
  noFault : d.NoFault
  lists : a.Lists d ls
  named : a.Named (localDateYyyyMmDd (zone.localtime t)) d
  opens : OpensWell a (localDateYyyyMmDd (zone.localtime t)) d
  days : ∀ e ∈ evs, a.Named (e.today zone) d
  steps : ∀ s, construct a zone t ls d = .ok s → ∀ done e, done ++ [e] <+: evs →
    Sound a zone (run a zone s done) e ∧
      (e.today zone ≠ (run a zone s done).currentDate → a.Lists (run a zone s done).disk e.ls)

/-- The log that the sink is: the folder's volumes, with today opened. -/
def logOf (a : DailyCountArgs) (zone : Zone) (t : Int) (d : Disk Path) : VolumeLog Text :=
  VolumeLog.turn (cfg a) (localDateYyyyMmDd (zone.localtime t))
    ⟨localDateYyyyMmDd (zone.localtime t), volumes a d⟩

theorem run_shows (h : Filed a is s) (hshows : Shows a log s) {evs : List Event}
    (hnamed : ∀ e ∈ evs, a.Named (e.today zone) s.disk)
    (hsteps : ∀ done e, done ++ [e] <+: evs → Sound a zone (run a zone s done) e ∧
      (e.today zone ≠ (run a zone s done).currentDate → a.Lists (run a zone s done).disk e.ls)) :
    (∃ is', Filed a is' (run a zone s evs)) ∧
      Shows a (VolumeLog.run (cfg a) log (evs.map (entry zone))) (run a zone s evs) := by
  induction evs using List.reverseRecOn with
  | nil => exact ⟨⟨is, h⟩, hshows⟩
  | append_singleton evs e ih =>
      have hnamed' : ∀ e ∈ evs, a.Named (e.today zone) s.disk :=
        fun x hx => hnamed x (List.mem_append_left _ hx)
      have hsteps' : ∀ done x, done ++ [x] <+: evs → _ :=
        fun done x hdone => hsteps done x (hdone.trans (List.prefix_append _ _))
      obtain ⟨⟨is', hfiled⟩, hseen⟩ := ih hnamed' hsteps'
      have htame := (run_keeps h.toConsistent hnamed' hsteps').2
      obtain ⟨hsound, hls⟩ := hsteps evs e (List.prefix_refl _)
      have hnamedHere := htame.named _ (length_localDate _)
        (hnamed e (List.mem_append_right _ List.mem_cons_self))
      rw [run_concat, List.map_append, VolumeLog.run, List.foldl_append]
      exact step_shows hfiled hseen hsound hnamedHere hls

theorem construct_shows {t : Int} {ls : List Text} (hd : d.NoFault) (hls : a.Lists d ls)
    (hnamed : a.Named (localDateYyyyMmDd (zone.localtime t)) d)
    (hwell : OpensWell a (localDateYyyyMmDd (zone.localtime t)) d) :
    ∃ s is, construct a zone t ls d = .ok s ∧ Filed a is s ∧ Shows a (logOf a zone t d) s := by
  obtain ⟨s, is, hopen, hfiled, hturns⟩ := openDay_filed (a := a)
    (s := ⟨localDateYyyyMmDd (zone.localtime t), 0, 0, [], none, false, d.mkdirs a.dir, []⟩)
    hd (length_localDate _) (sep_notMem_localDate _) (fun r hr => absurd hr List.not_mem_nil)
    hnamed (hls.mkdirs a.dir) rfl hwell
  refine ⟨s, is, by simp only [construct, hopen], hfiled, ?_⟩
  have hbefore : Shows a ⟨localDateYyyyMmDd (zone.localtime t), volumes a d⟩
      ⟨localDateYyyyMmDd (zone.localtime t), 0, 0, [], none, false, d.mkdirs a.dir, []⟩ :=
    ⟨rfl, fun _ _ _ => volumes_mkdirs a.dir⟩
  rw [volumes_mkdirs] at hturns
  exact hbefore.turns hturns

/-- In every orderly run the sink shows what the log has, on every date. -/
theorem volumes_refine (a : DailyCountArgs) (zone : Zone) (t : Int) (ls : List Text)
    (d : Disk Path) (evs : List Event) (h : Orderly a zone t ls d evs) :
    ∃ s, construct a zone t ls d = .ok s ∧
      Shows a (VolumeLog.run (cfg a) (logOf a zone t d) (evs.map (entry zone)))
        (run a zone s evs) := by
  obtain ⟨s, is, hs, hfiled, hshows⟩ := construct_shows h.noFault h.lists h.named h.opens
  obtain ⟨s', hs', htame, -⟩ := construct_opened zone t h.noFault h.lists h.named
  obtain rfl : s = s' := Except.ok.inj (hs.symm.trans hs')
  refine ⟨s, hs, (run_shows hfiled hshows (fun e he => ?_) (h.steps s hs)).2⟩
  exact htame.named _ (length_localDate _) (h.days e he)

/-- A sink of two bytes a volume, over the first file of a day. -/
def narrow : DailyCountArgs where
  baseFilename := "logs/app.log".toList
  maxSize := 2
  maxFiles := 2

def firstNames : List Text := [narrow.makeFilename epochDate 0]

def letters : List Event := [⟨1, [97, newline], []⟩, ⟨2, [98, 99], []⟩]

theorem orderly_letters :
    Orderly narrow (Zone.fixed 0) 0 firstNames (folder narrow firstNames) letters := by
  have hsep : sep ∉ epochDate := sep_notMem_localDate _
  have hbound : ∀ i ∈ [0], i < wordSize := by decide
  have hnamed := folder_named (a := narrow) hsep hbound
  have htoday : ∀ e ∈ letters, e.today (Zone.fixed 0) = epochDate := by decide +kernel
  refine ⟨fun _ _ => rfl, folder_lists hsep hbound (by decide), hnamed,
    fun hrotate => absurd hrotate (by decide), fun e he => by rw [htoday e he]; exact hnamed,
    fun s hs done e hdone => ?_⟩
  have hstates : ∀ k < 2, (construct narrow (Zone.fixed 0) 0 firstNames
      (folder narrow firstNames)).toOption.map (fun s =>
        let s := run narrow (Zone.fixed 0) s (letters.take k)
        (s.currentDate, s.currentIndex)) = some (epochDate, k) := by decide +kernel
  have hprefix := hdone.length_le
  rw [List.length_append, List.length_singleton] at hprefix
  have hlen : done.length < 2 := hprefix
  have hdoneEq : done = letters.take done.length :=
    List.prefix_iff_eq_take.1 ((List.prefix_append done [e]).trans hdone)
  have hstate := hstates done.length hlen
  rw [hs, ← hdoneEq] at hstate
  obtain ⟨hdate, hindex⟩ := Prod.mk.inj (Option.some_inj.1 hstate)
  have hsame : e.today (Zone.fixed 0) = (run narrow (Zone.fixed 0) s done).currentDate :=
    (htoday e (hdone.subset (List.mem_append_right _ List.mem_cons_self))).trans hdate.symm
  refine ⟨⟨fun _ _ hfull => ?_, fun hne => absurd hsame hne, fun hne => absurd hsame hne⟩,
    fun hne => absurd hsame hne⟩
  have hlarge : done.length = wordSize - 1 := hindex.symm.trans hfull
  exact absurd (hlarge ▸ hlen) (by decide)

theorem volumes_refine_letters :
    ∃ s, construct narrow (Zone.fixed 0) 0 firstNames (folder narrow firstNames) = .ok s ∧
      Shows narrow (VolumeLog.run (cfg narrow)
          (logOf narrow (Zone.fixed 0) 0 (folder narrow firstNames))
          (letters.map (entry (Zone.fixed 0))))
        (run narrow (Zone.fixed 0) s letters) :=
  volumes_refine narrow (Zone.fixed 0) 0 firstNames (folder narrow firstNames) letters
    orderly_letters

/-- What opening and logging keep, every orderly run keeps of the volumes of
every date. -/
theorem volumes_invariant {P : Text → List Bytes → Volumes → Prop} {t : Int} {ls : List Text}
    {evs : List Event} (h : Orderly a zone t ls d evs)
    (hopen : ∀ {date bs v}, P date bs v → P date bs (Volumes.openDay (cfg a) v))
    (hlog : ∀ {date bs v} b, P date bs v → P date (bs ++ [b]) (Volumes.log (cfg a) b v)) :
    ∃ s, construct a zone t ls d = .ok s ∧
      ∀ date, date.length = 10 → sep ∉ date → P date [] (volumes a d date) →
        P date (VolumeLog.lines date (evs.map (entry zone)))
          (volumes a (run a zone s evs).disk date) := by
  obtain ⟨s, hs, hshows⟩ := volumes_refine a zone t ls d evs h
  refine ⟨s, hs, fun date hlen hsep hstart => ?_⟩
  rw [hshows.days date hlen hsep]
  exact VolumeLog.days_run (P := P date) hopen hlog _ _
    (VolumeLog.turn_days (P := P date) hopen _ _ hstart)

/-- All volumes that a date has had: those of the log in which none is given up. -/
def allVolumes (a : DailyCountArgs) (zone : Zone) (t : Int) (d : Disk Path) (evs : List Event)
    (date : Text) : Volumes :=
  (VolumeLog.run (cfg a).endless
    (VolumeLog.turn (cfg a).endless (localDateYyyyMmDd (zone.localtime t))
      ⟨localDateYyyyMmDd (zone.localtime t), volumes a d⟩)
    (evs.map (entry zone))).days date

theorem flatten_allVolumes (a : DailyCountArgs) (zone : Zone) (t : Int) (d : Disk Path)
    (evs : List Event) (date : Text) :
    (allVolumes a zone t d evs date).flatten = (volumes a d date).flatten ++
      (VolumeLog.lines date (evs.map (entry zone))).flatten := by
  have hopen : ∀ {bs : List Bytes} {v : Volumes},
      v.flatten = (volumes a d date).flatten ++ bs.flatten →
        (Volumes.openDay (cfg a).endless v).flatten =
          (volumes a d date).flatten ++ bs.flatten :=
    fun hv => (Volumes.flatten_openDay _ _).trans hv
  exact VolumeLog.days_run (c := (cfg a).endless)
    (P := fun bs v => v.flatten = (volumes a d date).flatten ++ bs.flatten) hopen
    (fun {bs v} b hv => by
      rw [Volumes.flatten_log, hv, List.flatten_append, List.flatten_singleton, List.append_assoc])
    _ _ (VolumeLog.turn_days (P := fun bs v => v.flatten = (volumes a d date).flatten ++ bs.flatten)
      hopen _ _ (List.append_nil _).symm)

/-- In every orderly run, and for every date: all the volumes it has had make
the text before followed by the lines of its messages in order; those that are
there are the last of them, the newest one always among them, and all of them
where none is to be given up; and where some are, there are no more than are to
be kept, or than there were. -/
theorem volumes_account (a : DailyCountArgs) (zone : Zone) (t : Int) (ls : List Text)
    (d : Disk Path) (evs : List Event) (h : Orderly a zone t ls d evs) :
    ∃ s, construct a zone t ls d = .ok s ∧ ∀ date, date.length = 10 → sep ∉ date →
      (allVolumes a zone t d evs date).flatten = (volumes a d date).flatten ++
          (VolumeLog.lines date (evs.map (entry zone))).flatten ∧
        (∃ gone, gone ++ volumes a (run a zone s evs).disk date = allVolumes a zone t d evs date ∧
          (a.maxFiles = 0 → gone = []) ∧
          (allVolumes a zone t d evs date ≠ [] → volumes a (run a zone s evs).disk date ≠ [])) ∧
        (a.maxFiles ≠ 0 → (volumes a (run a zone s evs).disk date).length ≤
          max a.maxFiles (volumes a d date).length) := by
  obtain ⟨s, hs, hshows⟩ := volumes_refine a zone t ls d evs h
  obtain ⟨s', hs', hcount⟩ := volumes_invariant (a := a)
    (P := fun date _ v => Volumes.Bounded (cfg a) (volumes a d date).length v) h
    Volumes.bounded_openDay (fun b hv => Volumes.bounded_log hv b)
  obtain rfl : s = s' := Except.ok.inj (hs.symm.trans hs')
  refine ⟨s, hs, fun date hlen hsep => ⟨flatten_allVolumes a zone t d evs date, ?_, ?_⟩⟩
  · have hstart : VolumeLog.Left (cfg a)
        ⟨localDateYyyyMmDd (zone.localtime t), volumes a d⟩
        ⟨localDateYyyyMmDd (zone.localtime t), volumes a d⟩ :=
      ⟨rfl, fun date => Volumes.Left.refl _ _⟩
    rw [hshows.days date hlen hsep]
    exact ((VolumeLog.left_run (VolumeLog.left_turn hstart _) (evs.map (entry zone))).days date).gone
  · exact hcount date hlen hsep fun _ => Nat.le_max_right _ _

theorem volumes_account_letters :
    ∃ s, construct narrow (Zone.fixed 0) 0 firstNames (folder narrow firstNames) = .ok s ∧
      ∀ date, date.length = 10 → sep ∉ date →
        (allVolumes narrow (Zone.fixed 0) 0 (folder narrow firstNames) letters date).flatten =
            (volumes narrow (folder narrow firstNames) date).flatten ++
              (VolumeLog.lines date (letters.map (entry (Zone.fixed 0)))).flatten ∧
          (∃ gone, gone ++ volumes narrow (run narrow (Zone.fixed 0) s letters).disk date =
              allVolumes narrow (Zone.fixed 0) 0 (folder narrow firstNames) letters date ∧
            (narrow.maxFiles = 0 → gone = []) ∧
            (allVolumes narrow (Zone.fixed 0) 0 (folder narrow firstNames) letters date ≠ [] →
              volumes narrow (run narrow (Zone.fixed 0) s letters).disk date ≠ [])) ∧
          (narrow.maxFiles ≠ 0 →
            (volumes narrow (run narrow (Zone.fixed 0) s letters).disk date).length ≤
              max narrow.maxFiles (volumes narrow (folder narrow firstNames) date).length) :=
  volumes_account narrow (Zone.fixed 0) 0 firstNames (folder narrow firstNames) letters
    orderly_letters

/-- Where a date is gone on with when it is opened and its volumes were
settled: they are so after every orderly run, and every one that was not found
so is filled by the last of its lines and not before. -/
theorem volumes_packed (a : DailyCountArgs) (zone : Zone) (t : Int) (ls : List Text)
    (d : Disk Path) (evs : List Event) (h : Orderly a zone t ls d evs)
    (hopen : a.rotateOnOpen = false) :
    ∃ s, construct a zone t ls d = .ok s ∧ ∀ date, date.length = 10 → sep ∉ date →
      Volumes.Settled (cfg a) (volumes a d date) →
        Volumes.Packed (cfg a) (volumes a d date) (VolumeLog.lines date (evs.map (entry zone)))
          (volumes a (run a zone s evs).disk date) := by
  have hempty : (cfg a).full 0 = false := by
    rw [cfg, decide_eq_false_iff_not]
    intro hfull
    exact absurd hfull.1 (Nat.not_lt.2 (hfull.2.trans (Nat.zero_mod _).le))
  obtain ⟨s, hs, hrun⟩ := volumes_invariant
    (P := fun date bs v => Volumes.Settled (cfg a) (volumes a d date) →
      Volumes.Packed (cfg a) (volumes a d date) bs v) h
    (fun hv hsettled => Volumes.packed_openDay hopen (hv hsettled))
    (fun b hv hsettled => Volumes.packed_log hempty (hv hsettled) b)
  exact ⟨s, hs, fun date hlen hsep => hrun date hlen hsep Volumes.packed_refl⟩

theorem volumes_packed_letters :
    ∃ s, construct narrow (Zone.fixed 0) 0 firstNames (folder narrow firstNames) = .ok s ∧
      ∀ date, date.length = 10 → sep ∉ date →
        Volumes.Settled (cfg narrow) (volumes narrow (folder narrow firstNames) date) →
          Volumes.Packed (cfg narrow) (volumes narrow (folder narrow firstNames) date)
            (VolumeLog.lines date (letters.map (entry (Zone.fixed 0))))
            (volumes narrow (run narrow (Zone.fixed 0) s letters).disk date) :=
  volumes_packed narrow (Zone.fixed 0) 0 firstNames (folder narrow firstNames) letters
    orderly_letters rfl

end UempPlugin.Ref.DailyCountSink
