import UempPlugin.Lib.Simulation
import UempPlugin.Ref.CountRotating
import UempPlugin.Spec.CountLog

/-!
# The count sink is a counted log

When no file-system call fails, every stage of `sink_it_` is the operation of
the same name on `CountLog`, and so a whole run of the sink is the run of the
log (`run_steps`). The theorems about the sink's files are proved over the log
and read back through this view.

A healthy sink is one whose open handle is the handle of its own base file,
and whose base file is there while it is open; writing needs both. What the
log does not see is kept by the view: files outside the chain are untouched,
and without backups nothing is ever renamed.
-/

namespace UempPlugin.Ref.CountSink

open UempPlugin.Lib UempPlugin.Spec

/-! ## Counting by chunks is counting -/

theorem foldl_count (b : Bytes) :
    ∀ n, b.foldl (fun n c => if c = newline then n + 1 else n) n = n + b.count newline := by
  induction b with
  | nil => intro n; rfl
  | cons c b ih =>
      intro n
      rw [List.foldl_cons, ih, List.count_cons]
      by_cases hc : c = newline
      · rw [if_pos hc, if_pos (by simp [hc])]
        omega
      · rw [if_neg hc, if_neg (by simp [hc])]
        omega

/-- What the scan holds behind the bytes `b`. -/
def scanOf (b : Bytes) : LineScan where
  lines := b.count newline
  hasAny := b ≠ []
  last := b.getLast?.getD 0

theorem scanOf_chunk (b c : Bytes) (hc : c ≠ []) : (scanOf b).chunk c = scanOf (b ++ c) := by
  have hlast : c.getLast? = some (c.getLast hc) := List.getLast?_eq_some_getLast hc
  have hne : b ++ c ≠ [] := List.append_ne_nil_of_right_ne_nil b hc
  simp only [LineScan.chunk, scanOf, foldl_count, List.count_append, List.getLast?_append, hlast,
    Option.some_or, Option.getD_some, decide_eq_true hne]

theorem scanLoop_scanOf {cs : List Bytes} (hcs : ∀ c ∈ cs, c ≠ []) (b : Bytes) :
    scanLoop (scanOf b) cs = scanOf (b ++ cs.flatten) := by
  induction cs generalizing b with
  | nil => rw [List.flatten_nil, List.append_nil, scanLoop]
  | cons c cs ih =>
      have hc := hcs c List.mem_cons_self
      rw [scanLoop, if_neg hc, scanOf_chunk b c hc, ih (fun x hx => hcs x (by simp [hx])),
        List.flatten_cons, List.append_assoc]

/-- The rule for the last line, from what the scan holds. -/
theorem lineCount_scanOf (b : Bytes) :
    (if (scanOf b).hasAny ∧ (scanOf b).last ≠ newline then (scanOf b).lines + 1
      else (scanOf b).lines) = lineCount b := by
  rw [lineCount]
  simp only [scanOf, decide_eq_true_eq]
  by_cases hb : b = []
  · rw [if_neg (fun h => h.1 hb), if_neg (fun h => h.1 hb), Nat.add_zero]
  · rw [List.getLast?_eq_some_getLast hb, Option.getD_some]
    by_cases hnl : b.getLast hb = newline
    · rw [if_neg (fun h => h.2 hnl), if_neg (fun h => h.2 (by rw [hnl])), Nat.add_zero]
    · rw [if_pos ⟨hb, hnl⟩, if_pos ⟨hb, fun h => hnl (Option.some_inj.1 h)⟩]

/-- However the bytes come in chunks, as long as none is empty, the lines
counted are those of the whole. -/
theorem countLinesInFile_flatten {cs : List Bytes} (hcs : ∀ c ∈ cs, c ≠ []) :
    countLinesInFile cs = lineCount cs.flatten := by
  have hscan := scanLoop_scanOf hcs []
  rw [List.nil_append] at hscan
  rw [countLinesInFile, ← lineCount_scanOf, ← hscan]
  rfl

theorem readChunks_flatten {n : Nat} (hn : 0 < n) :
    ∀ {k : Nat} {b : Bytes}, b.length ≤ k →
      (readChunks n k b).flatten = b ∧ ∀ c ∈ readChunks n k b, c ≠ [] := by
  intro k
  induction k with
  | zero =>
      intro b hk
      rw [List.length_eq_zero_iff.1 (Nat.le_zero.1 hk)]
      exact ⟨rfl, fun c hc => absurd hc List.not_mem_nil⟩
  | succ k ih =>
      intro b hk
      cases b with
      | nil => exact ⟨rfl, fun c hc => absurd hc List.not_mem_nil⟩
      | cons x b =>
          rw [readChunks.eq_3 _ _ _ (by simp)]
          have hrest : ((x :: b).drop n).length ≤ k := by
            rw [List.length_drop, List.length_cons] at *
            omega
          obtain ⟨hflatten, hne⟩ := ih hrest
          constructor
          · rw [List.flatten_cons, hflatten, List.take_append_drop]
          · intro c hc
            rcases List.mem_cons.1 hc with rfl | hc
            · intro hnil
              rcases List.take_eq_nil_iff.1 hnil with hzero | hcons
              · omega
              · cases hcons
            · exact hne c hc

theorem countLinesInFile_eq (b : Bytes) :
    countLinesInFile (readChunks kBuf b.length b) = lineCount b := by
  obtain ⟨hflatten, hne⟩ := readChunks_flatten (n := kBuf) (by decide) (Nat.le_refl b.length)
  rw [countLinesInFile_flatten hne, hflatten]

/-! ## The view -/

variable (a : CountArgs)

/-- The sink's arguments, as the log knows them. -/
def cfg : CountCfg where
  maxCount := a.maxCount
  maxFiles := a.maxFiles
  rotateOnOpen := a.rotateOnOpen
  strict := a.strictCountOnOpen

/-- An open sink holds the handle of its base file, which exists. -/
def Attached (s : CountSink) : Prop :=
  s.opened = true → s.fd = some a.basePath ∧ (s.disk.files a.basePath).isSome

/-- The sink as a counted log. -/
def view : View CountSink CountLog where
  good s := s.disk.NoFault ∧ Attached a s
  see s :=
    { toShelf := Disk.shelf (chainPath a.dir a.stem) s.disk
      count := s.logCount
      opened := s.opened
      begun := s.rotatedOnOpenDone }
  keeps s s' := Disk.Frame (chainPath a.dir a.stem) a.maxFiles s.disk s'.disk
  keeps_refl s := Disk.Frame.refl _ _ s.disk
  keeps_trans h h' := h.trans h'

variable {a}

/-- Asking the disk a question changes nothing that is seen. -/
theorem quiet {s : CountSink} (h : (view a).good s) :
    (view a).Next s ((view a).see s) { s with disk := s.disk.tick } :=
  ⟨⟨h.1.of_fault rfl, h.2⟩, rfl, Disk.Frame.tick _ _ _⟩

/-- Shifting the backups and then moving the current file is one cascade. -/
theorem shiftBackups_moveOver (a : CountArgs) :
    ∀ (n : Nat) (d : Disk Path),
      (shiftBackups a n d).moveOver a.basePath (a.rotatedPath 1) =
        Disk.cascade (chainPath a.dir a.stem) n d := by
  intro n
  induction n with
  | zero => exact fun _ => rfl
  | succ n ih => exact fun d => ih _

theorem rotateFiles_eq (a : CountArgs) (s : CountSink) :
    rotateFiles a s =
      { s with
        fd := none, opened := false, logCount := 0
        disk := s.disk.rotateChain (chainPath a.dir a.stem) a.maxFiles } := by
  rw [rotateFiles]
  split
  · next hN => rw [hN, Disk.rotateChain]
  · next hN =>
      obtain ⟨n, hn⟩ : ∃ n, a.maxFiles = n + 1 := ⟨a.maxFiles - 1, by omega⟩
      have hdisk := shiftBackups_moveOver a (a.maxFiles - 1)
        (s.disk.unlink (a.rotatedPath a.maxFiles))
      simp only [hdisk]
      rw [hn]
      rfl

theorem rotateFiles_steps :
    (view a).Steps (rotateFiles a) (CountLog.rotate (cfg a)) := by
  intro s h
  have hinj := chainPath_injective a.dir a.stem
  rw [rotateFiles_eq]
  refine ⟨⟨h.1.of_fault (Disk.rotateChain_fault _ _ _), fun ho => by cases ho⟩, ?_,
    Disk.rotateChain_frame hinj h.1 a.maxFiles⟩
  show CountLog.mk _ _ _ _ = _
  rw [Disk.rotateChain_shelf hinj h.1]
  rfl

theorem scan_steps :
    (view a).Steps (adjustForStrictOnOpen a) (CountLog.scan (cfg a)) := by
  intro s h
  rw [adjustForStrictOnOpen, CountLog.scan]
  by_cases hs : (!a.strictCountOnOpen) = true ∨ a.maxCount = 0
  · rw [if_pos hs, if_pos (by exact hs)]
    exact ⟨h, rfl, Disk.Frame.refl _ _ _⟩
  · rw [if_neg hs, if_neg (by exact hs), Disk.stat_eq h.1]
    cases hf : s.disk.files a.basePath with
    | none =>
        have hheld : ((view a).see s).held = 0 := by
          show lineCount (Chain.slotBytes (s.disk.files a.basePath)) = 0
          rw [hf]
          rfl
        rw [if_neg (by rw [hheld]; exact fun hle => hs (.inr (by simpa [cfg] using hle))),
          hheld]
        exact ⟨⟨h.1.of_fault rfl, h.2⟩, rfl, Disk.Frame.tick _ _ _⟩
    | some f =>
        have hheld : ((view a).see s).held = lineCount f.bytes := by
          show lineCount (Chain.slotBytes (s.disk.files a.basePath)) = _
          rw [hf]
          rfl
        have hread := Disk.fread_eq (d := s.disk.tick) (h.1.of_fault rfl) hf
        have hquiet : (view a).Next s ((view a).see s) { s with disk := s.disk.tick.tick } :=
          (quiet h).trans (quiet (quiet h).good)
        simp only [Option.isSome_some, hread, countLinesInFile_eq, hheld]
        by_cases hle : a.maxCount ≤ lineCount f.bytes
        · rw [if_pos hle, if_pos (by exact hle)]
          have hrot := rotateFiles_steps _ hquiet.good
          rw [hquiet.see] at hrot
          have hnext := hquiet.trans hrot
          exact ⟨hnext.good, congrArg (fun t : CountLog => { t with count := 0 }) hnext.see,
            hnext.keeps⟩
        · rw [if_neg hle, if_neg (by exact hle)]
          exact ⟨hquiet.good, rfl, hquiet.keeps⟩

theorem openLog_runs :
    (view a).Runs (fun _ => True) (ensureOpenedForWrite a) (CountLog.openLog (cfg a)) := by
  intro s h _
  rw [ensureOpenedForWrite, CountLog.openLog]
  by_cases ho : s.opened = true
  · rw [if_pos ho, if_pos (by exact ho)]
    exact ⟨s, rfl, View.Next.self h⟩
  · rw [if_neg ho, if_neg (by exact ho)]
    have hscan := scan_steps s h
    rw [← hscan.see]
    refine ⟨{ adjustForStrictOnOpen a s with
      fd := some a.basePath, opened := true,
      disk := (openFile a.basePath (adjustForStrictOnOpen a s).disk).2 }, ?_, ?_⟩
    · simp only [openFile_eq hscan.good.1]
    · have hinj := chainPath_injective a.dir a.stem
      have hfiles := openFile_files hscan.good.1 a.basePath
      refine ⟨⟨hscan.good.1.of_fault (openFile_fault _ _), fun _ => ⟨rfl, ?_⟩⟩, ?_,
        hscan.keeps.trans (Disk.frame_update hfiles (openFile_moved hscan.good.1 _))⟩
      · simp only [hfiles, Function.update_self, Option.isSome_some]
      · show CountLog.mk _ _ _ _ = _
        rw [Disk.shelf_create hinj hfiles (openFile_lost hscan.good.1 _)]
        rfl

/-! ## The stages of `sink_it_` -/

theorem begin_steps :
    (view a).Steps (rotateOnFirstWrite a) (CountLog.begin (cfg a)) := by
  intro s h
  rw [rotateOnFirstWrite, CountLog.begin]
  by_cases hb : s.rotatedOnOpenDone = true
  · rw [if_pos hb, if_pos (by exact hb)]
    exact View.Next.self h
  · rw [if_neg hb, if_neg (by exact hb)]
    by_cases hr : a.rotateOnOpen = true ∧ a.maxFiles > 0
    · rw [if_pos hr, Disk.stat_eq h.1]
      cases hf : s.disk.files a.basePath with
      | none =>
          have hno : ((view a).see s).chain 0 = none := hf
          rw [if_neg (by rintro ⟨-, -, h0⟩; rw [hno] at h0; cases h0)]
          have hq := quiet h
          exact ⟨hq.good, congrArg (fun t : CountLog => { t with begun := true }) hq.see, hq.keeps⟩
      | some f =>
          have hyes : ((view a).see s).chain 0 = some f := hf
          rw [if_pos ⟨hr.1, hr.2, by rw [hyes]; rfl⟩]
          have hrot := rotateFiles_steps _ (quiet h).good
          rw [(quiet h).see] at hrot
          have hnext := (quiet h).trans hrot
          exact ⟨hnext.good, congrArg (fun t : CountLog => { t with begun := true }) hnext.see,
            hnext.keeps⟩
    · rw [if_neg hr, if_neg (by rintro ⟨h1, h2, -⟩; exact hr ⟨h1, h2⟩)]
      exact ⟨h, rfl, Disk.Frame.refl _ _ _⟩

/-- A rotation followed by opening. -/
theorem reopen_runs {s : CountSink} (h : (view a).good s) :
    ∃ s', ensureOpenedForWrite a (rotateFiles a s) = .ok () s' ∧
      (view a).Next s (CountLog.openLog (cfg a) (CountLog.rotate (cfg a) ((view a).see s))) s' := by
  have hrot := rotateFiles_steps s h
  obtain ⟨s', he, hn⟩ := openLog_runs _ hrot.good trivial
  rw [hrot.see] at hn
  exact ⟨s', he, hrot.trans hn⟩

theorem beforeOpen_runs :
    (view a).Runs (fun _ => True) (rotateBeforeOpen a) (CountLog.beforeOpen (cfg a)) := by
  intro s h _
  rw [rotateBeforeOpen, CountLog.beforeOpen]
  by_cases hc : s.logCount ≥ a.maxCount
  · by_cases hN : a.maxFiles > 0
    · rw [if_pos hc, if_pos hN, if_pos (by exact hc), if_pos (by exact hN)]
      exact reopen_runs h
    · rw [if_pos hc, if_neg hN, if_pos (by exact hc), if_neg (by exact hN)]
      exact ⟨_, rfl, h, rfl, Disk.Frame.refl _ _ _⟩
  · rw [if_neg hc, if_neg (by exact hc)]
    exact ⟨s, rfl, View.Next.self h⟩

theorem afterOpen_runs :
    (view a).Runs (fun _ => True) (rotateAfterOpen a) (CountLog.afterOpen (cfg a)) := by
  intro s h _
  rw [rotateAfterOpen, CountLog.afterOpen]
  by_cases hc : s.logCount ≥ a.maxCount
  · rw [if_pos hc, if_pos (by exact hc)]
    exact reopen_runs h
  · rw [if_neg hc, if_neg (by exact hc)]
    exact ⟨s, rfl, View.Next.self h⟩

theorem writeMessage_runs (msg : Bytes) :
    (view a).Runs (fun t => t.opened = true) (writeMessage msg) (CountLog.append msg) := by
  intro s h ho
  obtain ⟨hfd, hsome⟩ := h.2 ho
  obtain ⟨f, hf⟩ := Option.isSome_iff_exists.1 hsome
  have hfiles := Disk.append_files hf msg
  refine ⟨{ s with disk := (s.disk.append a.basePath msg).tick, logCount := s.logCount + 1 }, ?_, ?_⟩
  · rw [writeMessage, hfd]
    simp only [writeFile, Disk.fwrite_eq h.1]
  · refine ⟨⟨h.1.of_fault (by simp), fun _ => ⟨hfd, ?_⟩⟩, ?_,
      Disk.frame_update hfiles (Disk.append_moved _ _ _)⟩
    · simp only [Disk.tick_files, hfiles, Function.update_self, Option.isSome_some]
    · have hshelf := Disk.shelf_append (chainPath_injective a.dir a.stem) hf msg
      exact congrArg (fun sh => (⟨sh, s.logCount + 1, s.opened, s.rotatedOnOpenDone⟩ : CountLog))
        hshelf

theorem afterWrite_steps :
    (view a).Steps (rotateAfterWrite a) (CountLog.afterWrite (cfg a)) := by
  intro s h
  rw [rotateAfterWrite, CountLog.afterWrite]
  by_cases hc : s.logCount ≥ a.maxCount
  · rw [if_pos hc, if_pos (by exact hc)]
    exact rotateFiles_steps s h
  · rw [if_neg hc, if_neg (by exact hc)]
    exact View.Next.self h

theorem sinkIt_runs (msg : Bytes) :
    (view a).Runs (fun _ => True) (sinkIt a msg) (CountLog.log (cfg a) msg) :=
  begin_steps.runs.bind (q := fun _ => True)
    (beforeOpen_runs.bind (q := fun _ => True)
      (openLog_runs.bind (q := fun t => t.opened = true)
        ((afterOpen_runs.weaken fun _ _ => trivial).bind
          (q := fun t => t.opened = true)
          ((writeMessage_runs msg).bind (q := fun _ => True)
            afterWrite_steps.runs fun _ _ => trivial)
          fun _ ht => CountLog.afterOpen_opened ht)
        fun t _ => CountLog.openLog_opened (cfg a) t)
      fun _ _ => trivial)
    fun _ _ => trivial

/-! ## Runs -/

/-- One event on the log. -/
def logStep (c : CountCfg) (t : CountLog) : Event → CountLog
  | .log m => CountLog.log c m t
  | .restart => CountLog.restart t

/-- A run on the log. -/
def logRun (c : CountCfg) (t : CountLog) (evs : List Event) : CountLog :=
  evs.foldl (logStep c) t

theorem construct_next {s : CountSink} (h : (view a).good s) :
    (view a).Next s (CountLog.restart ((view a).see s)) (construct a s.disk) :=
  ⟨⟨h.1.of_fault rfl, fun ho => by cases ho⟩, rfl, Disk.Frame.tick _ _ _⟩

theorem step_steps (e : Event) : (view a).Steps (step a · e) (logStep (cfg a) · e) := by
  intro s h
  match e with
  | .log m =>
      obtain ⟨s', he, hn⟩ := sinkIt_runs m s h trivial
      simp only [step, he]
      exact hn
  | .restart => exact construct_next h

/-- A run of a new sink is the run of its log. -/
theorem run_next (a : CountArgs) (evs : List Event) {d : Disk Path} (h : d.NoFault) :
    (view a).Next (construct a d) (logRun (cfg a) ((view a).see (construct a d)) evs)
      (run a (construct a d) evs) :=
  View.steps_foldl (fun e _ => step_steps e) evs (fun _ _ => trivial) _
    ⟨h.of_fault rfl, fun ho => by cases ho⟩

end UempPlugin.Ref.CountSink
