import Mathlib.Data.List.Induction
import UempPlugin.Proofs.DailyTargets
import UempPlugin.Spec.SizeLog

/-!
# One date group of the daily sink is a log rotated by size

While the base name stays the same and no file-system call fails, the sink is
a `SizeLog`: every stage of `sink_it_` is the operation of the same name, and
a reading of the clock past the rotation time, or a restart, is a `turn`. The
view says in passing that `current_size_bytes_` is the length of the base file
whenever the file is open; that is what lets the sink's comparison be replaced
by the log's.

When the clock turns the group over is the sink's business, so a run of the
sink is some run of the log with the same messages (`run_refines`). The run
may begin before the sink has come to the group: `Ready` asks for nothing but
a sound sink, and every sink built on a disk without failures stays sound.
-/

namespace UempPlugin.Ref.DailySink

open UempPlugin.Lib UempPlugin.Spec

variable (a : DailyArgs) (b : Text)

/-- The sink's arguments, as the log knows them. -/
def cfg : SizeCfg where
  maxSize := a.maxSizeBytes
  maxFiles := a.maxFiles
  rotateOnOpen := a.rotateOnOpen

/-- An open sink holds the base file of group `b` and knows its size. -/
def Measured (s : DailySink) : Prop :=
  s.opened = true →
    s.fd = some (a.basePath b) ∧
      ∃ f, s.disk.files (a.basePath b) = some f ∧ s.currentSizeBytes = f.bytes.length

/-- The sink as a log of group `b`. -/
def groupView : View DailySink SizeLog where
  good s := s.disk.NoFault ∧ s.currentBasename = b ∧ Measured a b s
  see s :=
    { toShelf := Disk.shelf (chainPath a.dir b) s.disk
      opened := s.opened
      begun := s.rotatedOnOpenDone }
  keeps s s' := Disk.Frame (chainPath a.dir b) a.maxFiles s.disk s'.disk
  keeps_refl s := Disk.Frame.refl _ _ s.disk
  keeps_trans h h' := h.trans h'

variable {a b}

/-- A sink that only asked the disk a question. -/
theorem group_quiet {s : DailySink} (h : (groupView a b).good s) :
    (groupView a b).Next s ((groupView a b).see s) { s with disk := s.disk.tick } :=
  ⟨⟨h.1.of_fault rfl, h.2.1, h.2.2⟩, rfl, Disk.Frame.tick _ _ _⟩

/-! ## Rotation and opening -/

theorem shiftChain_moveOver (a : DailyArgs) (b : Text) :
    ∀ (n : Nat) (d : Disk Path),
      (shiftChain a b (n + 1) d).moveOver (a.basePath b) (a.rotatedPath b 1) =
        Disk.cascade (chainPath a.dir b) n d := by
  intro n
  induction n with
  | zero => exact fun _ => rfl
  | succ n ih => exact fun d => ih _

theorem rotateBySizeChain_eq {s : DailySink} (hN : a.maxFiles ≠ 0) :
    rotateBySizeChain a s =
      { closeFile s with
        disk := s.disk.rotateChain (chainPath a.dir s.currentBasename) a.maxFiles } := by
  obtain ⟨n, hn⟩ : ∃ n, a.maxFiles = n + 1 := ⟨a.maxFiles - 1, by omega⟩
  have hdisk := shiftChain_moveOver a s.currentBasename n
    (s.disk.unlink (a.rotatedPath s.currentBasename a.maxFiles))
  rw [rotateBySizeChain, if_neg hN]
  simp only [hn] at hdisk ⊢
  rw [hdisk]
  rfl

theorem rotate_steps : (groupView a b).Steps (rotateBySizeChain a) (SizeLog.rotate (cfg a)) := by
  intro s h
  by_cases hN : a.maxFiles = 0
  · rw [rotateBySizeChain, if_pos hN, SizeLog.rotate, if_pos (by exact hN)]
    exact View.Next.self h
  · have hinj := chainPath_injective a.dir b
    rw [rotateBySizeChain_eq hN, h.2.1, SizeLog.rotate, if_neg (by exact hN)]
    refine ⟨⟨h.1.of_fault (Disk.rotateChain_fault _ _ _), h.2.1, fun ho => by cases ho⟩, ?_,
      Disk.rotateChain_frame hinj h.1 a.maxFiles⟩
    show SizeLog.mk _ _ _ = _
    rw [Disk.rotateChain_shelf hinj h.1]
    rfl

theorem group_open_runs :
    (groupView a b).Runs (fun _ => True) (ensureOpenedForWrite a) SizeLog.openLog := by
  intro s h _
  cases ho : s.opened with
  | true =>
      rw [SizeLog.openLog_of_opened (by exact ho), ensureOpenedForWrite, if_pos ho]
      exact ⟨s, rfl, View.Next.self h⟩
  | false =>
      obtain rfl := h.2.1
      rw [SizeLog.openLog_of_closed (by exact ho), ensureOpenedForWrite,
        if_neg (by rw [ho]; decide)]
      simp only [openFile_eq h.1]
      have hfiles := openFile_files h.1 (a.basePath s.currentBasename)
      have hlost := openFile_lost h.1 (a.basePath s.currentBasename)
      have hmoved := openFile_moved h.1 (a.basePath s.currentBasename)
      have hfault := openFile_fault (a.basePath s.currentBasename) s.disk
      rw [openFile_eq h.1] at hfiles hlost hmoved hfault
      generalize ((s.disk.mkdirs (parentPath (a.basePath s.currentBasename))).fopen
        (a.basePath s.currentBasename)).2 = d at hfiles hlost hmoved hfault ⊢
      have hd : d.NoFault := h.1.of_fault hfault
      have hbase : d.files (a.basePath s.currentBasename) =
          some ((s.disk.files (a.basePath s.currentBasename)).getD { bytes := [] }) := by
        rw [hfiles, Function.update_self]
      simp only [fileSize, hd.refuses, hbase]
      refine ⟨_, rfl, ⟨hd.of_fault rfl, rfl, fun _ => ⟨rfl, _, hbase, rfl⟩⟩, ?_,
        Disk.frame_update hfiles hmoved⟩
      exact congrArg (fun sh => (⟨sh, true, s.rotatedOnOpenDone⟩ : SizeLog))
        (Disk.shelf_create (chainPath_injective a.dir _) hfiles hlost)

/-! ## The stages of `sink_it_` -/

theorem group_begin_steps :
    (groupView a b).Steps (rotateOnFirstWrite a) (SizeLog.begin (cfg a)) := by
  intro s h
  rw [rotateOnFirstWrite, SizeLog.begin]
  by_cases hb : s.rotatedOnOpenDone = true
  · rw [if_pos hb, if_pos (by exact hb)]
    exact View.Next.self h
  · rw [if_neg hb, if_neg (by exact hb)]
    by_cases hr : a.rotateOnOpen = true ∧ a.maxFiles > 0
    · obtain rfl := h.2.1
      rw [if_pos hr, Disk.stat_eq h.1]
      cases hf : s.disk.files (a.basePath s.currentBasename) with
      | none =>
          have hno : ((groupView a s.currentBasename).see s).chain 0 = none := hf
          rw [if_neg (by rintro ⟨-, -, h0⟩; rw [hno] at h0; cases h0)]
          have hq := group_quiet h
          exact ⟨hq.good, congrArg (fun t : SizeLog => { t with begun := true }) hq.see, hq.keeps⟩
      | some f =>
          have hyes : ((groupView a s.currentBasename).see s).chain 0 = some f := hf
          rw [if_pos ⟨hr.1, hr.2, by rw [hyes]; rfl⟩]
          have hrot := rotate_steps _ (group_quiet h).good
          rw [(group_quiet h).see] at hrot
          have hnext := (group_quiet h).trans hrot
          exact ⟨hnext.good, congrArg (fun t : SizeLog => { t with begun := true }) hnext.see,
            hnext.keeps⟩
    · rw [if_neg hr, if_neg (by rintro ⟨h1, h2, -⟩; exact hr ⟨h1, h2⟩)]
      exact ⟨h, rfl, Disk.Frame.refl _ _ _⟩

/-- The sink compares the size of the open file, which is the log's. -/
theorem group_makeRoom_runs (msg : Bytes) :
    (groupView a b).Runs (fun t => t.opened = true) (rotateBeforeWrite a msg)
      (SizeLog.makeRoom (cfg a) msg) := by
  intro s h ho
  obtain ⟨-, f, hf, hlen⟩ := h.2.2 ho
  have hsize : ((groupView a b).see s).size = s.currentSizeBytes := by
    show (Chain.slotBytes (s.disk.files (a.basePath b))).length = _
    rw [hf, hlen]
    rfl
  rw [rotateBeforeWrite, SizeLog.makeRoom, hsize]
  by_cases hfull : a.maxFiles > 0 ∧ s.currentSizeBytes + msg.length > a.maxSizeBytes
  · rw [if_pos hfull, if_pos (by exact hfull)]
    have hrot := rotate_steps s h
    obtain ⟨s', he, hn⟩ := group_open_runs _ hrot.good trivial
    rw [hrot.see] at hn
    exact ⟨s', he, hrot.trans hn⟩
  · rw [if_neg hfull, if_neg (by exact hfull)]
    exact ⟨s, rfl, View.Next.self h⟩

theorem group_write_runs (msg : Bytes) :
    (groupView a b).Runs (fun t => t.opened = true) (writeMessage msg) (SizeLog.append msg) := by
  intro s h ho
  obtain ⟨hfd, f, hf, hlen⟩ := h.2.2 ho
  have hfiles := Disk.append_files hf msg
  refine ⟨{ s with
    disk := (s.disk.append (a.basePath b) msg).tick
    currentSizeBytes := s.currentSizeBytes + msg.length }, ?_, ?_⟩
  · rw [writeMessage, hfd]
    simp only [writeFile, Disk.fwrite_eq h.1]
  · have hnew : (s.disk.append (a.basePath b) msg).files (a.basePath b) =
        some { bytes := f.bytes ++ msg, written := true } := by
      rw [hfiles, Function.update_self]
    refine ⟨⟨h.1.of_fault (by simp), h.2.1, fun _ => ⟨hfd, _, hnew, ?_⟩⟩, ?_,
      Disk.frame_update hfiles (Disk.append_moved _ _ _)⟩
    · simp only [hlen, List.length_append]
    · exact congrArg (fun sh => (⟨sh, s.opened, s.rotatedOnOpenDone⟩ : SizeLog))
        (Disk.shelf_append (chainPath_injective a.dir b) hf msg)

theorem sinkBody_runs (msg : Bytes) :
    (groupView a b).Runs (fun _ => True) (sinkBody a msg) (SizeLog.log (cfg a) msg) :=
  group_begin_steps.runs.bind (q := fun _ => True)
    (group_open_runs.bind (q := fun t => t.opened = true)
      ((group_makeRoom_runs msg).bind (q := fun t => t.opened = true)
        (group_write_runs msg) fun _ ht => SizeLog.makeRoom_opened ht msg)
      fun t _ => SizeLog.openLog_opened t)
    fun _ _ => trivial

/-! ## Runs -/

/-- No call fails, and if the sink is in group `b` it knows its file. -/
def Ready (a : DailyArgs) (b : Text) (s : DailySink) : Prop :=
  s.disk.NoFault ∧ (s.currentBasename = b → Measured a b s)

theorem Ready.good {s : DailySink} (h : Ready a b s) (hb : s.currentBasename = b) :
    (groupView a b).good s := ⟨h.1, hb, h.2 hb⟩

/-- A reading of the clock that leads to group `b` turns its log, or the sink
was there already. -/
theorem clock_next {zone : Zone} {now : Int} {s : DailySink} (h : Ready a b s)
    (hb : (rotateIfNeededByTime a zone now s).currentBasename = b) :
    ∃ ops, SizeLog.messages ops = [] ∧
      (groupView a b).Next s (SizeLog.run (cfg a) ((groupView a b).see s) ops)
        (rotateIfNeededByTime a zone now s) := by
  rw [rotateIfNeededByTime] at hb ⊢
  by_cases ht : now < s.nextRotation
  · rw [if_pos ht] at hb ⊢
    exact ⟨[], rfl, View.Next.self (h.good hb)⟩
  · rw [if_neg ht] at hb ⊢
    exact ⟨[.turn], rfl, ⟨h.1, hb, fun ho => by cases ho⟩, rfl, Disk.Frame.refl _ _ _⟩

/-- The first step of `sink_it_` decides the group. -/
theorem clock_of_step {zone : Zone} {now : Int} {m : Bytes} {s : DailySink}
    (hb : (step a zone s (.log now m)).currentBasename = b) :
    (rotateIfNeededByTime a zone now s).currentBasename = b := by
  have hsame := sinkBody_same (a := a) m (rotateIfNeededByTime a zone now s)
  rw [← hsame.basename, ← hb, step, sinkIt_eq]
  cases sinkBody a m (rotateIfNeededByTime a zone now s) <;> rfl

theorem sinkIt_returns {zone : Zone} {now : Int} {m : Bytes} {s : DailySink}
    (h : Ready a b s) (hb : (step a zone s (.log now m)).currentBasename = b) :
    sinkIt a zone now m s = .ok () (step a zone s (.log now m)) := by
  obtain ⟨ops, -, hn⟩ := clock_next h (clock_of_step hb)
  obtain ⟨s', he, -⟩ := sinkBody_runs m _ hn.good trivial
  rw [step, sinkIt_eq, he]

/-- One event that ends in group `b`: its log is turned at most once, and a
message is logged. -/
theorem step_refines {zone : Zone} {s : DailySink} {e : Event} (h : Ready a b s)
    (hb : (step a zone s e).currentBasename = b) :
    ∃ ops, SizeLog.messages ops = messages [e] ∧
      (∀ now m, e = .log now m → ∃ t, SizeLog.run (cfg a) ((groupView a b).see s) ops =
        SizeLog.log (cfg a) m t) ∧
      (groupView a b).Next s (SizeLog.run (cfg a) ((groupView a b).see s) ops)
        (step a zone s e) := by
  match e with
  | .restart now =>
      have hgood : (groupView a b).good (start a zone now s.disk) :=
        ⟨h.1.of_fault rfl, hb, fun ho => by cases ho⟩
      exact ⟨[.turn], rfl, (fun _ _ he => by cases he), hgood, rfl, Disk.Frame.tick _ _ _⟩
  | .log now m =>
      obtain ⟨ops, hops, hn⟩ := clock_next h (clock_of_step hb)
      obtain ⟨s', he, hn'⟩ := sinkBody_runs m _ hn.good trivial
      rw [hn.see] at hn'
      have hstep : step a zone s (.log now m) = s' := by
        rw [step, sinkIt_eq, he]
      have hrun : SizeLog.run (cfg a) ((groupView a b).see s) (ops ++ [.log m]) =
          SizeLog.log (cfg a) m (SizeLog.run (cfg a) ((groupView a b).see s) ops) := by
        rw [SizeLog.run_append]
        rfl
      refine ⟨ops ++ [.log m], ?_, fun now' m' he' => ?_, ?_⟩
      · rw [SizeLog.messages_append, hops]
        rfl
      · cases he'
        exact ⟨_, hrun⟩
      · rw [hstep, hrun]
        exact hn.trans hn'

/-- A run all of whose events end in group `b` is a run of its log with the
same messages. -/
theorem run_refines {zone : Zone} {s : DailySink} (h : Ready a b s) (evs : List Event) :
    (∀ done e, done ++ [e] <+: evs → (run a zone s (done ++ [e])).currentBasename = b) →
      ∃ ops, SizeLog.messages ops = messages evs ∧ Ready a b (run a zone s evs) ∧
        (groupView a b).see (run a zone s evs) =
          SizeLog.run (cfg a) ((groupView a b).see s) ops ∧
        (groupView a b).keeps s (run a zone s evs) := by
  induction evs using List.reverseRecOn with
  | nil => exact fun _ => ⟨[], rfl, h, rfl, (groupView a b).keeps_refl s⟩
  | append_singleton evs e ih =>
      intro hstay
      obtain ⟨ops, hops, hready, hsee, hkeeps⟩ := ih fun done e' hd =>
        hstay done e' (hd.trans (List.prefix_append _ _))
      have hb : (step a zone (run a zone s evs) e).currentBasename = b := by
        rw [← run_concat]
        exact hstay evs e (List.prefix_refl _)
      obtain ⟨ops', hops', -, hn⟩ := step_refines hready hb
      rw [hsee, ← SizeLog.run_append, ← run_concat] at hn
      refine ⟨ops ++ ops', ?_, ⟨hn.good.1, fun _ => hn.good.2.2⟩, hn.see,
        (groupView a b).keeps_trans hkeeps hn.keeps⟩
      rw [SizeLog.messages_append, hops, hops', ← messages_append]

/-- A sink is sound in the group it is in, and so it is ready for any. -/
theorem ready_run {zone : Zone} {s : DailySink} (h : Ready a s.currentBasename s)
    (evs : List Event) : Ready a (run a zone s evs).currentBasename (run a zone s evs) := by
  induction evs using List.reverseRecOn with
  | nil => exact h
  | append_singleton evs e ih =>
      rw [run_concat]
      have hready : Ready a (step a zone (run a zone s evs) e).currentBasename
          (run a zone s evs) := ⟨ih.1, fun hb => by rw [← hb]; exact ih.2 rfl⟩
      obtain ⟨_, -, -, hn⟩ := step_refines hready rfl
      exact ⟨hn.good.1, fun _ => hn.good.2.2⟩

end UempPlugin.Ref.DailySink
