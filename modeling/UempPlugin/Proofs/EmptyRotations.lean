import UempPlugin.Proofs.DailySizes

/-!
# Rotations of an empty file

A rotation for size is meant to put a full file away. The sink compares the
size of the file and the message together with the limit, so a message that
alone is over the limit rotates whatever is there, and that may be a file the
same call has just created. The backups all move up for it, and the oldest is
destroyed.

Whether there is text in the file is decided before: by what is on disk under
the base name of the day, and by the rotation that `rotate_on_open` asks of the
first write.
-/

namespace UempPlugin.Spec.SizeLog

open UempPlugin.Lib

/-- The log has text that the next message would be appended to. -/
def HasText (c : SizeCfg) (t : SizeLog) : Prop :=
  Chain.slotBytes (t.chain 0) ≠ [] ∧ (t.begun = true ∨ c.rotateOnOpen = false)

theorem openLog_slotBytes (t : SizeLog) :
    Chain.slotBytes ((openLog t).chain 0) = Chain.slotBytes (t.chain 0) := by
  cases ho : t.opened with
  | true => rw [openLog_of_opened ho]
  | false =>
      rw [openLog_of_closed ho]
      exact Shelf.create_slotBytes t.toShelf

theorem begin_slotBytes {c : SizeCfg} (hN : 1 ≤ c.maxFiles) (t : SizeLog) :
    Chain.slotBytes ((begin c t).chain 0) ≠ [] ↔ HasText c t := by
  rw [begin, HasText]
  split
  · next hb => simp [hb]
  · next hb =>
    split
    · next hr =>
      have hslot : (rotate c t).chain 0 = none := by
        rw [rotate, if_neg (by omega)]
        exact Shelf.rotate_slot (by omega) _
      simp only [hslot, Chain.slotBytes_none, ne_eq, not_true, false_iff, not_and, not_or]
      exact fun _ => ⟨hb, by rw [hr.1]; decide⟩
    · next hr =>
      simp only [Bool.not_eq_true] at hb
      simp only [hb, Bool.false_eq_true, false_or]
      refine ⟨fun h => ⟨h, ?_⟩, fun h => h.1⟩
      by_contra hopen
      refine hr ⟨by simpa using hopen, by omega, ?_⟩
      cases hc : t.chain 0 with
      | none => exact absurd (by rw [hc]; rfl) h
      | some f => rfl

end UempPlugin.Spec.SizeLog

namespace UempPlugin.Ref.DailySink

open UempPlugin.Lib UempPlugin.Spec

/-- `sink_it_` up to the comparison of sizes. -/
def prepare (a : DailyArgs) (zone : Zone) (now : Int) : EStateM Exn DailySink Unit := do
  modify (rotateIfNeededByTime a zone now)
  modify (rotateOnFirstWrite a)
  ensureOpenedForWrite a

/-- The file that a message moves to `.1` because of its size, as it is there
after the rotation. -/
def movedForSize (a : DailyArgs) (zone : Zone) (now : Int) (msg : Bytes) (s : DailySink) :
    Option File :=
  match prepare a zone now s with
  | .ok _ s' =>
      if a.maxFiles > 0 ∧ s'.currentSizeBytes + msg.length > a.maxSizeBytes then
        (rotateBySizeChain a s').disk.files (a.rotatedPath s'.currentBasename 1)
      else none
  | .error _ _ => none

/-- The file a message goes to has text, which no rotation for `rotate_on_open`
takes away from it first. -/
def FindsText (a : DailyArgs) (zone : Zone) (now : Int) (s : DailySink) : Prop :=
  let s' := rotateIfNeededByTime a zone now s
  Chain.slotBytes (s'.disk.files (a.basePath s'.currentBasename)) ≠ [] ∧
    (s'.rotatedOnOpenDone = true ∨ a.rotateOnOpen = false)

/-- At every message of a run, `P` holds of the state before it. -/
def AtEachMessage (a : DailyArgs) (zone : Zone) (s : DailySink) (evs : List Event)
    (P : Int → Bytes → DailySink → Prop) : Prop :=
  ∀ done now msg rest, evs = done ++ .log now msg :: rest → P now msg (run a zone s done)

variable {a : DailyArgs} {zone : Zone}

theorem sinkIt_prepare (now : Int) (msg : Bytes) :
    sinkIt a zone now msg =
      prepare a zone now >>= fun _ => rotateBeforeWrite a msg >>= fun _ => writeMessage msg := by
  rfl

/-! ## One message -/

variable {now : Int} {msg : Bytes} {s : DailySink}

/-- The stages before the comparison return, with the log begun and open. -/
theorem prepare_next (zone : Zone) (now : Int) (h : Ready a s.currentBasename s) :
    ∃ s', prepare a zone now s = .ok () s' ∧
      (groupView a (rotateIfNeededByTime a zone now s).currentBasename).Next
        (rotateIfNeededByTime a zone now s)
        (SizeLog.openLog (SizeLog.begin (cfg a)
          ((groupView a (rotateIfNeededByTime a zone now s).currentBasename).see
            (rotateIfNeededByTime a zone now s)))) s' := by
  have hready : Ready a (rotateIfNeededByTime a zone now s).currentBasename s :=
    ⟨h.1, fun hb => by rw [← hb]; exact h.2 rfl⟩
  obtain ⟨_, -, hclock⟩ := clock_next hready rfl
  obtain ⟨s', he, hn⟩ := (group_begin_steps.runs.bind (p := fun _ => True)
    (q := fun _ => True) group_open_runs fun _ _ => trivial) _ hclock.good trivial
  exact ⟨s', he, hn⟩

/-- The size chain puts the base file under `.1`. -/
theorem rotateBySizeChain_first (hN : 1 ≤ a.maxFiles) {b : Text} (h : (groupView a b).good s) :
    (rotateBySizeChain a s).disk.files (a.rotatedPath b 1) = s.disk.files (a.basePath b) := by
  have hsee := congrArg (fun t : SizeLog => t.chain 1) (rotate_steps s h).see
  rw [SizeLog.rotate, if_neg (by exact Nat.ne_of_gt hN)] at hsee
  simp only [Shelf.rotate_pos (show (cfg a).maxFiles ≠ 0 from Nat.ne_of_gt hN)] at hsee
  exact hsee.trans (Chain.shift_succ hN _)

/-- What a message moves: the file it found, or one just created. -/
theorem movedForSize_eq (hN : 1 ≤ a.maxFiles) (h : Ready a s.currentBasename s) (zone : Zone)
    (now : Int) (msg : Bytes) :
    ∃ f, movedForSize a zone now msg s =
        (if a.maxSizeBytes < f.bytes.length + msg.length then some f else none) ∧
      (f.bytes ≠ [] ↔ FindsText a zone now s) := by
  obtain ⟨s', he, hn⟩ := prepare_next zone now h
  have hopened : s'.opened = true :=
    (congrArg SizeLog.opened hn.see).trans (SizeLog.openLog_opened _)
  obtain ⟨-, f, hf, hlen⟩ := hn.good.2.2 hopened
  refine ⟨f, ?_, ?_⟩
  · rw [movedForSize, he]
    simp only [hn.good.2.1, rotateBySizeChain_first hN hn.good, hf, hlen]
    by_cases hfull : a.maxSizeBytes < f.bytes.length + msg.length
    · rw [if_pos hfull, if_pos ⟨hN, hfull⟩]
    · rw [if_neg hfull, if_neg fun h => hfull h.2]
  · have hbytes := congrArg (fun t : SizeLog => Chain.slotBytes (t.chain 0)) hn.see
    simp only [SizeLog.openLog_slotBytes] at hbytes
    have hfile : Chain.slotBytes (((groupView a
        (rotateIfNeededByTime a zone now s).currentBasename).see s').chain 0) = f.bytes :=
      congrArg Chain.slotBytes hf
    rw [← hfile, hbytes]
    exact SizeLog.begin_slotBytes hN _

/-- It is what `sink_it_` moves: where there is a file, the step before the write
is the size chain, which puts that file under `.1`, and a new opening; where
there is none, that step does nothing. -/
theorem sinkIt_moves (hN : 1 ≤ a.maxFiles) (h : Ready a s.currentBasename s) (zone : Zone)
    (now : Int) (msg : Bytes) :
    ∃ s', sinkIt a zone now msg s =
        (rotateBeforeWrite a msg >>= fun _ => writeMessage msg) s' ∧
      (∀ f, movedForSize a zone now msg s = some f →
        rotateBeforeWrite a msg s' = ensureOpenedForWrite a (rotateBySizeChain a s') ∧
          (rotateBySizeChain a s').disk.files (a.rotatedPath s'.currentBasename 1) = some f) ∧
      (movedForSize a zone now msg s = none → rotateBeforeWrite a msg s' = .ok () s') := by
  obtain ⟨s', he, hn⟩ := prepare_next zone now h
  refine ⟨s', by rw [sinkIt_prepare, bind_of_ok he], ?_⟩
  have hopened : s'.opened = true :=
    (congrArg SizeLog.opened hn.see).trans (SizeLog.openLog_opened _)
  obtain ⟨-, g, hg, -⟩ := hn.good.2.2 hopened
  rw [movedForSize, he, rotateBeforeWrite]
  by_cases hfull : a.maxFiles > 0 ∧ s'.currentSizeBytes + msg.length > a.maxSizeBytes
  · simp only [if_pos hfull]
    refine ⟨fun f hf => ⟨trivial, hf⟩, fun hnone => ?_⟩
    rw [hn.good.2.1, rotateBySizeChain_first hN hn.good, hg] at hnone
    cases hnone
  · simp only [if_neg hfull]
    refine ⟨fun f hf => ?_, fun _ => trivial⟩
    cases hf

/-- A message moves an empty file exactly if it alone is over the limit and
finds no text. -/
theorem movedForSize_nonempty (hN : 1 ≤ a.maxFiles) (h : Ready a s.currentBasename s) :
    (∀ f, movedForSize a zone now msg s = some f → f.bytes ≠ []) ↔
      msg.length ≤ a.maxSizeBytes ∨ FindsText a zone now s := by
  obtain ⟨f, hmoved, htext⟩ := movedForSize_eq hN h zone now msg
  rw [hmoved, ← htext]
  split
  · next hfull =>
    constructor
    · exact fun hf => .inr (hf f rfl)
    · rintro (hle | hne) g hg
      · cases hg
        rintro hempty
        rw [hempty, List.length_nil] at hfull
        omega
      · cases hg
        exact hne
  · next hfits => exact ⟨fun _ => .inl (by omega), fun _ => nofun⟩

/-! ## Runs -/

/-- Over a run of a sink with backups, every rotation for size moves a file with
text in it exactly if no message that is over the limit by itself finds its
file empty or missing. -/
theorem no_empty_rotation_iff (a : DailyArgs) (zone : Zone) (t0 : Int) (d : Disk Path)
    (hd : d.NoFault) (hN : 1 ≤ a.maxFiles) (s : DailySink) (hs : construct a zone t0 d = .ok s)
    (evs : List Event) :
    AtEachMessage a zone s evs (fun now msg s' =>
        ∀ f, movedForSize a zone now msg s' = some f → f.bytes ≠ []) ↔
      AtEachMessage a zone s evs fun now msg s' =>
        msg.length ≤ a.maxSizeBytes ∨ FindsText a zone now s' := by
  have hready : Ready a s.currentBasename s := by
    rw [construct_ok hs]
    exact ⟨hd.of_fault rfl, fun _ ho => by cases ho⟩
  refine forall_congr' fun done => forall_congr' fun now => forall_congr' fun msg =>
    forall_congr' fun rest => imp_congr_right fun _ => ?_
  exact movedForSize_nonempty hN (ready_run hready done)

/-- Two messages of two bytes: the limit is four. -/
theorem no_empty_rotation_small :
    AtEachMessage small (Zone.fixed 0) (start small (Zone.fixed 0) 0 { files := fun _ => none })
      [.log 1 [1, 2], .log 2 [3, 4]] fun now msg s =>
        ∀ f, movedForSize small (Zone.fixed 0) now msg s = some f → f.bytes ≠ [] := by
  refine (no_empty_rotation_iff small (Zone.fixed 0) 0 { files := fun _ => none } (fun _ _ => rfl)
    (by decide) _ rfl _).2 fun done now msg rest heq => .inl ?_
  have hmem : Event.log now msg ∈ done ++ .log now msg :: rest := by simp
  rw [← heq, List.mem_cons, List.mem_singleton] at hmem
  rcases hmem with h | h
  · cases h
    decide
  · cases h
    decide

/-- A message of five bytes as the first: an empty file goes to `.1`. -/
theorem empty_rotation :
    (movedForSize small (Zone.fixed 0) 1 [1, 2, 3, 4, 5]
        (start small (Zone.fixed 0) 0 { files := fun _ => none })).map File.bytes = some [] ∧
      ¬ AtEachMessage small (Zone.fixed 0)
        (start small (Zone.fixed 0) 0 { files := fun _ => none }) [.log 1 [1, 2, 3, 4, 5]]
        fun now msg s => ∀ f, movedForSize small (Zone.fixed 0) now msg s = some f →
          f.bytes ≠ [] := by
  have hmoved : (movedForSize small (Zone.fixed 0) 1 [1, 2, 3, 4, 5]
      (start small (Zone.fixed 0) 0 { files := fun _ => none })).map File.bytes = some [] := by
    decide +kernel
  refine ⟨hmoved, fun h => ?_⟩
  obtain ⟨f, hf, hempty⟩ := Option.map_eq_some_iff.1 hmoved
  exact h [] 1 [1, 2, 3, 4, 5] [] rfl f hf hempty

end UempPlugin.Ref.DailySink
