import UempPlugin.Lib.Simulation
import UempPlugin.Ref.DailySize

/-!
# Where a message of the daily sink goes

Only the first step of `sink_it_` looks at the clock. What follows leaves the
base name and the rotation time alone, whatever fails, and keeps the sink
anchored: an open sink holds the handle of the base file of its current group,
and that file exists. So a call that returns has put its message at the end of
the base file that the first step chose.
-/

namespace UempPlugin.Ref.DailySink

open UempPlugin.Lib

/-- An open sink holds the handle of its base file, which exists. -/
def Anchored (a : DailyArgs) (s : DailySink) : Prop :=
  s.opened = true →
    s.fd = some (a.basePath s.currentBasename) ∧
      (s.disk.files (a.basePath s.currentBasename)).isSome

/-- From `s` to `s'` the clock was not consulted. -/
structure SameGroup (a : DailyArgs) (s s' : DailySink) : Prop where
  basename : s'.currentBasename = s.currentBasename
  next : s'.nextRotation = s.nextRotation
  anchored : Anchored a s → Anchored a s'

variable {a : DailyArgs}

theorem SameGroup.refl (s : DailySink) : SameGroup a s s := ⟨rfl, rfl, id⟩

theorem SameGroup.trans {s s' s'' : DailySink} (h : SameGroup a s s') (h' : SameGroup a s' s'') :
    SameGroup a s s'' :=
  ⟨h'.basename.trans h.basename, h'.next.trans h.next, fun hs => h'.anchored (h.anchored hs)⟩

/-- A closed sink is anchored. -/
theorem anchored_of_closed {s : DailySink} (h : s.opened = false) : Anchored a s := by
  intro ho
  rw [h] at ho
  cases ho

theorem construct_ok {zone : Zone} {now : Int} {d : Disk Path} {s : DailySink}
    (h : construct a zone now d = .ok s) : s = start a zone now d := by
  rw [construct] at h
  split at h
  · cases h
  · split at h
    · cases h
    · exact (Except.ok.inj h).symm

theorem anchored_start (a : DailyArgs) (zone : Zone) (now : Int) (d : Disk Path) :
    Anchored a (start a zone now d) := anchored_of_closed rfl

/-- A new day closes the sink first. -/
theorem anchored_clock {zone : Zone} {now : Int} {s : DailySink} (h : Anchored a s) :
    Anchored a (rotateIfNeededByTime a zone now s) := by
  rw [rotateIfNeededByTime]
  split
  · exact h
  · exact anchored_of_closed rfl

theorem rotateBySizeChain_same (s : DailySink) : SameGroup a s (rotateBySizeChain a s) := by
  rw [rotateBySizeChain]
  split
  · exact SameGroup.refl s
  · exact ⟨rfl, rfl, fun _ => anchored_of_closed rfl⟩

theorem stat_files (p : Path) (d : Disk Path) : (d.stat p).2.files = d.files := rfl

theorem rotateOnFirstWrite_same (s : DailySink) : SameGroup a s (rotateOnFirstWrite a s) := by
  rw [rotateOnFirstWrite]
  split
  · exact SameGroup.refl s
  · split
    · have hd := stat_files (a.basePath s.currentBasename) s.disk
      cases hs : s.disk.stat (a.basePath s.currentBasename) with
      | mk found d =>
          rw [hs] at hd
          have hstat : SameGroup a s { s with disk := d } := by
            refine ⟨rfl, rfl, fun h ho => ?_⟩
            obtain ⟨hfd, hf⟩ := h ho
            exact ⟨hfd, by rw [← hd] at hf; exact hf⟩
          cases found with
          | true =>
              have hrot := hstat.trans (rotateBySizeChain_same { s with disk := d })
              exact ⟨hrot.basename, hrot.next, hrot.anchored⟩
          | false => exact ⟨rfl, rfl, hstat.anchored⟩
    · exact ⟨rfl, rfl, fun h => h⟩

/-- A file that was opened is there. -/
theorem openLoop_isSome (p : Path) :
    ∀ (n : Nat) (d : Disk Path), (openLoop p n d).1 = true →
      ((openLoop p n d).2.files p).isSome := by
  intro n
  induction n with
  | zero => intro d h; cases h
  | succ n ih =>
      intro d h
      rw [openLoop] at h ⊢
      cases he : (d.mkdirs (parentPath p)).fopen p with
      | mk ok d' =>
          rw [he] at h
          cases ok with
          | false => exact ih d' h
          | true =>
              have hfound := Disk.fopen_isSome (d.mkdirs (parentPath p)) p (by rw [he])
              rw [he] at hfound
              exact hfound

theorem ensureOpenedForWrite_same :
    Leads (SameGroup a) (ensureOpenedForWrite a) := by
  intro s
  rw [ensureOpenedForWrite]
  split
  · exact SameGroup.refl s
  · have hsome := openLoop_isSome (a.basePath s.currentBasename) openTries s.disk
    simp only [openFile]
    cases he : openLoop (a.basePath s.currentBasename) openTries s.disk with
    | mk ok d =>
        rw [he] at hsome
        cases ok with
        | false =>
            next hclosed => exact ⟨rfl, rfl, fun _ ho => absurd ho hclosed⟩
        | true =>
            have hfile := hsome rfl
            have hsize : (fileSize (some (a.basePath s.currentBasename)) d).2.files = d.files := by
              rw [fileSize]
              split <;> rfl
            simp only
            cases hsz : fileSize (some (a.basePath s.currentBasename)) d with
            | mk size d' =>
                rw [hsz] at hsize
                cases size with
                | none => exact ⟨rfl, rfl, fun _ _ => ⟨rfl, by rw [← hsize] at hfile; exact hfile⟩⟩
                | some n => exact ⟨rfl, rfl, fun _ _ => ⟨rfl, by rw [← hsize] at hfile; exact hfile⟩⟩

theorem rotateBeforeWrite_same (msg : Bytes) :
    Leads (SameGroup a) (rotateBeforeWrite a msg) := by
  intro s
  rw [rotateBeforeWrite]
  split
  · exact (rotateBySizeChain_same s).trans (ensureOpenedForWrite_same _)
  · exact SameGroup.refl s

theorem writeMessage_same (msg : Bytes) : Leads (SameGroup a) (writeMessage msg) := by
  intro s
  have hkeeps : Anchored a s → ∀ d, (writeFile s.fd msg s.disk).2 = d →
      s.opened = true → s.fd = some (a.basePath s.currentBasename) ∧
        (d.files (a.basePath s.currentBasename)).isSome := by
    rintro h d rfl ho
    obtain ⟨hfd, hf⟩ := h ho
    refine ⟨hfd, ?_⟩
    rw [hfd]
    exact Disk.fwrite_isSome hf msg
  rw [writeMessage]
  cases hw : writeFile s.fd msg s.disk with
  | mk ok d =>
      rw [hw] at hkeeps
      cases ok with
      | true => exact ⟨rfl, rfl, fun h => hkeeps h d rfl⟩
      | false => exact ⟨rfl, rfl, fun h => hkeeps h d rfl⟩

/-- `sink_it_` after the clock has been consulted. -/
def sinkBody (a : DailyArgs) (msg : Bytes) : EStateM Exn DailySink Unit := do
  modify (rotateOnFirstWrite a)
  ensureOpenedForWrite a
  rotateBeforeWrite a msg
  writeMessage msg

theorem sinkIt_eq (a : DailyArgs) (zone : Zone) (now : Int) (msg : Bytes) (s : DailySink) :
    sinkIt a zone now msg s = sinkBody a msg (rotateIfNeededByTime a zone now s) := rfl

theorem sinkBody_same (msg : Bytes) : Leads (SameGroup a) (sinkBody a msg) :=
  Leads.bind SameGroup.trans (Leads.modify rotateOnFirstWrite_same) fun _ =>
    Leads.bind SameGroup.trans ensureOpenedForWrite_same fun _ =>
      Leads.bind SameGroup.trans (rotateBeforeWrite_same msg) fun _ => writeMessage_same msg

/-! ## A call that returns has written -/

theorem ensureOpenedForWrite_opened {s s' : DailySink}
    (h : ensureOpenedForWrite a s = .ok () s') : s'.opened = true := by
  rw [ensureOpenedForWrite] at h
  split at h
  · next ho =>
      cases h
      exact ho
  · simp only at h
    split at h
    · cases h
    · split at h
      · cases h
        rfl
      · cases h

theorem rotateBeforeWrite_opened {msg : Bytes} {s s' : DailySink} (ho : s.opened = true)
    (h : rotateBeforeWrite a msg s = .ok () s') : s'.opened = true := by
  rw [rotateBeforeWrite] at h
  split at h
  · exact ensureOpenedForWrite_opened h
  · cases h
    exact ho

theorem writeMessage_ends {msg : Bytes} {s s' : DailySink} (hs : Anchored a s)
    (ho : s.opened = true) (h : writeMessage msg s = .ok () s') :
    s'.fd = some (a.basePath s.currentBasename) ∧
      ∃ f, s'.disk.files (a.basePath s.currentBasename) = some f ∧ msg <:+ f.bytes := by
  obtain ⟨hfd, hsome⟩ := hs ho
  obtain ⟨f, hf⟩ := Option.isSome_iff_exists.1 hsome
  rw [writeMessage, hfd] at h
  simp only [writeFile] at h
  split at h
  · next d hw =>
      cases h
      have hd := Disk.fwrite_ok hf (by rw [hw])
      rw [hw] at hd
      exact ⟨rfl, _, hd, List.suffix_append _ _⟩
  · cases h

/-- When `sink_it_` returns, it has written through the handle of the base
file of the group chosen by its first step, and the message ends that file. -/
theorem sinkIt_ends {zone : Zone} {now : Int} {msg : Bytes} {s s' : DailySink}
    (hs : Anchored a (rotateIfNeededByTime a zone now s))
    (h : sinkIt a zone now msg s = .ok () s') :
    s'.fd = some (a.basePath s'.currentBasename) ∧
      ∃ f, s'.disk.files (a.basePath s'.currentBasename) = some f ∧ msg <:+ f.bytes := by
  have hbase := (sinkBody_same msg).ok h
  rw [sinkIt_eq] at h
  obtain ⟨_, s1, h1, h⟩ := bind_ok h
  obtain ⟨_, s2, h2, h⟩ := bind_ok h
  obtain ⟨_, s3, h3, h⟩ := bind_ok h
  have hsame1 : SameGroup a (rotateIfNeededByTime a zone now s) s1 :=
    (Leads.modify rotateOnFirstWrite_same).ok h1
  have hsame2 := hsame1.trans (ensureOpenedForWrite_same.ok h2)
  have hsame3 := hsame2.trans ((rotateBeforeWrite_same msg).ok h3)
  have hopened := rotateBeforeWrite_opened (ensureOpenedForWrite_opened h2) h3
  rw [hbase.basename, ← hsame3.basename]
  exact writeMessage_ends (hsame3.anchored hs) hopened h

end UempPlugin.Ref.DailySink
