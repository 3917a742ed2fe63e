import UempPlugin.Lib.Locality
import UempPlugin.Ref.FileSinks

/-!
# The sinks of this repository keep to their own files

The names a sink may open, rename or delete are fixed by its arguments. Every
function of a sink looks at and changes files under those names only, whatever
calls fail. The functions that open and write files come first, since sinks of
all kinds share them.
-/

namespace UempPlugin.Ref

open UempPlugin.Lib

variable {O : Path → Prop} {d e : Disk Path} {p : Path}

/-! ## `file_helper` -/

theorem openLoop_goes (hp : O p) : ∀ (n : Nat) {d e : Disk Path}, Alike O d e →
    (openLoop p n e).1 = (openLoop p n d).1 ∧ Goes O d (openLoop p n d).2 (openLoop p n e).2 := by
  intro n
  induction n with
  | zero => exact fun h => ⟨rfl, Goes.refl h⟩
  | succ n ih =>
      intro d e h
      have hdirs : Goes O d (d.mkdirs (parentPath p)) (e.mkdirs (parentPath p)) := Goes.tick h
      obtain ⟨b, d', e', hd, he, hopen⟩ := Goes.pair (Goes.fopen hdirs.toAlike hp)
      rw [openLoop, openLoop, hd, he]
      cases b with
      | true => exact ⟨rfl, hdirs.trans hopen⟩
      | false =>
          obtain ⟨hsame, hrest⟩ := ih hopen.toAlike
          exact ⟨hsame, (hdirs.trans hopen).trans hrest⟩

theorem truncateLoop_goes (hp : O p) : ∀ (n : Nat) {d e : Disk Path}, Alike O d e →
    (RotatingSink.truncateLoop p n e).1 = (RotatingSink.truncateLoop p n d).1 ∧
      Goes O d (RotatingSink.truncateLoop p n d).2 (RotatingSink.truncateLoop p n e).2 := by
  intro n
  induction n with
  | zero => exact fun h => ⟨rfl, Goes.refl h⟩
  | succ n ih =>
      intro d e h
      have hdirs : Goes O d (d.mkdirs (parentPath p)) (e.mkdirs (parentPath p)) := Goes.tick h
      obtain ⟨b, d', e', hd, he, htrunc⟩ := Goes.pair (Goes.truncate hdirs.toAlike hp)
      rw [RotatingSink.truncateLoop, RotatingSink.truncateLoop, hd, he]
      cases b with
      | false =>
          obtain ⟨hsame, hrest⟩ := ih htrunc.toAlike
          exact ⟨hsame, (hdirs.trans htrunc).trans hrest⟩
      | true =>
          obtain ⟨b, d'', e'', hd, he, hopen⟩ := Goes.pair (Goes.fopen htrunc.toAlike hp)
          simp only [hd, he]
          have hboth := (hdirs.trans htrunc).trans hopen
          cases b with
          | true => exact ⟨rfl, hboth⟩
          | false =>
              obtain ⟨hsame, hrest⟩ := ih hopen.toAlike
              exact ⟨hsame, hboth.trans hrest⟩

theorem openFile_goes (h : Alike O d e) (hp : O p) :
    (openFile p e).1 = (openFile p d).1 ∧ Goes O d (openFile p d).2 (openFile p e).2 :=
  openLoop_goes hp openTries h

theorem openWith_goes (h : Alike O d e) (hp : O p) (truncate : Bool) :
    (openWith truncate p e).1 = (openWith truncate p d).1 ∧
      Goes O d (openWith truncate p d).2 (openWith truncate p e).2 := by
  rw [openWith, openWith]
  split
  · exact truncateLoop_goes hp openTries h
  · exact openFile_goes h hp

theorem writeFile_goes (h : Alike O d e) {fd : Option Path} (hfd : ∀ p, fd = some p → O p)
    (b : Bytes) :
    (writeFile fd b e).1 = (writeFile fd b d).1 ∧
      Goes O d (writeFile fd b d).2 (writeFile fd b e).2 := by
  cases fd with
  | none => exact ⟨rfl, Goes.refl h⟩
  | some p => exact Goes.fwrite h (hfd p rfl) b

theorem fileSize_goes (h : Alike O d e) {fd : Option Path} (hfd : ∀ p, fd = some p → O p) :
    (DailySink.fileSize fd e).1 = (DailySink.fileSize fd d).1 ∧
      Goes O d (DailySink.fileSize fd d).2 (DailySink.fileSize fd e).2 := by
  cases fd with
  | none => exact ⟨rfl, Goes.refl h⟩
  | some p =>
      simp only [DailySink.fileSize, h.refuses, h.files p (hfd p rfl)]
      split
      · exact ⟨rfl, Goes.tick h⟩
      · exact ⟨rfl, Goes.tick h⟩

/-! ## `count_rotating_file_mt` -/

/-- The log file and its backups. -/
def CountArgs.Files (a : CountArgs) (p : Path) : Prop :=
  ∃ k ≤ a.maxFiles, p = chainPath a.dir a.stem k

namespace CountSink

variable {a : CountArgs}

theorem files_basePath (a : CountArgs) : a.Files a.basePath := ⟨0, Nat.zero_le _, rfl⟩

theorem files_rotatedPath {i : Nat} (hi : i + 1 ≤ a.maxFiles) : a.Files (a.rotatedPath (i + 1)) :=
  ⟨i + 1, hi, rfl⟩

abbrev host (a : CountArgs) : Host CountSink Path where
  disk s := s.disk
  put d s := { s with disk := d }
  names _ := a.Files
  ok s := ∀ p, s.fd = some p → a.Files p
  disk_put _ _ := rfl
  put_put _ _ _ := rfl
  put_disk _ := rfl
  names_put _ _ := rfl
  ok_put _ _ := rfl

theorem shiftBackups_goes : ∀ (i : Nat), i + 1 ≤ a.maxFiles → ∀ {d e : Disk Path},
    Alike a.Files d e → Goes a.Files d (shiftBackups a i d) (shiftBackups a i e) := by
  intro i
  induction i with
  | zero => exact fun _ _ _ h => Goes.refl h
  | succ i ih =>
      intro hi d e h
      have hmove := Goes.moveOver h (files_rotatedPath (i := i) (by omega)) (files_rotatedPath hi)
      exact hmove.trans (ih (by omega) hmove.toAlike)

theorem rotateFiles_local (a : CountArgs) : (host a).Steps (rotateFiles a) := by
  refine Host.steps_of fun s e hok (h : Alike _ s.disk e) => ?_
  have hclosed : (host a).ok { s with fd := none, opened := false, logCount := 0 } :=
    fun _ hp => nomatch hp
  show (host a).Next s (rotateFiles a s) (rotateFiles a { s with disk := e })
  simp only [rotateFiles]
  split
  · exact Host.Next.of { s with fd := none, opened := false, logCount := 0 } (Goes.refl h) rfl
      hclosed
  · next hmax =>
      have hlast : a.maxFiles - 1 + 1 = a.maxFiles := by omega
      have holdest := Goes.unlink h (files_rotatedPath (i := a.maxFiles - 1) (by omega))
      rw [hlast] at holdest
      have hshift := shiftBackups_goes (a.maxFiles - 1) (by omega) holdest.toAlike
      have hfirst := Goes.moveOver hshift.toAlike (files_basePath a)
        (files_rotatedPath (i := 0) (by omega))
      exact Host.Next.of { s with fd := none, opened := false, logCount := 0 }
        ((holdest.trans hshift).trans hfirst) rfl hclosed

theorem adjustForStrictOnOpen_local (a : CountArgs) :
    (host a).Steps (adjustForStrictOnOpen a) := by
  refine Host.steps_of fun s e hok (h : Alike _ s.disk e) => ?_
  show (host a).Next s (adjustForStrictOnOpen a s) (adjustForStrictOnOpen a { s with disk := e })
  simp only [adjustForStrictOnOpen]
  split
  · exact Host.Next.of { s with logCount := 0 } (Goes.refl h) rfl hok
  · obtain ⟨found, d', e', hd, he, hstat⟩ := Goes.pair (Goes.stat h (files_basePath a))
    rw [hd, he]
    cases found with
    | false => exact Host.Next.of { s with logCount := 0 } hstat rfl hok
    | true =>
        obtain ⟨b, d'', e'', hd, he, hread⟩ :=
          Goes.pair (Goes.fread hstat.toAlike (files_basePath a))
        simp only [hd, he]
        split
        · have hnext : (host a).Next s { s with disk := d'' } { s with disk := e'' } :=
            Host.Next.of s (hstat.trans hread) rfl hok
          have hrot := hnext.trans (rotateFiles_local a _ _ hnext.near)
          exact hrot.adjust (fun s => { s with logCount := 0 }) (fun _ _ => rfl) (fun _ => rfl)
            (fun _ => rfl) id
        · exact Host.Next.of { s with logCount := countLinesInFile (readChunks kBuf b.length b) }
            (hstat.trans hread) rfl hok

/-- What `ensureOpenedForWrite` does after the adjustment. -/
def openBase (a : CountArgs) : EStateM Exn CountSink Unit := fun s =>
  match openFile a.basePath s.disk with
  | (true, d) => .ok () { s with fd := some a.basePath, opened := true, disk := d }
  | (false, d) => .error (openFailed a.basePath) { s with fd := none, disk := d }

theorem openBase_local (a : CountArgs) : (host a).Runs (openBase a) := by
  refine Host.runs_of fun s e hok (h : Alike _ s.disk e) => ?_
  obtain ⟨b, d', e', hd, he, hgoes⟩ := Goes.pair (openFile_goes h (files_basePath a))
  show Ends _ (openBase a s) (openBase a { s with disk := e })
  simp only [openBase, hd, he]
  cases b with
  | true =>
      refine .ok ?_
      have hopened : (host a).ok { s with fd := some a.basePath, opened := true } := by
        intro p hp
        cases hp
        exact files_basePath a
      exact Host.Next.of { s with fd := some a.basePath, opened := true } hgoes rfl hopened
  | false =>
      refine .error ?_
      have hclosed : (host a).ok { s with fd := none } := fun _ hp => nomatch hp
      exact Host.Next.of { s with fd := none } hgoes rfl hclosed

theorem ensureOpenedForWrite_local (a : CountArgs) : (host a).Runs (ensureOpenedForWrite a) := by
  refine Host.runs_of fun s e hok h => ?_
  show Ends _ (ensureOpenedForWrite a s) (ensureOpenedForWrite a { s with disk := e })
  simp only [ensureOpenedForWrite]
  split
  · exact .ok (Host.Next.of s (Goes.refl h) rfl hok)
  · exact (openBase_local a).after (adjustForStrictOnOpen_local a) s _ (Host.near_put hok h)

theorem rotateOnFirstWrite_local (a : CountArgs) : (host a).Steps (rotateOnFirstWrite a) := by
  refine Host.steps_of fun s e hok (h : Alike _ s.disk e) => ?_
  show (host a).Next s (rotateOnFirstWrite a s) (rotateOnFirstWrite a { s with disk := e })
  simp only [rotateOnFirstWrite]
  split
  · exact Host.Next.of s (Goes.refl h) rfl hok
  · split
    · obtain ⟨found, d', e', hd, he, hstat⟩ := Goes.pair (Goes.stat h (files_basePath a))
      rw [hd, he]
      cases found with
      | false => exact Host.Next.of { s with rotatedOnOpenDone := true } hstat rfl hok
      | true =>
          have hnext : (host a).Next s { s with disk := d' } { s with disk := e' } :=
            Host.Next.of s hstat rfl hok
          have hrot := hnext.trans (rotateFiles_local a _ _ hnext.near)
          exact hrot.adjust (fun s => { s with rotatedOnOpenDone := true }) (fun _ _ => rfl)
            (fun _ => rfl) (fun _ => rfl) id
    · exact Host.Next.of { s with rotatedOnOpenDone := true } (Goes.refl h) rfl hok

theorem rotateBeforeOpen_local (a : CountArgs) : (host a).Runs (rotateBeforeOpen a) := by
  refine Host.runs_of fun s e hok h => ?_
  show Ends _ (rotateBeforeOpen a s) (rotateBeforeOpen a { s with disk := e })
  simp only [rotateBeforeOpen]
  split
  · split
    · exact (ensureOpenedForWrite_local a).after (rotateFiles_local a) s _ (Host.near_put hok h)
    · refine .ok ?_
      exact Host.Next.of { s with logCount := a.maxCount } (Goes.refl h) rfl hok
  · exact .ok (Host.Next.of s (Goes.refl h) rfl hok)

theorem rotateAfterOpen_local (a : CountArgs) : (host a).Runs (rotateAfterOpen a) := by
  refine Host.runs_of fun s e hok h => ?_
  show Ends _ (rotateAfterOpen a s) (rotateAfterOpen a { s with disk := e })
  simp only [rotateAfterOpen]
  split
  · exact (ensureOpenedForWrite_local a).after (rotateFiles_local a) s _ (Host.near_put hok h)
  · exact .ok (Host.Next.of s (Goes.refl h) rfl hok)

theorem writeMessage_local (a : CountArgs) (msg : Bytes) : (host a).Runs (writeMessage msg) := by
  refine Host.runs_of fun s e hok (h : Alike _ s.disk e) => ?_
  obtain ⟨b, d', e', hd, he, hgoes⟩ := Goes.pair (writeFile_goes h hok msg)
  show Ends _ (writeMessage msg s) (writeMessage msg { s with disk := e })
  simp only [writeMessage, hd, he]
  cases b with
  | true =>
      refine .ok ?_
      exact Host.Next.of { s with logCount := s.logCount + 1 } hgoes rfl hok
  | false => exact .error (Host.Next.of s hgoes rfl hok)

theorem rotateAfterWrite_local (a : CountArgs) : (host a).Steps (rotateAfterWrite a) := by
  refine Host.steps_of fun s e hok h => ?_
  show (host a).Next s (rotateAfterWrite a s) (rotateAfterWrite a { s with disk := e })
  simp only [rotateAfterWrite]
  split
  · exact rotateFiles_local a s _ (Host.near_put hok h)
  · exact Host.Next.of s (Goes.refl h) rfl hok

theorem sinkIt_local (a : CountArgs) (msg : Bytes) : (host a).Runs (sinkIt a msg) :=
  (rotateOnFirstWrite_local a).runs.bind fun _ =>
    (rotateBeforeOpen_local a).bind fun _ =>
      (ensureOpenedForWrite_local a).bind fun _ =>
        (rotateAfterOpen_local a).bind fun _ =>
          (writeMessage_local a msg).bind fun _ => (rotateAfterWrite_local a).runs

end CountSink

/-! ## `daily_size_rotating_file_mt` -/

/-- The log file and the backups of every group. -/
def DailyArgs.Files (a : DailyArgs) (zone : Zone) (p : Path) : Prop :=
  ∃ t, ∃ k ≤ a.maxFiles, p = chainPath a.dir (a.basenameAt zone t) k

namespace DailySink

variable {a : DailyArgs} {zone : Zone}

theorem files_basePath {basename : Text} (hb : ∃ t, basename = a.basenameAt zone t) :
    a.Files zone (a.basePath basename) := by
  obtain ⟨t, rfl⟩ := hb
  exact ⟨t, 0, Nat.zero_le _, rfl⟩

theorem files_rotatedPath {basename : Text} (hb : ∃ t, basename = a.basenameAt zone t) {i : Nat}
    (hi : i + 1 ≤ a.maxFiles) : a.Files zone (a.rotatedPath basename (i + 1)) := by
  obtain ⟨t, rfl⟩ := hb
  exact ⟨t, i + 1, hi, rfl⟩

/-- The group is that of some time, and the handle is at one of the files. -/
structure Own (a : DailyArgs) (zone : Zone) (s : DailySink) : Prop where
  basename : ∃ t, s.currentBasename = a.basenameAt zone t
  fd : ∀ p, s.fd = some p → a.Files zone p

abbrev host (a : DailyArgs) (zone : Zone) : Host DailySink Path where
  disk s := s.disk
  put d s := { s with disk := d }
  names _ := a.Files zone
  ok := Own a zone
  disk_put _ _ := rfl
  put_put _ _ _ := rfl
  put_disk _ := rfl
  names_put _ _ := rfl
  ok_put _ _ := propext ⟨fun h => ⟨h.basename, h.fd⟩, fun h => ⟨h.basename, h.fd⟩⟩

theorem Own.closed {s : DailySink} (h : Own a zone s) : Own a zone (closeFile s) :=
  ⟨h.basename, fun _ hp => nomatch hp⟩

theorem shiftChain_goes {basename : Text} (hb : ∃ t, basename = a.basenameAt zone t) :
    ∀ (i : Nat), i ≤ a.maxFiles → ∀ {d e : Disk Path}, Alike (a.Files zone) d e →
      Goes (a.Files zone) d (shiftChain a basename i d) (shiftChain a basename i e)
  | 0, _, _, _, h => Goes.refl h
  | 1, _, _, _, h => Goes.refl h
  | i + 2, hi, d, e, h => by
      have hmove := Goes.moveOver h (files_rotatedPath hb (i := i) (by omega))
        (files_rotatedPath hb hi)
      exact hmove.trans (shiftChain_goes hb (i + 1) (by omega) hmove.toAlike)

theorem rotateIfNeededByTime_local (a : DailyArgs) (zone : Zone) (now : Int) :
    (host a zone).Steps (rotateIfNeededByTime a zone now) := by
  refine Host.steps_of fun s e hok h => ?_
  show (host a zone).Next s (rotateIfNeededByTime a zone now s)
    (rotateIfNeededByTime a zone now { s with disk := e })
  simp only [rotateIfNeededByTime]
  split
  · exact Host.Next.of s (Goes.refl h) rfl hok
  · let next := computeNextRotation a zone now
    let u : DailySink :=
      { closeFile s with
        currentBasename := a.basenameAt zone now
        nextRotation := catchUp now ((now - next).toNat + 1) next
        rotatedOnOpenDone := false }
    have hnew : Own a zone u := ⟨⟨now, rfl⟩, fun _ hp => nomatch hp⟩
    exact Host.Next.of u (Goes.refl h) rfl hnew

theorem rotateBySizeChain_local (a : DailyArgs) (zone : Zone) :
    (host a zone).Steps (rotateBySizeChain a) := by
  refine Host.steps_of fun s e hok (h : Alike _ s.disk e) => ?_
  show (host a zone).Next s (rotateBySizeChain a s) (rotateBySizeChain a { s with disk := e })
  simp only [rotateBySizeChain]
  split
  · exact Host.Next.of s (Goes.refl h) rfl hok
  · next hmax =>
      have hb := hok.basename
      have hlast : a.maxFiles - 1 + 1 = a.maxFiles := by omega
      have holdest := Goes.unlink h (files_rotatedPath hb (i := a.maxFiles - 1) (by omega))
      rw [hlast] at holdest
      have hshift := shiftChain_goes hb a.maxFiles (Nat.le_refl _) holdest.toAlike
      have hfirst := Goes.moveOver hshift.toAlike (files_basePath hb)
        (files_rotatedPath hb (i := 0) (by omega))
      exact Host.Next.of (closeFile s) ((holdest.trans hshift).trans hfirst) rfl hok.closed

theorem ensureOpenedForWrite_local (a : DailyArgs) (zone : Zone) :
    (host a zone).Runs (ensureOpenedForWrite a) := by
  refine Host.runs_of fun s e hok (h : Alike _ s.disk e) => ?_
  show Ends _ (ensureOpenedForWrite a s) (ensureOpenedForWrite a { s with disk := e })
  simp only [ensureOpenedForWrite]
  split
  · exact .ok (Host.Next.of s (Goes.refl h) rfl hok)
  · have hbase := files_basePath hok.basename
    obtain ⟨b, d', e', hd, he, hopen⟩ := Goes.pair (openFile_goes h hbase)
    rw [hd, he]
    cases b with
    | false =>
        refine .error ?_
        have hclosed : Own a zone { s with fd := none } := ⟨hok.basename, fun _ hp => nomatch hp⟩
        exact Host.Next.of { s with fd := none } hopen rfl hclosed
    | true =>
        have hfd : ∀ p, some (a.basePath s.currentBasename) = some p → a.Files zone p := by
          intro p hp
          cases hp
          exact hbase
        have hopened (n : Nat) : Own a zone
            { s with
              fd := some (a.basePath s.currentBasename), opened := true, currentSizeBytes := n } :=
          ⟨hok.basename, hfd⟩
        obtain ⟨size, d'', e'', hd, he, hsize⟩ := Goes.pair (fileSize_goes hopen.toAlike hfd)
        simp only [hd, he]
        cases size with
        | some n =>
            refine .ok ?_
            exact Host.Next.of
              { s with
                fd := some (a.basePath s.currentBasename), opened := true, currentSizeBytes := n }
              (hopen.trans hsize) rfl (hopened n)
        | none =>
            refine .error ?_
            exact Host.Next.of
              { s with fd := some (a.basePath s.currentBasename), opened := true }
              (hopen.trans hsize) rfl (hopened s.currentSizeBytes)

theorem rotateOnFirstWrite_local (a : DailyArgs) (zone : Zone) :
    (host a zone).Steps (rotateOnFirstWrite a) := by
  refine Host.steps_of fun s e hok (h : Alike _ s.disk e) => ?_
  have hdone : Own a zone { s with rotatedOnOpenDone := true } := ⟨hok.basename, hok.fd⟩
  show (host a zone).Next s (rotateOnFirstWrite a s) (rotateOnFirstWrite a { s with disk := e })
  simp only [rotateOnFirstWrite]
  split
  · exact Host.Next.of s (Goes.refl h) rfl hok
  · split
    · obtain ⟨found, d', e', hd, he, hstat⟩ :=
        Goes.pair (Goes.stat h (files_basePath hok.basename))
      rw [hd, he]
      cases found with
      | false => exact Host.Next.of { s with rotatedOnOpenDone := true } hstat rfl hdone
      | true =>
          have hnext : (host a zone).Next s { s with disk := d' } { s with disk := e' } :=
            Host.Next.of s hstat rfl hok
          have hrot := hnext.trans (rotateBySizeChain_local a zone _ _ hnext.near)
          exact hrot.adjust (fun s => { s with rotatedOnOpenDone := true }) (fun _ _ => rfl)
            (fun _ => rfl) (fun _ => rfl) fun hown => ⟨hown.basename, hown.fd⟩
    · exact Host.Next.of { s with rotatedOnOpenDone := true } (Goes.refl h) rfl hdone

theorem rotateBeforeWrite_local (a : DailyArgs) (zone : Zone) (msg : Bytes) :
    (host a zone).Runs (rotateBeforeWrite a msg) := by
  refine Host.runs_of fun s e hok h => ?_
  show Ends _ (rotateBeforeWrite a msg s) (rotateBeforeWrite a msg { s with disk := e })
  simp only [rotateBeforeWrite]
  split
  · exact (ensureOpenedForWrite_local a zone).after (rotateBySizeChain_local a zone) s _
      (Host.near_put hok h)
  · exact .ok (Host.Next.of s (Goes.refl h) rfl hok)

theorem writeMessage_local (a : DailyArgs) (zone : Zone) (msg : Bytes) :
    (host a zone).Runs (writeMessage msg) := by
  refine Host.runs_of fun s e hok (h : Alike _ s.disk e) => ?_
  obtain ⟨b, d', e', hd, he, hgoes⟩ := Goes.pair (writeFile_goes h hok.fd msg)
  show Ends _ (writeMessage msg s) (writeMessage msg { s with disk := e })
  simp only [writeMessage, hd, he]
  cases b with
  | true =>
      refine .ok ?_
      have hown : Own a zone { s with currentSizeBytes := s.currentSizeBytes + msg.length } :=
        ⟨hok.basename, hok.fd⟩
      exact Host.Next.of { s with currentSizeBytes := s.currentSizeBytes + msg.length } hgoes rfl
        hown
  | false => exact .error (Host.Next.of s hgoes rfl hok)

theorem sinkIt_local (a : DailyArgs) (zone : Zone) (now : Int) (msg : Bytes) :
    (host a zone).Runs (sinkIt a zone now msg) :=
  (rotateIfNeededByTime_local a zone now).runs.bind fun _ =>
    (rotateOnFirstWrite_local a zone).runs.bind fun _ =>
      (ensureOpenedForWrite_local a zone).bind fun _ =>
        (rotateBeforeWrite_local a zone msg).bind fun _ => writeMessage_local a zone msg

end DailySink

end UempPlugin.Ref
