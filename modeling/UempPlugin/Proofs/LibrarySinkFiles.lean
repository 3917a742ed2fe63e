import UempPlugin.Proofs.BoundedQueue
import UempPlugin.Proofs.SinkFiles

/-!
# spdlog's file sinks keep to their own files

The same for the three sinks that come with the library. They hold a file open
from their construction on, so the constructors touch files as well; and the
daily sink deletes files whose names it reads off its queue.
-/

namespace UempPlugin.Ref

open UempPlugin.Lib

variable {d e : Disk Path} {p : Path}

/-! ## `basic_file_sink` -/

namespace BasicSink

abbrev host (a : BasicArgs) : Host BasicSink Path where
  disk s := s.disk
  put d s := { s with disk := d }
  names _ p := p = a.filename
  ok s := ∀ p, s.fd = some p → p = a.filename
  disk_put _ _ := rfl
  put_put _ _ _ := rfl
  put_disk _ := rfl
  names_put _ _ := rfl
  ok_put _ _ := rfl

theorem sinkIt_local (a : BasicArgs) (msg : Bytes) : (host a).Runs (sinkIt msg) := by
  refine Host.runs_of fun s e hok (h : Alike _ s.disk e) => ?_
  obtain ⟨b, d', e', hd, he, hgoes⟩ := Goes.pair (writeFile_goes h hok msg)
  show Ends _ (sinkIt msg s) (sinkIt msg { s with disk := e })
  simp only [sinkIt, hd, he]
  cases b with
  | true => exact .ok (Host.Next.of s hgoes rfl hok)
  | false => exact .error (Host.Next.of s hgoes rfl hok)

theorem construct_builds (a : BasicArgs) (h : Alike (fun p => p = a.filename) d e) :
    (host a).Builds (fun p => p = a.filename) d (construct a d) (construct a e) := by
  obtain ⟨b, d', e', hd, he, hgoes⟩ := Goes.pair (openWith_goes h rfl a.truncate)
  simp only [construct, hd, he]
  cases b with
  | true => exact .ok hgoes rfl rfl fun p hp => (Option.some.inj hp).symm
  | false => exact .error hgoes

end BasicSink

/-! ## `rotating_file_sink` -/

/-- The log file and its backups. -/
def RotatingArgs.Files (a : RotatingArgs) (p : Path) : Prop :=
  ∃ k ≤ a.maxFiles, p = calcPath a.baseFilename k

namespace RotatingSink

variable {a : RotatingArgs}

theorem files_base (a : RotatingArgs) : a.Files a.baseFilename := ⟨0, Nat.zero_le _, rfl⟩

abbrev host (a : RotatingArgs) : Host RotatingSink Path where
  disk s := s.disk
  put d s := { s with disk := d }
  names _ := a.Files
  ok s := ∀ p, s.fd = some p → a.Files p
  disk_put _ _ := rfl
  put_put _ _ _ := rfl
  put_disk _ := rfl
  names_put _ _ := rfl
  ok_put _ _ := rfl

theorem reopen_local (a : RotatingArgs) : (host a).Runs (reopen a) := by
  refine Host.runs_of fun s e hok (h : Alike _ s.disk e) => ?_
  obtain ⟨b, d', e', hd, he, hgoes⟩ := Goes.pair (truncateLoop_goes (files_base a) openTries h)
  show Ends _ (reopen a s) (reopen a { s with disk := e })
  simp only [reopen, hd, he]
  cases b with
  | true =>
      refine .ok ?_
      have hopened : (host a).ok { s with fd := some a.baseFilename } := by
        intro p hp
        cases hp
        exact files_base a
      exact Host.Next.of (s := s) { s with fd := some a.baseFilename } hgoes rfl hopened
  | false =>
      refine .error ?_
      have hclosed : (host a).ok { s with fd := none } := fun _ hp => nomatch hp
      exact Host.Next.of (s := s) { s with fd := none } hgoes rfl hclosed

theorem renameFile_goes {O : Path → Prop} {src target : Path} (h : Alike O d e) (hs : O src)
    (ht : O target) :
    (renameFile src target e).1 = (renameFile src target d).1 ∧
      Goes O d (renameFile src target d).2 (renameFile src target e).2 := by
  have hunlink := Goes.unlink h ht
  refine ⟨?_, hunlink.trans (Goes.rename hunlink.toAlike hs ht)⟩
  simp only [renameFile, hunlink.toAlike.refuses, hunlink.files src hs]

theorem moveBackup_local {i : Nat} (hi : i + 1 ≤ a.maxFiles) : (host a).Runs (moveBackup a i) := by
  refine Host.runs_of fun s e hok (h : Alike _ s.disk e) => ?_
  have hsrc : a.Files (calcPath a.baseFilename i) := ⟨i, by omega, rfl⟩
  have htarget : a.Files (calcPath a.baseFilename (i + 1)) := ⟨i + 1, hi, rfl⟩
  show Ends _ (moveBackup a i s) (moveBackup a i { s with disk := e })
  obtain ⟨found, d1, e1, hd, he, h1⟩ := Goes.pair (Goes.stat h hsrc)
  simp only [moveBackup, hd, he]
  cases found with
  | false => exact .ok (Host.Next.of s h1 rfl hok)
  | true =>
      obtain ⟨b, d2, e2, hd, he, h2⟩ := Goes.pair (renameFile_goes h1.toAlike hsrc htarget)
      simp only [hd, he]
      cases b with
      | true => exact .ok (Host.Next.of s (h1.trans h2) rfl hok)
      | false =>
          obtain ⟨b, d3, e3, hd, he, h3⟩ := Goes.pair (renameFile_goes h2.toAlike hsrc htarget)
          simp only [hd, he]
          have hgoes := (h1.trans h2).trans h3
          cases b with
          | true => exact .ok (Host.Next.of s hgoes rfl hok)
          | false =>
              simp only
              have hnext : (host a).Next s { s with disk := d3 } { s with disk := e3 } :=
                Host.Next.of s hgoes rfl hok
              have hends := reopen_local a _ _ hnext.near
              revert hends
              generalize reopen a { s with disk := d3 } = r
              generalize reopen a { s with disk := e3 } = r'
              rintro (⟨hreopen⟩ | ⟨hreopen⟩)
              · exact .error ((hnext.trans hreopen).adjust (fun s => { s with currentSize := 0 })
                  (fun _ _ => rfl) (fun _ => rfl) (fun _ => rfl) id)
              · exact .error (hnext.trans hreopen)

theorem rotateLoop_local : ∀ (i : Nat), i ≤ a.maxFiles → (host a).Runs (rotateLoop a i) := by
  intro i
  induction i with
  | zero =>
      intro _
      refine Host.runs_of fun s e hok h => ?_
      exact .ok (Host.Next.of s (Goes.refl h) rfl hok)
  | succ i ih => exact fun hi => (moveBackup_local hi).bind fun _ => ih (by omega)

theorem rotate_local (a : RotatingArgs) : (host a).Runs (rotate a) := by
  have hclose : (host a).Steps fun s => { s with fd := none } := by
    refine Host.steps_of fun s e hok h => ?_
    have hclosed : (host a).ok { s with fd := none } := fun _ hp => nomatch hp
    exact Host.Next.of { s with fd := none } (Goes.refl h) rfl hclosed
  exact hclose.runs.bind fun _ =>
    (rotateLoop_local a.maxFiles (Nat.le_refl _)).bind fun _ => reopen_local a

theorem makeRoom_local (a : RotatingArgs) (msg : Bytes) : (host a).Runs (makeRoom a msg) := by
  refine Host.runs_of fun s e hok (h : Alike _ s.disk e) => ?_
  show Ends _ (makeRoom a msg s) (makeRoom a msg { s with disk := e })
  simp only [makeRoom]
  split
  · obtain ⟨size, d', e', hd, he, hsize⟩ := Goes.pair (fileSize_goes h hok)
    simp only [hd, he]
    have hnext : (host a).Next s { s with disk := d' } { s with disk := e' } :=
      Host.Next.of s hsize rfl hok
    cases size with
    | none => exact .error hnext
    | some n =>
        simp only
        split
        · have hends := rotate_local a _ _ hnext.near
          revert hends
          generalize rotate a { s with disk := d' } = r
          generalize rotate a { s with disk := e' } = r'
          rintro (⟨hrot⟩ | ⟨hrot⟩)
          · exact .ok (hnext.trans hrot)
          · exact .error (hnext.trans hrot)
        · exact .ok hnext
  · exact .ok (Host.Next.of s (Goes.refl h) rfl hok)

theorem writeMessage_local (a : RotatingArgs) (msg : Bytes) (newSize : Nat) :
    (host a).Runs (writeMessage msg newSize) := by
  refine Host.runs_of fun s e hok (h : Alike _ s.disk e) => ?_
  obtain ⟨b, d', e', hd, he, hgoes⟩ := Goes.pair (writeFile_goes h hok msg)
  show Ends _ (writeMessage msg newSize s) (writeMessage msg newSize { s with disk := e })
  simp only [writeMessage, hd, he]
  cases b with
  | true =>
      refine .ok ?_
      exact Host.Next.of { s with currentSize := newSize } hgoes rfl hok
  | false => exact .error (Host.Next.of s hgoes rfl hok)

theorem sinkIt_local (a : RotatingArgs) (msg : Bytes) : (host a).Runs (sinkIt a msg) :=
  (makeRoom_local a msg).bind fun newSize => writeMessage_local a msg newSize

/-- How `rotateOnOpen` ends. -/
def rotated : EStateM.Result Exn RotatingSink Unit →
    EStateM.Result Exn (Disk Path) RotatingSink
  | .ok _ s => .ok { s with currentSize := 0 } s.disk
  | .error e s => .error e s.disk

theorem rotated_builds {a : RotatingArgs} {s t : RotatingSink}
    {r r' : EStateM.Result Exn RotatingSink Unit} (h : Goes a.Files d s.disk t.disk)
    (hends : Ends ((host a).Next s) r r') :
    (host a).Builds a.Files d (rotated r) (rotated r') := by
  obtain ⟨hrot⟩ | ⟨hrot⟩ := hends
  · have hdone := hrot.adjust (fun s => { s with currentSize := 0 }) (fun _ _ => rfl)
      (fun _ => rfl) (fun _ => rfl) id
    exact .ok (h.trans hdone.goes) hdone.same rfl hdone.ok
  · exact .error (h.trans hrot.goes)

theorem construct_builds (a : RotatingArgs) (h : Alike a.Files d e) :
    (host a).Builds a.Files d (construct a d) (construct a e) := by
  simp only [construct]
  split
  · exact .error (Goes.refl h)
  split
  · exact .error (Goes.refl h)
  obtain ⟨b, d', e', hd, he, hopen⟩ := Goes.pair (openFile_goes h (files_base a))
  rw [hd, he]
  cases b with
  | false => exact .error hopen
  | true =>
      have hfd : ∀ p, some a.baseFilename = some p → a.Files p := by
        intro p hp
        cases hp
        exact files_base a
      obtain ⟨size, d'', e'', hd, he, hsize⟩ := Goes.pair (fileSize_goes hopen.toAlike hfd)
      simp only [hd, he]
      have hgoes := hopen.trans hsize
      cases size with
      | none => exact .error hgoes
      | some n =>
          simp only [rotateOnOpen]
          split
          · let s : RotatingSink := ⟨n, some a.baseFilename, d''⟩
            have hnear : (host a).Near s ((host a).put e'' s) := Host.near_put hfd hgoes.toAlike
            have hends := rotate_local a s ((host a).put e'' s) hnear
            exact rotated_builds (s := s) (t := (host a).put e'' s) hgoes hends
          · exact .ok hgoes rfl rfl hfd

end RotatingSink

/-! ## `daily_file_sink` -/

/-- The files of all days. -/
def DailyFileArgs.Files (a : DailyFileArgs) (zone : Zone) (p : Path) : Prop :=
  ∃ tp, p = a.pathAt zone tp

namespace DailyFileSink

open CircularQ (Queues queues_construct)

variable {a : DailyFileArgs} {zone : Zone}

/-- The handle is at one of the files, and the queue names only such files. -/
structure Own (a : DailyFileArgs) (zone : Zone) (s : DailyFileSink) : Prop where
  fd : ∀ p, s.fd = some p → a.Files zone p
  filename : a.Files zone s.filename
  queue : 0 < a.maxFiles → ∃ ps, Queues a.maxFiles s.filenamesQ ps ∧ ∀ p ∈ ps, a.Files zone p

abbrev host (a : DailyFileArgs) (zone : Zone) : Host DailyFileSink Path where
  disk s := s.disk
  put d s := { s with disk := d }
  names _ := a.Files zone
  ok := Own a zone
  disk_put _ _ := rfl
  put_put _ _ _ := rfl
  put_disk _ := rfl
  names_put _ _ := rfl
  ok_put _ _ :=
    propext ⟨fun h => ⟨h.fd, h.filename, h.queue⟩, fun h => ⟨h.fd, h.filename, h.queue⟩⟩

theorem rotate_local (a : DailyFileArgs) (zone : Zone) (time now : Int) :
    (host a zone).Runs (rotate a zone time now) := by
  refine Host.runs_of fun s e hok (h : Alike _ s.disk e) => ?_
  have hname : a.Files zone (a.pathAt zone time) := ⟨time, rfl⟩
  obtain ⟨b, d', e', hd, he, hgoes⟩ := Goes.pair (openWith_goes h hname a.truncate)
  show Ends _ (rotate a zone time now s) (rotate a zone time now { s with disk := e })
  simp only [rotate, hd, he]
  cases b with
  | false =>
      refine .error ?_
      have hclosed : Own a zone { s with filename := a.pathAt zone time, fd := none } :=
        ⟨fun _ hp => (nomatch hp), hname, hok.queue⟩
      exact Host.Next.of (s := s) { s with filename := a.pathAt zone time, fd := none } hgoes rfl
        hclosed
  | true =>
      refine .ok ?_
      let u : DailyFileSink :=
        { s with
          rotationTp := nextRotationTp a zone now
          filename := a.pathAt zone time
          fd := some (a.pathAt zone time) }
      have hopened : Own a zone u := by
        refine ⟨fun p hp => ?_, hname, hok.queue⟩
        cases hp
        exact hname
      exact Host.Next.of (s := s) u hgoes rfl hopened

theorem writeMessage_local (a : DailyFileArgs) (zone : Zone) (msg : Bytes) :
    (host a zone).Runs (writeMessage msg) := by
  refine Host.runs_of fun s e hok (h : Alike _ s.disk e) => ?_
  obtain ⟨b, d', e', hd, he, hgoes⟩ := Goes.pair (writeFile_goes h hok.fd msg)
  show Ends _ (writeMessage msg s) (writeMessage msg { s with disk := e })
  simp only [writeMessage, hd, he]
  cases b with
  | true => exact .ok (Host.Next.of s hgoes rfl hok)
  | false => exact .error (Host.Next.of s hgoes rfl hok)

theorem removeIfExists_goes {O : Path → Prop} (h : Alike O d e) (hp : O p) :
    (removeIfExists p e).1 = (removeIfExists p d).1 ∧
      Goes O d (removeIfExists p d).2 (removeIfExists p e).2 := by
  obtain ⟨found, d', e', hd, he, hstat⟩ := Goes.pair (Goes.stat h hp)
  rw [removeIfExists, removeIfExists, hd, he]
  cases found with
  | false => exact ⟨rfl, hstat⟩
  | true =>
      have hunlink := Goes.unlink hstat.toAlike hp
      refine ⟨?_, hstat.trans hunlink⟩
      simp only [hstat.toAlike.refuses]

/-- The name that leaves a full queue is one that was put in. -/
theorem deleteOld_local (hmax : 0 < a.maxFiles) : (host a zone).Runs deleteOld := by
  refine Host.runs_of fun s e hok (h : Alike _ s.disk e) => ?_
  obtain ⟨ps, hq, hps⟩ := hok.queue hmax
  show Ends _ (deleteOld s) (deleteOld { s with disk := e })
  simp only [deleteOld]
  split
  · next hfull =>
      have hlen := hq.full_iff.1 hfull
      obtain ⟨old, rest, rfl⟩ : ∃ old rest, ps = old :: rest :=
        List.exists_cons_of_length_pos (hlen ▸ hmax)
      have hold : a.Files zone s.filenamesQ.front := by
        rw [hq.front]
        exact hps old (List.mem_cons_self ..)
      let u : DailyFileSink :=
        { s with filenamesQ := s.filenamesQ.popFront.pushBack s.filename }
      have hown : Own a zone u := by
        refine ⟨hok.fd, hok.filename, fun _ => ⟨rest ++ [s.filename], ?_, fun p hp => ?_⟩⟩
        · rw [List.length_cons] at hlen
          exact hq.popFront.pushBack (by omega) s.filename
        · rcases List.mem_append.1 hp with hp | hp
          · exact hps p (List.mem_cons_of_mem _ hp)
          · rw [List.mem_singleton.1 hp]
            exact hok.filename
      obtain ⟨b, d', e', hd, he, hgoes⟩ := Goes.pair (removeIfExists_goes h hold)
      rw [hd, he]
      cases b with
      | true =>
          refine .ok ?_
          exact Host.Next.of (s := s) u hgoes rfl hown
      | false =>
          refine .error ?_
          exact Host.Next.of (s := s) u hgoes rfl hown
  · next hfull =>
      refine .ok ?_
      let u : DailyFileSink := { s with filenamesQ := s.filenamesQ.pushBack s.filename }
      have hown : Own a zone u := by
        refine ⟨hok.fd, hok.filename, fun _ => ⟨ps ++ [s.filename], ?_, fun p hp => ?_⟩⟩
        · have hroom : ps.length < a.maxFiles :=
            Nat.lt_of_le_of_ne hq.length_le fun heq => hfull (hq.full_iff.2 heq)
          exact hq.pushBack hroom s.filename
        · rcases List.mem_append.1 hp with hp | hp
          · exact hps p hp
          · rw [List.mem_singleton.1 hp]
            exact hok.filename
      exact Host.Next.of (s := s) u (Goes.refl h) rfl hown

theorem sinkIt_local (a : DailyFileArgs) (zone : Zone) (time now : Int) (msg : Bytes) :
    (host a zone).Runs (sinkIt a zone time now msg) := by
  have hturn : (host a zone).Runs (do
      rotate a zone time now
      writeMessage msg
      if a.maxFiles > 0 then deleteOld) := by
    refine (rotate_local a zone time now).bind fun _ =>
      (writeMessage_local a zone msg).bind fun _ => ?_
    split
    · next hmax => exact deleteOld_local hmax
    · refine Host.runs_of fun s e hok h => ?_
      exact .ok (Host.Next.of s (Goes.refl h) rfl hok)
  refine Host.runs_of fun s e hok h => ?_
  show Ends _ (sinkIt a zone time now msg s) (sinkIt a zone time now msg { s with disk := e })
  simp only [sinkIt]
  split
  · exact hturn _ _ (Host.near_put hok h)
  · exact writeMessage_local a zone msg _ _ (Host.near_put hok h)

theorem scanDays_goes : ∀ (k : Nat) (now : Int) {d e : Disk Path}, Alike (a.Files zone) d e →
    (scanDays a zone k now e).1 = (scanDays a zone k now d).1 ∧
      Goes (a.Files zone) d (scanDays a zone k now d).2 (scanDays a zone k now e).2 := by
  intro k
  induction k with
  | zero => exact fun _ _ _ h => ⟨rfl, Goes.refl h⟩
  | succ k ih =>
      intro now d e h
      obtain ⟨found, d', e', hd, he, hstat⟩ := Goes.pair (Goes.stat h ⟨now, rfl⟩)
      rw [scanDays, scanDays, hd, he]
      cases found with
      | false => exact ⟨rfl, hstat⟩
      | true =>
          obtain ⟨hsame, hrest⟩ := ih (now - hours 24) hstat.toAlike
          exact ⟨congrArg (a.pathAt zone now :: ·) hsame, hstat.trans hrest⟩

theorem scanDays_files (a : DailyFileArgs) (zone : Zone) : ∀ (k : Nat) (now : Int) (d : Disk Path),
    (scanDays a zone k now d).1.length ≤ k ∧ ∀ p ∈ (scanDays a zone k now d).1, a.Files zone p := by
  intro k
  induction k with
  | zero => exact fun _ _ => ⟨Nat.le_refl _, fun _ hp => nomatch hp⟩
  | succ k ih =>
      intro now d
      rw [scanDays]
      split
      · exact ⟨Nat.zero_le _, fun _ hp => nomatch hp⟩
      · next d' _ =>
          obtain ⟨hlen, hnames⟩ := ih (now - hours 24) d'
          refine ⟨Nat.succ_le_succ hlen, fun p hp => ?_⟩
          rcases List.mem_cons.1 hp with rfl | hp
          · exact ⟨now, rfl⟩
          · exact hnames p hp

theorem construct_builds (a : DailyFileArgs) (zone : Zone) (now nowNext nowInit : Int)
    (h : Alike (a.Files zone) d e) :
    (host a zone).Builds (a.Files zone) d (construct a zone now nowNext nowInit d)
      (construct a zone now nowNext nowInit e) := by
  have hname : a.Files zone (a.pathAt zone now) := ⟨now, rfl⟩
  have hfd : ∀ p, some (a.pathAt zone now) = some p → a.Files zone p := by
    intro p hp
    cases hp
    exact hname
  simp only [construct]
  split
  · exact .error (Goes.refl h)
  obtain ⟨b, d', e', hd, he, hopen⟩ := Goes.pair (openWith_goes h hname a.truncate)
  rw [hd, he]
  cases b with
  | false => exact .error hopen
  | true =>
      simp only
      split
      · obtain ⟨names, d'', e'', hd, he, hscan⟩ :=
          Goes.pair (scanDays_goes a.maxFiles nowInit hopen.toAlike)
        obtain ⟨hlen, hnames⟩ := scanDays_files a zone a.maxFiles nowInit d'
        rw [hd] at hlen hnames
        simp only [initFilenamesQ, hd, he]
        refine .ok (hopen.trans hscan) rfl rfl ⟨hfd, hname, fun _ => ⟨names.reverse, ?_, ?_⟩⟩
        · have hnew := queues_construct (α := Path) (n := a.maxFiles)
            (Nat.lt_trans (Nat.succ_lt_succ a.maxFiles_lt) (by decide))
          have hall := hnew.pushAll names.reverse (by simpa using hlen)
          rwa [List.nil_append] at hall
        · exact fun p hp => hnames p (List.mem_reverse.1 hp)
      · next hmax => exact .ok hopen rfl rfl ⟨hfd, hname, fun hpos => absurd hpos hmax⟩

end DailyFileSink

end UempPlugin.Ref
