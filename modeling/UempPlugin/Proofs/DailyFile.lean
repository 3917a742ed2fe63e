import UempPlugin.Lib.Simulation
import UempPlugin.Proofs.BoundedQueue
import UempPlugin.Proofs.RotatingFile
import UempPlugin.Ref.DailyFile
import UempPlugin.Spec.DatedLog

/-!
# `daily_file_sink` is a log of one file per date

As long as no call fails, the sink's queue is the list of names that the dated
log holds, and its files are the log's. When a name is opened is decided by the
times of the messages and the readings of the clock alone, so a run of the sink
is a run of the log whose turns are known beforehand.

From there on two things follow for all clocks and time zones. Where no name is
opened twice, the last files are kept with all that was written to them. And the
sink deletes the file it writes to exactly when it opens a name again that was
opened as many openings before as it keeps files.
-/

namespace UempPlugin.Ref.DailyFileSink

open UempPlugin.Lib
open UempPlugin.Spec
open CircularQ (Queues queues_construct)

variable {a : DailyFileArgs} {zone : Zone} {s : DailyFileSink} {l : DatedLog Path}

def cfg (a : DailyFileArgs) : DatedCfg where
  maxFiles := a.maxFiles
  truncate := a.truncate

/-- What the files hold. -/
def texts (d : Disk Path) (p : Path) : Option Bytes := (d.files p).map File.bytes

structure Shows (a : DailyFileArgs) (s : DailyFileSink) (l : DatedLog Path) : Prop where
  noFault : s.disk.NoFault
  fd : s.fd = some s.filename
  current : l.current = s.filename
  text : l.text = texts s.disk
  queue : a.maxFiles ≠ 0 → Queues a.maxFiles s.filenamesQ l.held

theorem texts_update {d d' : Disk Path} {p : Path} {f : Option File}
    (h : d'.files = Function.update d.files p f) :
    texts d' = Function.update (texts d) p (f.map File.bytes) := by
  funext q
  simp only [texts, h, Function.update_apply]
  split <;> rfl

/-! ## The calls -/

theorem openWith_eq {d : Disk Path} (h : d.NoFault) (p : Path) :
    ∃ d', openWith a.truncate p d = (true, d') ∧ d'.NoFault ∧
      texts d' = Function.update (texts d) p (some (DatedLog.found (cfg a) (texts d) p)) := by
  rw [openWith]
  cases ht : a.truncate with
  | true =>
      obtain ⟨d', he, hd, hfiles, -⟩ := RotatingSink.truncateLoop_eq h p
      refine ⟨d', by rw [if_pos rfl, he], hd, ?_⟩
      rw [texts_update hfiles, DatedLog.found, if_pos (show (cfg a).truncate = true from ht)]
      rfl
  | false =>
      refine ⟨(openFile p d).2, ?_, h.of_fault (openFile_fault p d), ?_⟩
      · rw [if_neg Bool.false_ne_true, openFile_eq h]
      · have hno : ¬ (cfg a).truncate = true := by
          rw [show (cfg a).truncate = a.truncate from rfl, ht]
          exact Bool.false_ne_true
        rw [texts_update (openFile_files h p), DatedLog.found, if_neg hno, texts]
        cases d.files p <;> rfl

theorem writeMessage_spec (h : Shows a s l) (msg : Bytes) :
    ∃ s', writeMessage msg s = .ok () s' ∧ Shows a s' (l.write msg) ∧
      s'.rotationTp = s.rotationTp := by
  have hwrite : writeFile s.fd msg s.disk = (true, (s.disk.append s.filename msg).tick) := by
    rw [h.fd]
    exact Disk.fwrite_eq h.noFault _ _
  refine ⟨{ s with disk := (s.disk.append s.filename msg).tick }, ?_, ?_, rfl⟩
  · simp only [writeMessage, hwrite]
  · refine ⟨h.noFault.of_fault (by simp), h.fd, h.current, ?_, h.queue⟩
    show (l.write msg).text = texts (s.disk.append s.filename msg)
    rw [DatedLog.write, h.current, h.text]
    cases hf : s.disk.files s.filename with
    | some f =>
        rw [texts_update (Disk.append_files hf msg), texts, hf]
        rfl
    | none =>
        rw [Disk.append, hf]
        simp only [texts, hf, Option.map_none]
        rw [Function.update_eq_self_iff]
        exact (congrArg (Option.map File.bytes) hf).symm

theorem removeIfExists_eq {d : Disk Path} (h : d.NoFault) (p : Path) :
    ∃ d', removeIfExists p d = (true, d') ∧ d'.NoFault ∧
      texts d' = Function.update (texts d) p none := by
  have ht : d.tick.NoFault := h.of_fault rfl
  rw [removeIfExists, Disk.stat_eq h]
  cases hf : d.files p with
  | none =>
      refine ⟨d.tick, rfl, ht, ?_⟩
      show texts d = _
      rw [eq_comm, Function.update_eq_self_iff, texts, hf]
      rfl
  | some f =>
      refine ⟨d.tick.unlink p, ?_, ht.of_fault (Disk.unlink_fault _ _), ?_⟩
      · show ((d.tick.refuses (.unlink p)).isNone, d.tick.unlink p) = _
        rw [ht.refuses]
        rfl
      · rw [texts_update (Disk.unlink_files ht p)]
        rfl

theorem deleteOld_spec (hmax : a.maxFiles ≠ 0) (h : Shows a s l) :
    ∃ s', deleteOld s = .ok () s' ∧ Shows a s' (l.retire (cfg a)) ∧
      s'.rotationTp = s.rotationTp := by
  have hq := h.queue hmax
  by_cases hfull : l.held.length = a.maxFiles
  · obtain ⟨old, rest, hold⟩ : ∃ old rest, l.held = old :: rest :=
      List.exists_cons_of_length_pos (by omega)
    rw [hold] at hq
    have hsplit : dropped a.maxFiles (l.held ++ [l.current]) = [old] ∧
        retained a.maxFiles (l.held ++ [l.current]) = rest ++ [l.current] := by
      have hlen : (rest ++ [l.current]).length = a.maxFiles := by
        rw [← hfull, hold]
        simp
      rw [hold, List.cons_append, (dropped_cons hmax (by omega)).1,
        (dropped_cons hmax (by omega)).2, (retained_of_le (by omega)).1,
        (retained_of_le (by omega)).2]
      exact ⟨rfl, rfl⟩
    obtain ⟨d', he, hd, htexts⟩ := removeIfExists_eq h.noFault old
    refine ⟨{ s with
      filenamesQ := s.filenamesQ.popFront.pushBack s.filename
      disk := d' }, ?_, ?_, rfl⟩
    · have hlen := hold ▸ hfull
      simp only [deleteOld, if_pos (hq.full_iff.2 hlen), hq.front, he]
    · refine ⟨hd, h.fd, h.current, ?_, fun _ => ?_⟩
      · show (l.retire (cfg a)).text = texts d'
        funext p
        rw [htexts, Function.update_apply, ← h.text]
        split
        · next hp =>
            refine DatedLog.retire_text_gone ?_
            rw [show (cfg a).maxFiles = a.maxFiles from rfl, hsplit.1, hp]
            exact List.mem_singleton_self old
        · next hp =>
            refine DatedLog.retire_text_kept ?_
            rw [show (cfg a).maxFiles = a.maxFiles from rfl, hsplit.1]
            exact fun hmem => hp (List.mem_singleton.1 hmem)
      · show Queues a.maxFiles (s.filenamesQ.popFront.pushBack s.filename)
          (retained a.maxFiles (l.held ++ [l.current]))
        have hroom : rest.length < a.maxFiles := by
          rw [← hfull, hold]
          exact Nat.lt_succ_self _
        rw [hsplit.2, h.current]
        exact hq.popFront.pushBack hroom s.filename
  · have hroom : l.held.length < a.maxFiles := Nat.lt_of_le_of_ne hq.length_le hfull
    have hsplit : dropped a.maxFiles (l.held ++ [l.current]) = [] ∧
        retained a.maxFiles (l.held ++ [l.current]) = l.held ++ [l.current] :=
      retained_of_le (by
        rw [List.length_append, List.length_singleton]
        omega)
    refine ⟨{ s with filenamesQ := s.filenamesQ.pushBack s.filename }, ?_, ?_, rfl⟩
    · simp only [deleteOld, if_neg (fun hf => hfull (hq.full_iff.1 hf))]
    · refine ⟨h.noFault, h.fd, h.current, ?_, fun _ => ?_⟩
      · rw [← h.text]
        funext p
        refine DatedLog.retire_text_kept ?_
        rw [show (cfg a).maxFiles = a.maxFiles from rfl, hsplit.1]
        exact List.not_mem_nil
      · show Queues a.maxFiles (s.filenamesQ.pushBack s.filename)
          (retained a.maxFiles (l.held ++ [l.current]))
        rw [hsplit.2, h.current]
        exact hq.pushBack hroom s.filename

theorem rotate_spec (h : Shows a s l) (zone : Zone) (time now : Int) :
    ∃ s', rotate a zone time now s = .ok () s' ∧
      Shows a s' (l.start (cfg a) (a.pathAt zone time)) ∧
      s'.rotationTp = nextRotationTp a zone now := by
  obtain ⟨d', he, hd, htexts⟩ := openWith_eq (a := a) h.noFault (a.pathAt zone time)
  refine ⟨{ s with
    rotationTp := nextRotationTp a zone now
    filename := a.pathAt zone time
    fd := some (a.pathAt zone time)
    disk := d' }, ?_, ⟨hd, rfl, rfl, ?_, h.queue⟩, rfl⟩
  · simp only [rotate, he]
  · rw [DatedLog.start, h.text]
    exact htexts.symm

/-! ## Runs -/

/-- The turn of the log that an event is, and when to rotate next. -/
def turnOf (a : DailyFileArgs) (zone : Zone) (tp : Int) (e : Event) : Turn Path × Int :=
  if e.time ≥ tp then (⟨some (a.pathAt zone e.time), e.msg⟩, nextRotationTp a zone e.now)
  else (⟨none, e.msg⟩, tp)

def turns (a : DailyFileArgs) (zone : Zone) : Int → List Event → List (Turn Path)
  | _, [] => []
  | tp, e :: es => (turnOf a zone tp e).1 :: turns a zone (turnOf a zone tp e).2 es

theorem step_shows (h : Shows a s l) (zone : Zone) (e : Event) :
    Shows a (step a zone s e) (l.turn (cfg a) (turnOf a zone s.rotationTp e).1) ∧
      (step a zone s e).rotationTp = (turnOf a zone s.rotationTp e).2 := by
  have hrun : ∃ s', sinkIt a zone e.time e.now e.msg s = .ok () s' ∧
      Shows a s' (l.turn (cfg a) (turnOf a zone s.rotationTp e).1) ∧
      s'.rotationTp = (turnOf a zone s.rotationTp e).2 := by
    simp only [sinkIt, turnOf]
    split
    · obtain ⟨s₁, he₁, h₁, hnext⟩ := rotate_spec h zone e.time e.now
      obtain ⟨s₂, he₂, h₂, hsame⟩ := writeMessage_spec h₁ e.msg
      rw [bind_of_ok he₁, bind_of_ok he₂]
      by_cases hmax : a.maxFiles = 0
      · refine ⟨s₂, ?_, ⟨h₂.noFault, h₂.fd, h₂.current, ?_, fun hne => absurd hmax hne⟩,
          hsame.trans hnext⟩
        · rw [if_neg (by omega)]
          rfl
        · rw [← h₂.text]
          funext p
          refine DatedLog.retire_text_kept ?_
          rw [show (cfg a).maxFiles = 0 from hmax]
          exact List.not_mem_nil
      · obtain ⟨s₃, he₃, h₃, hsame'⟩ := deleteOld_spec hmax h₂
        rw [if_pos (by omega)]
        exact ⟨s₃, he₃, h₃, hsame'.trans (hsame.trans hnext)⟩
    · exact writeMessage_spec h e.msg
  obtain ⟨s', he, hs'⟩ := hrun
  rw [step, he]
  exact hs'

theorem run_shows (zone : Zone) : ∀ (es : List Event) {s : DailyFileSink} {l : DatedLog Path},
    Shows a s l →
    Shows a (run a zone s es) (l.run (cfg a) (turns a zone s.rotationTp es)) := by
  intro es
  induction es with
  | nil => exact fun h => h
  | cons e es ih =>
      intro s l h
      obtain ⟨hstep, htp⟩ := step_shows h zone e
      have hrest := ih hstep
      rw [htp] at hrest
      exact hrest

/-! ## The constructor -/

/-- The names a sink holds: the one it writes, where it has no queue. -/
def held (a : DailyFileArgs) (s : DailyFileSink) : List Path :=
  if a.maxFiles = 0 then [s.filename] else s.filenamesQ.items

/-- What a sink shows. -/
def log (a : DailyFileArgs) (s : DailyFileSink) : DatedLog Path where
  held := held a s
  current := s.filename
  text := texts s.disk

theorem scanDays_spec (a : DailyFileArgs) (zone : Zone) : ∀ (k : Nat) (now : Int) {d : Disk Path},
    d.NoFault →
    (scanDays a zone k now d).2.NoFault ∧ (scanDays a zone k now d).2.files = d.files ∧
      (scanDays a zone k now d).1.length ≤ k ∧
      ∀ p ∈ (scanDays a zone k now d).1, (d.files p).isSome := by
  intro k
  induction k with
  | zero => exact fun _ _ h => ⟨h, rfl, Nat.le_refl _, fun _ hp => nomatch hp⟩
  | succ k ih =>
      intro now d h
      have ht : d.tick.NoFault := h.of_fault rfl
      rw [scanDays, Disk.stat_eq h]
      cases hf : (d.files (a.pathAt zone now)).isSome with
      | false => exact ⟨ht, rfl, Nat.zero_le _, fun _ hp => nomatch hp⟩
      | true =>
          obtain ⟨hno, hfiles, hlen, hnames⟩ := ih (now - hours 24) ht
          refine ⟨hno, hfiles, Nat.succ_le_succ hlen, fun p hp => ?_⟩
          rcases List.mem_cons.1 hp with rfl | hp
          · exact hf
          · exact hnames p hp

/-- The instant of `now` on the last days, today first. -/
def daysBack : Nat → Int → List Int
  | 0, _ => []
  | m + 1, now => now :: daysBack m (now - hours 24)

theorem scanDays_names (a : DailyFileArgs) (zone : Zone) : ∀ (k : Nat) (now : Int) (d : Disk Path),
    ∃ m, (scanDays a zone k now d).1 = (daysBack m now).map (a.pathAt zone) := by
  intro k
  induction k with
  | zero => exact fun _ _ => ⟨0, rfl⟩
  | succ k ih =>
      intro now d
      rw [scanDays]
      generalize d.stat (a.pathAt zone now) = r
      obtain ⟨found, d⟩ := r
      cases found with
      | false => exact ⟨0, rfl⟩
      | true =>
          obtain ⟨m, hm⟩ := ih (now - hours 24) d
          exact ⟨m + 1, congrArg (a.pathAt zone now :: ·) hm⟩

/-- Today's name comes first, if there is today's file. -/
theorem scanDays_today (zone : Zone) {d : Disk Path} (h : d.NoFault) {k : Nat} (hk : k ≠ 0)
    {now : Int}
    (hf : (d.files (a.pathAt zone now)).isSome) :
    ∃ rest, (scanDays a zone k now d).1 = a.pathAt zone now :: rest := by
  obtain ⟨k, rfl⟩ := Nat.exists_eq_succ_of_ne_zero hk
  rw [scanDays, Disk.stat_eq h, hf]
  exact ⟨_, rfl⟩

/-- A sink that has been constructed: it shows a log, writes to the newest name
and has files under all names. -/
structure Constructed (a : DailyFileArgs) (s : DailyFileSink) : Prop where
  shows : Shows a s (log a s)
  newest : ∃ front, held a s = front ++ [s.filename]
  fits : retained a.maxFiles (held a s) = held a s
  present : ∀ p ∈ held a s, (texts s.disk p).isSome

theorem initFilenamesQ_queue (a : DailyFileArgs) (zone : Zone) (hd : s.disk.NoFault) (now : Int) :
    Queues a.maxFiles (initFilenamesQ a zone now s).filenamesQ
      (scanDays a zone a.maxFiles now s.disk).1.reverse := by
  obtain ⟨-, -, hlen, -⟩ := scanDays_spec a zone a.maxFiles now hd
  have hnew := queues_construct (α := Path) (n := a.maxFiles)
    (Nat.lt_trans (Nat.succ_lt_succ a.maxFiles_lt) (by decide))
  exact hnew.pushAll _ (by simpa using hlen)

/-- `init_filenames_q_` finds the file that was just opened, and the ones of
the days before it. -/
theorem initFilenamesQ_spec {now : Int} (hmax : a.maxFiles ≠ 0) (hd : s.disk.NoFault)
    (hfd : s.fd = some s.filename) (hname : a.pathAt zone now = s.filename)
    (hfile : (s.disk.files s.filename).isSome) : Constructed a (initFilenamesQ a zone now s) := by
  obtain ⟨hno, hfiles, hlen, hnames⟩ := scanDays_spec a zone a.maxFiles now hd
  obtain ⟨rest, hrest⟩ := scanDays_today (a := a) zone hd hmax (hname ▸ hfile)
  have hqueue := initFilenamesQ_queue a zone hd now
  rw [initFilenamesQ] at hqueue ⊢
  generalize scanDays a zone a.maxFiles now s.disk = r at hno hfiles hlen hnames hrest hqueue
  obtain ⟨names, d'⟩ := r
  simp only at hno hfiles hlen hnames hrest hqueue ⊢
  let s' : DailyFileSink :=
    { s with
      filenamesQ := names.reverse.foldl (fun q p => q.pushBack p) (.construct a.maxFiles)
      disk := d' }
  show Constructed a s'
  have hheld : held a s' = names.reverse := by
    rw [held, if_neg hmax, hqueue.items]
  refine ⟨⟨hno, hfd, rfl, rfl, fun _ => ?_⟩, ⟨rest.reverse, ?_⟩, ?_, fun p hp => ?_⟩
  · show Queues a.maxFiles s'.filenamesQ (held a s')
    rw [hheld]
    exact hqueue
  · rw [hheld, hrest, List.reverse_cons, hname]
  · rw [hheld]
    exact (retained_of_le (by simpa using hlen)).2
  · rw [hheld, List.mem_reverse] at hp
    show (Option.map File.bytes (d'.files p)).isSome
    rw [hfiles, Option.isSome_map]
    exact hnames p hp

theorem construct_spec {now nowNext nowInit : Int} {d d' : Disk Path} (hd : d.NoFault)
    (h : construct a zone now nowNext nowInit d = .ok s d')
    (hday : a.pathAt zone nowInit = a.pathAt zone now) :
    Constructed a s ∧ s.rotationTp = nextRotationTp a zone nowNext ∧
      ∃ m, held a s = ((daysBack m nowInit).map (a.pathAt zone)).reverse := by
  obtain ⟨d₁, he, hd₁, htexts⟩ := openWith_eq (a := a) hd (a.pathAt zone now)
  have hsome : (texts d₁ (a.pathAt zone now)).isSome := by
    rw [htexts, Function.update_self]
    rfl
  simp only [construct, he] at h
  split at h
  · cases h
  split at h
  · next hmax =>
      cases h
      obtain ⟨m, hm⟩ := scanDays_names a zone a.maxFiles nowInit d₁
      refine ⟨initFilenamesQ_spec (by omega) hd₁ rfl hday ?_, rfl, m, ?_⟩
      · rw [texts, Option.isSome_map] at hsome
        exact hsome
      · rw [held, if_neg (by omega), (initFilenamesQ_queue a zone hd₁ nowInit).items, hm]
  · next hmax =>
      have hzero : a.maxFiles = 0 := by omega
      cases h
      have hheld : ∀ s : DailyFileSink, held a s = [s.filename] := fun s => if_pos hzero
      refine ⟨⟨⟨hd₁, rfl, rfl, rfl, fun hne => absurd hzero hne⟩, ⟨[], hheld _⟩, ?_, ?_⟩, rfl, 1,
        ?_⟩
      · rw [hzero]
        rfl
      · intro p hp
        rw [hheld] at hp
        rw [List.mem_singleton.1 hp]
        exact hsome
      · rw [hheld, ← hday]
        rfl

/-! ## The account of the text -/

/-- The names a run opens, in order. -/
def openings (a : DailyFileArgs) (zone : Zone) (tp : Int) (es : List Event) : List Path :=
  DatedLog.opened (turns a zone tp es)

theorem turns_bytes (a : DailyFileArgs) (zone : Zone) :
    ∀ (es : List Event) (tp : Int), (turns a zone tp es).map Turn.bytes = es.map Event.msg := by
  intro es
  induction es with
  | nil => exact fun _ => rfl
  | cons e es ih =>
      intro tp
      have hfirst : (turnOf a zone tp e).1.bytes = e.msg := by
        rw [turnOf]
        split <;> rfl
      rw [turns, List.map_cons, List.map_cons, hfirst, ih]

/-- What was written while a name was current, for each name held at first and
each one opened later. -/
def written (a : DailyFileArgs) (zone : Zone) (s : DailyFileSink) (es : List Event) :
    DatedLog.Entries Path :=
  DatedLog.entries (held a s) (turns a zone s.rotationTp es)

theorem Constructed.held_ne_nil (h : Constructed a s) : held a s ≠ [] := by
  obtain ⟨front, hfront⟩ := h.newest
  rw [hfront]
  exact List.concat_ne_nil _ _

/-- In a run in which no name is opened twice, the queue holds the last names,
their files hold what was found in them and what was written to them, and the
files of the older names are gone. All messages are written to one of the names,
in order, and no other file changes. -/
theorem daily_account {now nowNext nowInit : Int} {d d' : Disk Path} (hd : d.NoFault)
    (h : construct a zone now nowNext nowInit d = .ok s d')
    (hday : a.pathAt zone nowInit = a.pathAt zone now) (es : List Event)
    (hfresh : (held a s ++ openings a zone s.rotationTp es).Nodup) :
    let s' := run a zone s es
    let ws := written a zone s es
    ws.map Prod.fst = held a s ++ openings a zone s.rotationTp es ∧
      (ws.map Prod.snd).flatten = (es.map Event.msg).flatten ∧
      (a.maxFiles ≠ 0 → s'.filenamesQ.items = (retained a.maxFiles ws).map Prod.fst) ∧
      (∀ w ∈ retained a.maxFiles ws,
        texts s'.disk w.1 = some (DatedLog.before (cfg a) (log a s) w.1 ++ w.2)) ∧
      (∀ w ∈ dropped a.maxFiles ws, texts s'.disk w.1 = none) ∧
      ∀ p ∉ ws.map Prod.fst, texts s'.disk p = texts s.disk p := by
  intro s' ws
  obtain ⟨hs, -⟩ := construct_spec hd h hday
  have hmap : ((held a s).map fun p => (p, ([] : Bytes))).map Prod.fst = held a s := by
    rw [List.map_map]
    exact List.map_id _
  have hne : (held a s).map (fun p => (p, ([] : Bytes))) ≠ [] := by
    intro hnil
    exact hs.held_ne_nil (List.map_eq_nil_iff.1 hnil)
  have hnames : ws.map Prod.fst = held a s ++ openings a zone s.rotationTp es :=
    (DatedLog.entries_names (turns a zone s.rotationTp es) hne).trans (by rw [hmap]; rfl)
  have hbytes : (ws.map Prod.snd).flatten = (es.map Event.msg).flatten := by
    have hall := DatedLog.entries_bytes (turns a zone s.rotationTp es) hne
    rw [turns_bytes, List.map_map] at hall
    refine hall.trans ?_
    rw [show (Prod.snd ∘ fun p : Path => (p, ([] : Bytes))) = fun _ => [] from rfl, List.map_const',
      List.flatten_replicate_nil, List.nil_append]
  have hself : DatedLog.Accounts (cfg a) (log a s) ((held a s).map fun p => (p, [])) (log a s) :=
    DatedLog.accounts_self hs.newest (List.nodup_append.1 hfresh).1 hs.fits hs.present
  have hall := hself.run (turns a zone s.rotationTp es) (by rw [hmap]; exact hfresh)
  have hshows := run_shows zone es hs.shows
  refine ⟨hnames, hbytes, fun hmax => ?_, ?_, ?_, ?_⟩
  · rw [(hshows.queue hmax).items, hall.held, retained_map]
    rfl
  · rw [← hshows.text]
    exact hall.kept
  · rw [← hshows.text]
    exact hall.gone
  · rw [← hshows.text]
    exact hall.others

/-- A sink for a base name of its own, that keeps some files and rotates in the
night or at half past two in the afternoon. -/
def dailyAt (night : Bool) (maxFiles : Fin (2 ^ 16)) : DailyFileArgs where
  baseFilename := "a.log".toList
  rotationH := if night then 0 else 14
  rotationM := if night then 0 else 30
  maxFiles := maxFiles
  maxFiles_lt := maxFiles.isLt

def noFiles : Disk Path := { files := fun _ => none }

def onJanuary (day : Nat) : Path := "a_1970-01-0".toList ++ toStr day ++ ".log".toList

/-- Constructed at the start of January 2nd. -/
def newYear (night : Bool) (maxFiles : Fin (2 ^ 16)) : DailyFileSink where
  rotationTp := hours (if night then 48 else 38) + (if night then 0 else 1800 * nanos)
  filename := onJanuary 2
  fd := some (onJanuary 2)
  filenamesQ := (CircularQ.construct maxFiles).pushBack (onJanuary 2)
  disk := (scanDays (dailyAt night maxFiles) (Zone.fixed 0) maxFiles (hours 24)
    (openFile (onJanuary 2) noFiles).2).2

theorem construct_night :
    construct (dailyAt true 2) (Zone.fixed 0) (hours 24) (hours 24) (hours 24) noFiles =
      .ok (newYear true 2) (newYear true 2).disk := rfl

/-- A message on each of three days. -/
def threeDays : List Event :=
  [⟨hours 30, hours 30, [1]⟩, ⟨hours 54, hours 54, [2]⟩, ⟨hours 78, hours 78, [3]⟩]

theorem written_threeDays : written (dailyAt true 2) (Zone.fixed 0) (newYear true 2) threeDays =
    [(onJanuary 2, [1]), (onJanuary 3, [2]), (onJanuary 4, [3])] := by
  decide +kernel

theorem daily_account_threeDays :
    let s := run (dailyAt true 2) (Zone.fixed 0) (newYear true 2) threeDays
    s.filenamesQ.items = [onJanuary 3, onJanuary 4] ∧ texts s.disk (onJanuary 2) = none ∧
      texts s.disk (onJanuary 3) = some [2] ∧ texts s.disk (onJanuary 4) = some [3] ∧
      texts s.disk (onJanuary 5) = none := by
  intro s
  obtain ⟨-, -, hq, hkept, hgone, hothers⟩ := daily_account (fun _ _ => rfl) construct_night rfl
    threeDays (by decide +kernel)
  rw [written_threeDays] at hq hkept hgone hothers
  refine ⟨hq (by decide), hgone (onJanuary 2, [1]) ?_, hkept (onJanuary 3, [2]) ?_,
    hkept (onJanuary 4, [3]) ?_, hothers _ ?_⟩
  · exact List.mem_singleton_self _
  · exact List.mem_cons_self
  · exact List.mem_cons_of_mem _ (List.mem_singleton_self _)
  · decide +kernel

/-! ## Whether the file that is written is there -/

/-- What a part of the run shows. -/
theorem prefix_turns (a : DailyFileArgs) (zone : Zone) :
    ∀ (es : List Event) (tp : Int) (ts : List (Turn Path)),
      ts <+: turns a zone tp es ↔ ∃ es', es' <+: es ∧ ts = turns a zone tp es' := by
  intro es
  induction es with
  | nil =>
      intro tp ts
      simp only [turns, List.prefix_nil, exists_eq_left]
  | cons e es ih =>
      intro tp ts
      cases ts with
      | nil => exact ⟨fun _ => ⟨[], List.nil_prefix, rfl⟩, fun _ => List.nil_prefix⟩
      | cons t ts =>
          rw [turns, List.cons_prefix_cons, ih]
          constructor
          · rintro ⟨rfl, es', hes, rfl⟩
            exact ⟨e :: es', List.cons_prefix_cons.2 ⟨rfl, hes⟩, rfl⟩
          · rintro ⟨_ | ⟨e', es'⟩, hes, heq⟩
            · cases heq
            · obtain ⟨rfl, hrest⟩ := List.cons_prefix_cons.1 hes
              obtain ⟨rfl, rfl⟩ := List.cons.inj heq
              exact ⟨rfl, es', hrest, rfl⟩

theorem Constructed.present_iff (hs : Constructed a s) (zone : Zone) (es : List Event) :
    (∀ es', es' <+: es →
      ((run a zone s es').disk.files (run a zone s es').filename).isSome) ↔
      a.maxFiles = 0 ∨
        DatedLog.NoReturn a.maxFiles (held a s ++ openings a zone s.rotationTp es) := by
  have hstart : DatedLog.Present (log a s) := by
    obtain ⟨front, hfront⟩ := hs.newest
    exact hs.present s.filename (hfront ▸ List.mem_append_right _ (List.mem_singleton_self _))
  have hpresent : ∀ es', DatedLog.Present
      ((log a s).run (cfg a) (turns a zone s.rotationTp es')) ↔
        ((run a zone s es').disk.files (run a zone s es').filename).isSome := by
    intro es'
    have hshows := run_shows zone es' hs.shows
    rw [DatedLog.Present, hshows.current, hshows.text, texts, Option.isSome_map]
  refine Iff.trans ?_ (DatedLog.present_run_iff (c := cfg a) (l := log a s) hs.fits
    hstart (turns a zone s.rotationTp es))
  constructor
  · intro hall ts hts
    obtain ⟨es', hes, rfl⟩ := (prefix_turns a zone es _ ts).1 hts
    exact (hpresent es').2 (hall es' hes)
  · intro hall es' hes
    exact (hpresent es').1 (hall _ ((prefix_turns a zone es _ _).2 ⟨es', hes, rfl⟩))

/-- The file a sink writes to is there after every message of a run, exactly
when all files are kept or no name is opened again after `max_files` openings.
Whatever is written while it is not there is lost. -/
theorem daily_present_iff {now nowNext nowInit : Int} {d d' : Disk Path} (hd : d.NoFault)
    (h : construct a zone now nowNext nowInit d = .ok s d')
    (hday : a.pathAt zone nowInit = a.pathAt zone now) (es : List Event) :
    (∀ es', es' <+: es →
      ((run a zone s es').disk.files (run a zone s es').filename).isSome) ↔
      a.maxFiles = 0 ∨
        DatedLog.NoReturn a.maxFiles (held a s ++ openings a zone s.rotationTp es) :=
  (construct_spec hd h hday).1.present_iff zone es

theorem construct_afternoon :
    construct (dailyAt false 1) (Zone.fixed 0) (hours 24) (hours 24) (hours 24) noFiles =
      .ok (newYear false 1) (newYear false 1).disk := rfl

/-- The day after the night, and its afternoon. -/
def oneAfternoon : List Event := [⟨hours 30, hours 30, [1]⟩, ⟨hours 40, hours 40, [2]⟩]

/-- The one file that is kept is opened a second time, and deleted. -/
theorem daily_present_iff_afternoon :
    ¬ ∀ es', es' <+: oneAfternoon →
      ((run (dailyAt false 1) (Zone.fixed 0) (newYear false 1) es').disk.files
        (run (dailyAt false 1) (Zone.fixed 0) (newYear false 1) es').filename).isSome := by
  have hnames : held (dailyAt false 1) (newYear false 1) ++ openings (dailyAt false 1)
      (Zone.fixed 0) (newYear false 1).rotationTp oneAfternoon = [onJanuary 2, onJanuary 2] := by
    decide +kernel
  rw [daily_present_iff (fun _ _ => rfl) construct_afternoon rfl, hnames]
  rintro (h | h)
  · exact absurd h (by decide)
  · exact h 0 (onJanuary 2) rfl rfl

end UempPlugin.Ref.DailyFileSink
