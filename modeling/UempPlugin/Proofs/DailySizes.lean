import UempPlugin.Proofs.DailyGroup

/-!
# The files of one date group

What a group of the daily sink holds after a message: the base file exists and
ends with that message, the chain's text is accounted for, and with backups no
file the sink has written exceeds the limit, unless it consists of one message
alone.

The last part is an invariant of files that have been written to. A file found
on disk may be of any size, and a message is appended to it only if it still
fits; otherwise the file is rotated away as it was found.
-/

namespace UempPlugin.Spec.SizeLog

open UempPlugin.Lib

variable (c : SizeCfg)

/-! ## The account of the text -/

def Owes (b : Bytes) (t t' : SizeLog) : Prop := Shelf.Owes c.maxFiles b t.toShelf t'.toShelf

theorem Owes.refl (t : SizeLog) : Owes c [] t t := Shelf.Owes.refl _ _

theorem owes_rotate (t : SizeLog) : Owes c [] t (rotate c t) := by
  rw [rotate]
  split
  · exact Owes.refl c t
  · exact Shelf.owes_rotate _ _

theorem owes_openLog (t : SizeLog) : Owes c [] t (openLog t) := by
  cases ho : t.opened with
  | true =>
      rw [openLog_of_opened ho]
      exact Owes.refl c t
  | false =>
      rw [openLog_of_closed ho]
      exact Shelf.owes_create _ _

theorem owes_begin (t : SizeLog) : Owes c [] t (begin c t) := by
  rw [begin]
  split
  · exact Owes.refl c t
  · split
    · exact owes_rotate c t
    · exact Owes.refl c t

theorem owes_makeRoom (b : Bytes) (t : SizeLog) : Owes c [] t (makeRoom c b t) := by
  rw [makeRoom]
  split
  · exact Shelf.Owes.trans (owes_rotate c t) (owes_openLog c _)
  · exact Owes.refl c t

theorem owes_log (b : Bytes) (t : SizeLog) : Owes c b t (log c b t) := by
  have hopen := Shelf.Owes.trans (owes_begin c t) (owes_openLog c _)
  have hroom := hopen.trans (owes_makeRoom c b _)
  exact hroom.trans (Shelf.owes_append c.maxFiles b (makeRoom c b (openLog (begin c t))).toShelf)

theorem owes_run : ∀ (ops : List Op) (t : SizeLog),
    Owes c (messages ops).flatten t (run c t ops) := by
  intro ops
  induction ops with
  | nil => exact Owes.refl c
  | cons op ops ih =>
      intro t
      rw [messages_cons, List.flatten_append]
      refine Shelf.Owes.trans ?_ (ih _)
      match op with
      | .log b =>
          rw [show (messages [.log b]).flatten = b from List.append_nil b]
          exact owes_log c b t
      | .turn => exact Owes.refl c t

/-! ## The size of the files written -/

/-- A file the log has written is within the limit or is one of the messages. -/
def Fair (ms : List Bytes) (f : File) : Prop :=
  f.written = true → f.bytes.length ≤ c.maxSize ∨ f.bytes ∈ ms

variable {c} {t : SizeLog} {ms : List Bytes}

theorem fair_empty : Fair c ms { bytes := [] } := fun h => by cases h

theorem fair_rotate (h : t.All (Fair c ms)) : (rotate c t).All (Fair c ms) := by
  rw [rotate]
  split
  · exact h
  · exact Shelf.all_rotate h

theorem fair_openLog (h : t.All (Fair c ms)) : (openLog t).All (Fair c ms) := by
  cases ho : t.opened with
  | true => rwa [openLog_of_opened ho]
  | false =>
      rw [openLog_of_closed ho]
      exact Shelf.all_create h fair_empty

theorem fair_begin (h : t.All (Fair c ms)) : (begin c t).All (Fair c ms) := by
  rw [begin]
  split
  · exact h
  · split
    · exact fair_rotate h
    · exact h

theorem fair_makeRoom (b : Bytes) (h : t.All (Fair c ms)) : (makeRoom c b t).All (Fair c ms) := by
  rw [makeRoom]
  split
  · exact fair_openLog (fair_rotate h)
  · exact h

/-- After making room the message fits, or there is nothing else. -/
theorem makeRoom_size (hN : 1 ≤ c.maxFiles) (b : Bytes) (t : SizeLog) :
    (makeRoom c b t).size + b.length ≤ c.maxSize ∨
      Chain.slotBytes ((makeRoom c b t).chain 0) = [] := by
  rw [makeRoom]
  split
  · refine .inr ?_
    have hslot : (rotate c t).chain 0 = none := by
      rw [rotate, if_neg (by omega)]
      exact Shelf.rotate_slot (by omega) _
    have hclosed : (rotate c t).opened = false := by
      rw [rotate, if_neg (by omega)]
    rw [openLog_of_closed hclosed]
    exact (Shelf.create_slotBytes _).trans (congrArg Chain.slotBytes hslot)
  · next h =>
      refine .inl ?_
      have := not_and.1 h (by omega)
      omega

/-- The current file after a message. -/
theorem log_zero (c : SizeCfg) (b : Bytes) (t : SizeLog) :
    ∃ f, (log c b t).chain 0 = some f ∧ b <:+ f.bytes ∧
      (1 ≤ c.maxFiles → f.bytes.length ≤ c.maxSize ∨ f.bytes = b) := by
  refine ⟨_, Shelf.append_zero b _, List.suffix_append _ _, fun hN => ?_⟩
  rcases makeRoom_size hN b (openLog (begin c t)) with h | h
  · refine .inl ?_
    rw [size] at h
    simp only [List.length_append]
    exact h
  · refine .inr ?_
    simp only [h]
    rfl

theorem fair_log (hN : 1 ≤ c.maxFiles) (b : Bytes) (h : t.All (Fair c ms)) :
    (log c b t).All (Fair c (ms ++ [b])) := by
  obtain ⟨f, hf, -, hsize⟩ := log_zero c b t
  have hzero := Shelf.append_zero b (makeRoom c b (openLog (begin c t))).toShelf
  have hmore : (makeRoom c b (openLog (begin c t))).All (Fair c (ms ++ [b])) :=
    fun k g hg hw => (fair_makeRoom b (fair_openLog (fair_begin h)) k g hg hw).imp_right
      (List.mem_append_left _)
  refine Shelf.all_append hmore fun _ => ?_
  have heq := hf.symm.trans hzero
  injection heq with heq
  rw [← heq]
  exact (hsize hN).imp_right fun hb => by rw [hb]; exact List.mem_append_right _ (by simp)

theorem fair_run (hN : 1 ≤ c.maxFiles) :
    ∀ (ops : List Op) {t : SizeLog} {ms : List Bytes}, t.All (Fair c ms) →
      (run c t ops).All (Fair c (ms ++ messages ops)) := by
  intro ops
  induction ops with
  | nil =>
      intro t ms h
      rw [messages, List.append_nil]
      exact h
  | cons op ops ih =>
      intro t ms h
      rw [messages_cons, ← List.append_assoc]
      refine ih ?_
      cases op with
      | log b => exact fair_log hN b h
      | turn =>
          rw [messages, messages, List.append_nil]
          exact h

end UempPlugin.Spec.SizeLog

namespace UempPlugin.Ref.DailySink

open UempPlugin.Lib UempPlugin.Spec

/-- What group `b` holds once the sink, starting on the disk `d`, has written
the messages `ms` and `m` last: the base file exists and ends with `m`; the
text is the initial text and all messages, less whole files destroyed at the
front, none without backups; and with backups the base file is within the
limit or is `m` alone, and every backup the sink has written to is within the
limit or is one of the messages. -/
structure GroupFiles (a : DailyArgs) (b : Text) (d : Disk Path) (ms : List Bytes) (m : Bytes)
    (s : DailySink) : Prop where
  base : ∃ f, s.disk.files (a.basePath b) = some f ∧ m <:+ f.bytes
  text : ∃ dropped : List File,
    s.disk.lost = d.lost ++ dropped ∧
      Chain.content a.maxFiles (group a b d) ++ ms.flatten =
        (dropped.map File.bytes).flatten ++ Chain.content a.maxFiles (group a b s.disk) ∧
      (a.maxFiles = 0 → dropped = [])
  baseSize : 1 ≤ a.maxFiles → ∀ f, s.disk.files (a.basePath b) = some f →
    f.bytes.length ≤ a.maxSizeBytes ∨ f.bytes = m
  backupSize : 1 ≤ a.maxFiles → ∀ k f, s.disk.files (a.rotatedPath b (k + 1)) = some f →
    f.written = true → f.bytes.length ≤ a.maxSizeBytes ∨ f.bytes ∈ ms

/-- The state of a sink, with the observation beginning now. -/
def observe (s : DailySink) : DailySink := { s with disk := s.disk.observe }

theorem ready_observe {a : DailyArgs} {b : Text} {s : DailySink}
    (h : Ready a s.currentBasename s) : Ready a b (observe s) := by
  refine ⟨h.1, fun hb ho => ?_⟩
  subst hb
  obtain ⟨hfd, f, hf, hlen⟩ := h.2 rfl ho
  refine ⟨hfd, { f with written := false }, ?_, hlen⟩
  show (s.disk.files (a.basePath s.currentBasename)).map _ = _
  rw [hf]
  rfl

/-- After any run of a sink, while its base name is and remains `b`: every
message is written, and the files of the group are as described. -/
theorem run_group_files (a : DailyArgs) (zone : Zone) (t0 : Int) (d : Disk Path)
    (hd : d.NoFault) (s : DailySink) (hs : construct a zone t0 d = .ok s) (before : List Event)
    (b : Text) (done : List Event) (now : Int) (m : Bytes)
    (hstay : ∀ evs e, evs ++ [e] <+: done ++ [.log now m] →
      (run a zone (observe (run a zone s before)) (evs ++ [e])).currentBasename = b) :
    sinkIt a zone now m (run a zone (observe (run a zone s before)) done) =
        .ok () (run a zone (observe (run a zone s before)) (done ++ [.log now m])) ∧
      GroupFiles a b (observe (run a zone s before)).disk (messages (done ++ [.log now m])) m
        (run a zone (observe (run a zone s before)) (done ++ [.log now m])) := by
  have hready : Ready a b (observe (run a zone s before)) := by
    refine ready_observe (ready_run ?_ before)
    rw [construct_ok hs]
    exact ⟨hd.of_fault rfl, fun _ ho => by cases ho⟩
  have hfresh : ((groupView a b).see (observe (run a zone s before))).All
      (SizeLog.Fair (cfg a) []) := by
    intro j g hg
    obtain ⟨f, -, rfl⟩ := Option.map_eq_some_iff.1 hg
    exact fun h => by cases h
  generalize observe (run a zone s before) = s0 at hstay hready hfresh ⊢
  obtain ⟨ops, hops, hmid, hsee, -⟩ := run_refines hready done fun evs e he =>
    hstay evs e (he.trans (List.prefix_append _ _))
  have hb : (step a zone (run a zone s0 done) (.log now m)).currentBasename = b := by
    rw [← run_concat]
    exact hstay done _ (List.prefix_refl _)
  obtain ⟨ops', hops', hlog, hn⟩ := step_refines hmid hb
  obtain ⟨t, ht⟩ := hlog now m rfl
  have hreturns := sinkIt_returns hmid hb
  rw [← run_concat] at hn hreturns
  refine ⟨hreturns, ?_⟩
  have hlast := hn.see.trans ht
  have hwhole := hn.see
  rw [hsee, ← SizeLog.run_append] at hwhole
  have hms : SizeLog.messages (ops ++ ops') = messages (done ++ [.log now m]) := by
    rw [SizeLog.messages_append, hops, hops', ← messages_append]
  obtain ⟨f, hf, hsuf, hsize⟩ := SizeLog.log_zero (cfg a) m t
  rw [← hlast] at hf
  refine ⟨⟨f, hf, hsuf⟩, ?_, fun hN g hg => ?_, fun hN k g hg hw => ?_⟩
  · have howes := SizeLog.owes_run (cfg a) (ops ++ ops') ((groupView a b).see s0)
    rw [← hwhole, hms] at howes
    exact howes
  · have heq := hg.symm.trans hf
    injection heq with heq
    rw [heq]
    exact hsize hN
  · have hfair := SizeLog.fair_run hN (ops ++ ops') hfresh
    rw [← hwhole, hms] at hfair
    exact hfair (k + 1) g hg hw

/-- Four bytes per file and one backup, over a base file of three. -/
def small : DailyArgs where
  dir := "logs".toList
  namePattern := "app-{date}".toList
  dateFormat := "yyyy-MM-dd".toList
  rotationHour := 0
  rotationMin := 0
  maxSizeBits := 32
  maxFiles := 1

def leftOver : Disk Path where
  files p := if p = "logs/app-1970-01-01.log".toList then some { bytes := [97, 98, 99] } else none

def smallSink : DailySink := start small (Zone.fixed 0) 0 leftOver

theorem small_stays (evs : List Event) (e : Event)
    (h : evs ++ [e] <+: [.log 1 [100, 101]] ++ [.log 2 [102, 103, 104]]) :
    (run small (Zone.fixed 0) (observe smallSink) (evs ++ [e])).currentBasename =
      "app-1970-01-01".toList := by
  generalize evs ++ [e] = done at h ⊢
  rcases List.prefix_cons_iff.1 h with rfl | ⟨rest, rfl, hrest⟩
  · decide
  · rcases List.prefix_cons_iff.1 hrest with rfl | ⟨rest', rfl, hrest'⟩
    · decide
    · rw [List.prefix_nil.1 hrest']
      decide

theorem run_group_files_small :
    sinkIt small (Zone.fixed 0) 2 [102, 103, 104]
        (run small (Zone.fixed 0) (observe (run small (Zone.fixed 0) smallSink []))
          [.log 1 [100, 101]]) =
      .ok () (run small (Zone.fixed 0) (observe (run small (Zone.fixed 0) smallSink []))
        ([.log 1 [100, 101]] ++ [.log 2 [102, 103, 104]])) ∧
      GroupFiles small "app-1970-01-01".toList
        (observe (run small (Zone.fixed 0) smallSink [])).disk
        (messages ([.log 1 [100, 101]] ++ [.log 2 [102, 103, 104]])) [102, 103, 104]
        (run small (Zone.fixed 0) (observe (run small (Zone.fixed 0) smallSink []))
          ([.log 1 [100, 101]] ++ [.log 2 [102, 103, 104]])) :=
  run_group_files small (Zone.fixed 0) 0 leftOver (fun _ _ => rfl) smallSink rfl []
    "app-1970-01-01".toList [.log 1 [100, 101]] 2 [102, 103, 104] small_stays

end UempPlugin.Ref.DailySink
