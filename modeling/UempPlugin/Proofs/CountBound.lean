import Mathlib.Data.List.Induction
import UempPlugin.Proofs.CountChain

/-!
# How many lines a strict file can hold

The header promises at most `max_count` lines in every file. The counter that
enforces it counts messages, though, and only the scan of an unopened file
counts lines, so a message of several lines overfills its file unless a restart
comes in time to have its lines counted.

What goes into which file is decided by the messages and the restarts alone:
they are cut into `Pages`, one for a file, with the counter that says where a
page ends. A run keeps the promise exactly when no page has more than
`max_count` lines. Pages of one-line messages never have.
-/

namespace UempPlugin.Spec

open UempPlugin.Lib

/-- The pages that are complete, the one in progress, and the counter with its
two flags. The counter goes up by one for each message; it is the number of
lines of the page when that is gone on with after a restart. -/
structure Pages where
  complete : List (List Bytes) := []
  page : List Bytes := []
  count : Nat := 0
  opened : Bool := false
  begun : Bool := false

namespace Pages

def lines (page : List Bytes) : Nat := lineCount page.flatten

/-- The next message starts a page. -/
def close (p : Pages) : Pages :=
  { p with complete := p.complete ++ [p.page], page := [], count := 0, opened := false }

def begin (c : CountCfg) (p : Pages) : Pages :=
  if p.begun then p
  else if c.rotateOnOpen then { p.close with begun := true }
  else { p with begun := true }

/-- The lines of the page are counted when it is gone on with. -/
def goOn (c : CountCfg) (p : Pages) : Pages :=
  if p.opened then p
  else if c.maxCount ≤ lines p.page then { p.close with opened := true }
  else { p with count := lines p.page, opened := true }

/-- One message more, whatever its lines. -/
def write (m : Bytes) (p : Pages) : Pages :=
  { p with page := p.page ++ [m], count := p.count + 1 }

def afterWrite (c : CountCfg) (p : Pages) : Pages := if c.maxCount ≤ p.count then p.close else p

def log (c : CountCfg) (m : Bytes) (p : Pages) : Pages :=
  afterWrite c (write m (goOn c (begin c p)))

def restart (p : Pages) : Pages := { p with count := 0, opened := false, begun := false }

def all (p : Pages) : List (List Bytes) := p.complete ++ [p.page]

/-- No page has more lines than a file may have. -/
def Within (M : Nat) (p : Pages) : Prop := ∀ page ∈ p.all, lines page ≤ M

instance (M : Nat) (p : Pages) : Decidable (Within M p) := inferInstanceAs (Decidable (∀ _ ∈ _, _))

variable {c : CountCfg} {p : Pages} {M : Nat}

/-! ## Pages only grow -/

theorem begun_goOn (c : CountCfg) (p : Pages) : (p.goOn c).begun = p.begun := by
  rw [goOn]
  split
  · rfl
  · split
    · rfl
    · rfl

theorem within_close : p.close.Within M ↔ p.Within M := by
  have hall : p.close.all = p.all ++ [[]] := rfl
  rw [Within, hall, List.forall_mem_append]
  refine ⟨fun h => h.1, fun h => ⟨h, ?_⟩⟩
  rw [List.forall_mem_singleton]
  exact Nat.zero_le _

theorem within_begin : (p.begin c).Within M ↔ p.Within M := by
  rw [begin]
  split
  · rfl
  · split
    · exact within_close
    · rfl

theorem within_goOn : (p.goOn c).Within M ↔ p.Within M := by
  rw [goOn]
  split
  · rfl
  · split
    · exact within_close
    · rfl

theorem within_afterWrite : (p.afterWrite c).Within M ↔ p.Within M := by
  rw [afterWrite]
  split
  · exact within_close
  · rfl

/-- The page that is written to is the only one that changes. -/
theorem within_write (m : Bytes) :
    (p.write m).Within M ↔ p.Within M ∧ lines (p.page ++ [m]) ≤ M := by
  have hall : (p.write m).all = p.complete ++ [p.page ++ [m]] := rfl
  have hmono : lines p.page ≤ lines (p.page ++ [m]) := by
    rw [lines, lines, List.flatten_append]
    exact lineCount_le_append _ _
  rw [Within, Within, hall, all, List.forall_mem_append, List.forall_mem_append,
    List.forall_mem_singleton, List.forall_mem_singleton]
  exact ⟨fun h => ⟨⟨h.1, Nat.le_trans hmono h.2⟩, h.2⟩, fun h => ⟨h.1.1, h.2⟩⟩

theorem within_log (m : Bytes) :
    (p.log c m).Within M ↔
      p.Within M ∧ lines ((goOn c (begin c p)).page ++ [m]) ≤ M := by
  rw [log, within_afterWrite, within_write, within_goOn, within_begin]

/-! ## One line each -/

theorem lines_concat {page : List Bytes} {m : Bytes} (hclosed : Closed page.flatten)
    (hm : OneLine m) : lines (page ++ [m]) = lines page + 1 := by
  rw [lines, lines, List.flatten_append, List.flatten_singleton,
    lineCount_append hclosed hm.terminated.closed, hm.lineCount]

/-- Every page has a line for each of its messages, and so the counter is the
number of both. -/
structure Even (M : Nat) (p : Pages) : Prop where
  complete : ∀ page ∈ p.complete, lines page ≤ M
  closed : Closed p.page.flatten
  lines : lines p.page = p.page.length
  room : p.page.length < M
  count : p.opened = true → p.count = p.page.length

theorem even_nil (hM : 1 ≤ M) : Even M {} :=
  ⟨fun _ h => absurd h List.not_mem_nil, closed_nil, rfl, hM, nofun⟩

theorem Even.within (h : Even M p) : p.Within M := by
  refine List.forall_mem_append.2 ⟨h.complete, ?_⟩
  rw [List.forall_mem_singleton, h.lines]
  exact Nat.le_of_lt h.room

theorem even_close (hM : 1 ≤ M) (h : p.Within M) : Even M p.close :=
  ⟨h, closed_nil, rfl, hM, nofun⟩

theorem even_begin (h : Even c.maxCount p) : Even c.maxCount (p.begin c) := by
  rw [begin]
  split
  · exact h
  · split
    · have hclosed := even_close (Nat.lt_of_le_of_lt (Nat.zero_le _) h.room) h.within
      exact ⟨hclosed.complete, hclosed.closed, hclosed.lines, hclosed.room, hclosed.count⟩
    · exact ⟨h.complete, h.closed, h.lines, h.room, h.count⟩

/-- No page is found full: its lines are its messages. -/
theorem even_goOn (h : Even c.maxCount p) :
    Even c.maxCount (p.goOn c) ∧ (p.goOn c).opened = true := by
  rw [goOn]
  split
  · next hopened => exact ⟨h, hopened⟩
  · rw [if_neg (by rw [h.lines]; exact Nat.not_le.2 h.room)]
    exact ⟨⟨h.complete, h.closed, h.lines, h.room, fun _ => h.lines⟩, rfl⟩

theorem even_log (h : Even c.maxCount p) {m : Bytes} (hm : OneLine m) :
    Even c.maxCount (p.log c m) := by
  obtain ⟨hready, hopened⟩ := even_goOn (even_begin h)
  rw [log]
  generalize goOn c (begin c p) = u at hready hopened
  have hlines : Pages.lines (u.page ++ [m]) = u.page.length + 1 := by
    rw [lines_concat hready.closed hm, hready.lines]
  have hwithin : (u.write m).Within c.maxCount :=
    (within_write m).2 ⟨hready.within, by rw [hlines]; exact hready.room⟩
  have hcount : (u.write m).count = u.page.length + 1 :=
    congrArg (· + 1) (hready.count hopened)
  have hlength : (u.write m).page.length = u.page.length + 1 := List.length_append
  rw [afterWrite]
  split
  · exact even_close (Nat.lt_of_le_of_lt (Nat.zero_le _) h.room) hwithin
  · next hroom =>
      refine ⟨hready.complete, ?_, hlines.trans hlength.symm, ?_, fun _ => hcount.trans hlength.symm⟩
      · show Closed (u.page ++ [m]).flatten
        rw [List.flatten_append, List.flatten_singleton]
        exact hready.closed.append hm.terminated.closed
      · rw [hlength, ← hcount]
        exact Nat.lt_of_not_le hroom

theorem even_restart (h : Even M p) : Even M p.restart :=
  ⟨h.complete, h.closed, h.lines, h.room, nofun⟩

end Pages

namespace CountLog

/-- Every file of the chain keeps within `maxCount` lines. -/
def Bounded (c : CountCfg) (t : CountLog) : Prop :=
  t.toShelf.All fun f => lineCount f.bytes ≤ c.maxCount

/-- A strict log that rotates and has somewhere to rotate to. -/
structure Strict (c : CountCfg) : Prop where
  strict : c.strict = true
  count_pos : 1 ≤ c.maxCount
  files_pos : 1 ≤ c.maxFiles

/-- The page in progress is in slot 0, and the counters agree. -/
structure Follows (c : CountCfg) (p : Pages) (t : CountLog) : Prop where
  slot : Chain.slotBytes (t.chain 0) = p.page.flatten
  count : t.count = p.count
  opened : t.opened = p.opened
  begun : t.begun = p.begun
  room : t.count < c.maxCount
  fresh : t.begun = false → t.count = 0 ∧ t.opened = false

variable {c : CountCfg} {t : CountLog} {p : Pages}

theorem Strict.files_ne (hc : Strict c) : c.maxFiles ≠ 0 := by
  have := hc.files_pos
  omega

/-- A rotation leaves slot 0 empty. -/
theorem Strict.rotate_slot (hc : Strict c) (t : CountLog) : (rotate c t).chain 0 = none :=
  Shelf.rotate_slot hc.files_ne t.toShelf

theorem Strict.scan (hc : Strict c) (t : CountLog) :
    scan c t =
      if c.maxCount ≤ t.held then { CountLog.rotate c t with count := 0 }
      else { t with count := t.held } := by
  rw [CountLog.scan, if_neg]
  rintro (h | h)
  · rw [hc.strict] at h
    cases h
  · exact absurd hc.count_pos (by omega)

theorem bounded_rotate (hb : Bounded c t) : Bounded c (rotate c t) := Shelf.all_rotate hb

/-! ## The state in which the message is written -/

theorem begin_follows (hc : Strict c) (h : Follows c p t) :
    Follows c (p.begin c) (begin c t) ∧ (Bounded c t → Bounded c (begin c t)) := by
  rw [begin, Pages.begin, ← h.begun]
  cases hb : t.begun with
  | true =>
      rw [if_pos rfl, if_pos rfl]
      exact ⟨h, id⟩
  | false =>
      obtain ⟨hzero, hclosed⟩ := h.fresh hb
      have hbegun : ∀ {P : Prop}, true = false → P := fun h => absurd h.symm Bool.false_ne_true
      rw [if_neg Bool.false_ne_true, if_neg Bool.false_ne_true]
      by_cases hro : c.rotateOnOpen = true
      · rw [if_pos hro]
        cases h0 : t.chain 0 with
        | none =>
            rw [if_neg (by rintro ⟨-, -, h⟩; cases h)]
            exact ⟨⟨by rw [h0]; rfl, hzero, hclosed, rfl, h.room, hbegun⟩, id⟩
        | some f =>
            rw [if_pos ⟨hro, hc.files_pos, rfl⟩]
            exact ⟨⟨congrArg Chain.slotBytes (hc.rotate_slot t), rfl, rfl, rfl, hc.count_pos,
              hbegun⟩, bounded_rotate⟩
      · rw [if_neg hro, if_neg (by rintro ⟨h, -⟩; exact hro h)]
        exact ⟨⟨h.slot, h.count, h.opened, rfl, h.room, hbegun⟩, id⟩

theorem openLog_follows (hc : Strict c) (h : Follows c p t) (hbegun : t.begun = true) :
    Follows c (p.goOn c) (openLog c t) ∧ (Bounded c t → Bounded c (openLog c t)) := by
  rw [Pages.goOn, ← h.opened]
  cases ho : t.opened with
  | true =>
      rw [openLog_of_opened ho, if_pos rfl]
      exact ⟨h, id⟩
  | false =>
      have hheld : t.held = Pages.lines p.page := congrArg lineCount h.slot
      have hnew : ∀ {u : CountLog}, u.begun = t.begun → u.begun = false →
          u.count = 0 ∧ u.opened = false := fun hu hf => by
        rw [hu, hbegun] at hf
        cases hf
      rw [openLog_of_closed ho, hc.scan, hheld, if_neg Bool.false_ne_true]
      by_cases hfull : c.maxCount ≤ Pages.lines p.page
      · rw [if_pos hfull, if_pos hfull]
        refine ⟨⟨?_, rfl, rfl, h.begun, hc.count_pos, hnew rfl⟩,
          fun hb => Shelf.all_create (bounded_rotate hb) (Nat.zero_le _)⟩
        exact (Shelf.create_slotBytes _).trans (congrArg Chain.slotBytes (hc.rotate_slot t))
      · rw [if_neg hfull, if_neg hfull]
        exact ⟨⟨(Shelf.create_slotBytes _).trans h.slot, rfl, rfl, h.begun,
          Nat.lt_of_not_le hfull, hnew rfl⟩, fun hb => Shelf.all_create hb (Nat.zero_le _)⟩

/-! ## One message -/

theorem begin_begun (c : CountCfg) (t : CountLog) : (begin c t).begun = true := by
  rw [begin]
  split
  · next h => exact h
  · split
    · rfl
    · rfl

/-- Below the limit, a message is appended to its page, and the full file is
rotated afterwards. -/
theorem log_eq (hc : Strict c) (h : Follows c p t) (m : Bytes) :
    log c m t = afterWrite c (append m (openLog c (begin c t))) := by
  obtain ⟨hbegin, -⟩ := begin_follows hc h
  obtain ⟨hopen, -⟩ := openLog_follows hc hbegin (begin_begun c t)
  have hbefore : beforeOpen c (begin c t) = begin c t := if_neg (Nat.not_le.2 hbegin.room)
  have hafter : afterOpen c (openLog c (begin c t)) = openLog c (begin c t) :=
    if_neg (Nat.not_le.2 hopen.room)
  rw [log, hbefore, hafter]

theorem log_follows (hc : Strict c) (h : Follows c p t) (m : Bytes) :
    Follows c (p.log c m) (log c m t) := by
  obtain ⟨hbegin, -⟩ := begin_follows hc h
  obtain ⟨hopen, -⟩ := openLog_follows hc hbegin (begin_begun c t)
  have hbegun : (openLog c (begin c t)).begun = true := by
    rw [hopen.begun, Pages.begun_goOn, ← hbegin.begun, begin_begun]
  rw [log_eq hc h, Pages.log]
  generalize openLog c (begin c t) = u at hopen hbegun
  have hslot := Shelf.append_zero m u.toShelf
  have hcount : (append m u).count = (((p.begin c).goOn c).write m).count :=
    congrArg (· + 1) hopen.count
  rw [afterWrite, Pages.afterWrite]
  by_cases hfull : c.maxCount ≤ (((p.begin c).goOn c).write m).count
  · rw [if_pos hfull, if_pos (by rw [hcount]; exact hfull)]
    refine ⟨congrArg Chain.slotBytes (hc.rotate_slot _), rfl, rfl, hopen.begun, hc.count_pos,
      fun hf => ?_⟩
    exact absurd (hbegun.symm.trans hf) (by decide)
  · rw [if_neg hfull, if_neg (by rw [hcount]; exact hfull)]
    refine ⟨?_, hcount, hopen.opened, hopen.begun, by rw [hcount]; exact Nat.lt_of_not_le hfull,
      fun hf => absurd (hbegun.symm.trans hf) (by decide)⟩
    show Chain.slotBytes ((append m u).chain 0) = (_ ++ [m]).flatten
    rw [List.flatten_append, List.flatten_singleton, ← hopen.slot]
    exact congrArg Chain.slotBytes hslot

/-- Within its limit before, the log is so afterwards exactly when the page of
the message is. -/
theorem bounded_log_iff (hc : Strict c) (h : Follows c p t) (hb : Bounded c t) (m : Bytes) :
    Bounded c (log c m t) ↔
      Pages.lines ((Pages.goOn c (p.begin c)).page ++ [m]) ≤ c.maxCount := by
  obtain ⟨hbegin, hb1⟩ := begin_follows hc h
  obtain ⟨hopen, hb2⟩ := openLog_follows hc hbegin (begin_begun c t)
  have hready := hb2 (hb1 hb)
  rw [log_eq hc h, Pages.lines, List.flatten_append, List.flatten_singleton, ← hopen.slot]
  generalize openLog c (begin c t) = u at hready
  have hslot := Shelf.append_zero m u.toShelf
  constructor
  · intro hafter
    rw [afterWrite] at hafter
    -- the file is in slot 0, or in slot 1 if it was rotated at once
    split at hafter
    · have hnext : (rotate c (append m u)).chain 1 =
          some { bytes := Chain.slotBytes (u.chain 0) ++ m, written := true } := by
        show ((append m u).toShelf.rotate c.maxFiles).chain 1 = _
        rw [Shelf.rotate_pos hc.files_ne]
        exact (Chain.shift_succ hc.files_pos _).trans hslot
      exact hafter 1 _ hnext
    · exact hafter 0 _ hslot
  · intro hfit
    have happend : Bounded c (append m u) := Shelf.all_append hready hfit
    rw [afterWrite]
    split
    · exact bounded_rotate happend
    · exact happend

theorem restart_follows (hc : Strict c) (h : Follows c p t) :
    Follows c p.restart (restart t) :=
  ⟨h.slot, rfl, rfl, rfl, hc.count_pos, fun _ => ⟨rfl, rfl⟩⟩

end CountLog

end UempPlugin.Spec

namespace UempPlugin.Ref.CountSink

open UempPlugin.Lib UempPlugin.Spec

/-! ## The sink -/

/-- The lines of a file, as the strict scan counts them. -/
def linesIn (b : Bytes) : Nat := countLinesInFile (readChunks kBuf b.length b)

/-- What the header promises: no file has more than `max_count` lines. -/
def Bounded (a : CountArgs) (s : CountSink) : Prop :=
  ∀ k f, chain a s k = some f → linesIn f.bytes ≤ a.maxCount

theorem bounded_see {a : CountArgs} {s : CountSink} :
    Bounded a s ↔ CountLog.Bounded (cfg a) ((view a).see s) := by
  simp only [Bounded, linesIn, countLinesInFile_eq]
  exact Iff.rfl

/-- What an event does to the pages. -/
def turnPage (c : CountCfg) (p : Pages) : Event → Pages
  | .log m => p.log c m
  | .restart => p.restart

/-- The pages that the messages of a run are cut into. -/
def pages (c : CountCfg) (evs : List Event) : Pages := evs.foldl (turnPage c) {}

theorem pages_concat (c : CountCfg) (evs : List Event) (e : Event) :
    pages c (evs ++ [e]) = turnPage c (pages c evs) e := by
  rw [pages, List.foldl_append]
  rfl

theorem logRun_concat (c : CountCfg) (t : CountLog) (evs : List Event) (e : Event) :
    logRun c t (evs ++ [e]) = logStep c (logRun c t evs) e := by
  rw [logRun, List.foldl_append]
  rfl

theorem logRun_follows {c : CountCfg} (hc : CountLog.Strict c) {t : CountLog}
    (h : CountLog.Follows c {} t) (evs : List Event) :
    CountLog.Follows c (pages c evs) (logRun c t evs) := by
  induction evs using List.reverseRecOn with
  | nil => exact h
  | append_singleton evs e ih =>
      rw [logRun_concat, pages_concat]
      match e with
      | .log m => exact CountLog.log_follows hc ih m
      | .restart => exact CountLog.restart_follows hc ih

/-- A log that starts within its limit stays so throughout exactly when the
pages are within it in the end. -/
theorem logRun_bounded_iff {c : CountCfg} (hc : CountLog.Strict c) {t : CountLog}
    (h : CountLog.Follows c {} t) (hb : CountLog.Bounded c t) (evs : List Event) :
    (∀ done, done <+: evs → CountLog.Bounded c (logRun c t done)) ↔
      (pages c evs).Within c.maxCount := by
  induction evs using List.reverseRecOn with
  | nil =>
      refine ⟨fun _ page hpage => ?_, fun _ done hdone => ?_⟩
      · rw [List.mem_singleton.1 hpage]
        exact Nat.zero_le _
      · rw [List.prefix_nil.1 hdone]
        exact hb
  | append_singleton evs e ih =>
      have hsplit : (∀ done, done <+: evs ++ [e] → CountLog.Bounded c (logRun c t done)) ↔
          (∀ done, done <+: evs → CountLog.Bounded c (logRun c t done)) ∧
            CountLog.Bounded c (logRun c t (evs ++ [e])) := by
        refine ⟨fun hall => ⟨fun done hdone => hall done (hdone.trans (List.prefix_append _ _)),
          hall _ (List.prefix_refl _)⟩, fun ⟨hall, hlast⟩ done hdone => ?_⟩
        rcases List.prefix_concat_iff.1 hdone with rfl | hdone
        · exact hlast
        · exact hall done hdone
      have hfollows := logRun_follows hc h evs
      rw [hsplit, ih, logRun_concat, pages_concat, logStep.eq_def]
      match e with
      | .log m =>
          show _ ∧ CountLog.Bounded c (CountLog.log c m _) ↔ (Pages.log c m _).Within _
          rw [Pages.within_log]
          refine and_congr_right fun hwithin => ?_
          exact CountLog.bounded_log_iff hc hfollows ((ih.2 hwithin) evs (List.prefix_refl _)) m
      | .restart =>
          refine and_iff_left_of_imp fun hwithin => ?_
          exact (ih.2 hwithin) evs (List.prefix_refl _)

theorem pages_even {c : CountCfg} (hM : 1 ≤ c.maxCount) (evs : List Event)
    (h : ∀ m ∈ messages evs, OneLine m) : (pages c evs).Even c.maxCount := by
  have hrun : ∀ (evs : List Event) (p : Pages), (∀ m ∈ messages evs, OneLine m) →
      p.Even c.maxCount → (evs.foldl (turnPage c) p).Even c.maxCount := by
    intro evs
    induction evs with
    | nil => exact fun p _ hp => hp
    | cons e evs ih =>
        intro p hlines hp
        match e with
        | .log m =>
            obtain ⟨hm, hrest⟩ := List.forall_mem_cons.1 hlines
            exact ih _ hrest (Pages.even_log hp hm)
        | .restart => exact ih _ hlines (Pages.even_restart hp)
  exact hrun evs {} h (Pages.even_nil hM)

/-- A run of a strict sink over an empty folder keeps every file within
`max_count` lines throughout exactly when no page of its messages has more, as
it is when every message is one line. -/
theorem run_bounded_iff (a : CountArgs) (d : Disk Path) (hd : d.NoFault)
    (hstrict : a.strictCountOnOpen = true) (hM : 1 ≤ a.maxCount) (hN : 1 ≤ a.maxFiles)
    (hempty : ∀ k, d.files (chainPath a.dir a.stem k) = none) (evs : List Event) :
    ((∀ done, done <+: evs → Bounded a (run a (construct a d) done)) ↔
        (pages (cfg a) evs).Within a.maxCount) ∧
      ((∀ m ∈ messages evs, OneLine m) → (pages (cfg a) evs).Within a.maxCount) := by
  have hc : CountLog.Strict (cfg a) := ⟨hstrict, hM, hN⟩
  have hnone : ∀ k, ((view a).see (construct a d)).chain k = none := hempty
  have hstart : CountLog.Follows (cfg a) {} ((view a).see (construct a d)) :=
    ⟨congrArg Chain.slotBytes (hnone 0), rfl, rfl, rfl, hM, fun _ => ⟨rfl, rfl⟩⟩
  have hwithin : CountLog.Bounded (cfg a) ((view a).see (construct a d)) := by
    intro k f hf
    rw [hnone] at hf
    cases hf
  refine ⟨?_, fun hlines => (pages_even hM evs hlines).within⟩
  rw [← show (cfg a).maxCount = a.maxCount from rfl, ← logRun_bounded_iff hc hstart hwithin]
  refine forall_congr' fun done => imp_congr_right fun _ => ?_
  rw [bounded_see, (run_next a done hd).see]

/-- Three lines per file, two backups. -/
def wide : CountArgs where
  baseFilename := "logs/app.log".toList
  maxCount := 3
  maxFiles := 2
  strictCountOnOpen := true

def nothing : Disk Path where
  files _ := none

/-- Two lines, which a restart has counted, and one that fills the file; one
line, and two that are written before the counter is at its limit. -/
def mixed : List Event := [
  .log [97, newline, 98, newline], .restart, .log [99, newline],
  .log [100, newline], .log [101, newline, 102, newline]]

theorem run_bounded_iff_mixed :
    (pages (cfg wide) mixed).all = [
        [[97, newline, 98, newline], [99, newline]],
        [[100, newline], [101, newline, 102, newline]]] ∧
      ∀ done, done <+: mixed → Bounded wide (run wide (construct wide nothing) done) :=
  ⟨by decide, (run_bounded_iff wide nothing (fun _ _ => rfl) rfl (by decide) (by decide)
    (fun _ => rfl) mixed).1.2 (by decide)⟩

/-- Two messages per file, one backup. -/
def narrow : CountArgs where
  baseFilename := "logs/app.log".toList
  maxCount := 2
  maxFiles := 1
  strictCountOnOpen := true

/-- A message of two lines followed by one of one line makes a file of three
lines where two were promised. -/
theorem multiline_overfull :
    (∀ m ∈ messages [.log [97, newline, 98, newline], .log [99, newline]], Terminated m) ∧
      ¬ Bounded narrow (run narrow (construct narrow nothing)
        [.log [97, newline, 98, newline], .log [99, newline]]) := by
  refine ⟨by decide, fun hb => ?_⟩
  have hslot : chain narrow (run narrow (construct narrow nothing)
      [.log [97, newline, 98, newline], .log [99, newline]]) 1 =
        some ⟨[97, newline, 98, newline, 99, newline], true⟩ := by decide
  exact absurd (hb 1 _ hslot) (by decide)

end UempPlugin.Ref.CountSink
