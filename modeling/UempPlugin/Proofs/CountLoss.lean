import UempPlugin.Proofs.CountChain

/-!
# The count sink neither loses nor repeats a byte

Read oldest slot first, the chain of files is the text of the log. Whatever
the parameters and whatever the folder held before, the text at the end of a
run is the text at its start with every message appended, less a prefix made
of whole files: those the rotations destroyed.

Each stage of a call has its account of the shelf (`Shelf.Owes`): a rotation
settles it with the oldest slot, a write with the message, and everything else
moves no text at all. A call of `sink_it_` is a chain of accounts and a run is
a chain of calls.
-/

namespace UempPlugin.Spec.CountLog

open UempPlugin.Lib

variable (c : CountCfg) (t : CountLog)

/-- The account of one stage. -/
def Owes (b : Bytes) (t t' : CountLog) : Prop :=
  Shelf.Owes c.maxFiles b t.toShelf t'.toShelf

theorem Owes.refl : Owes c [] t t := Shelf.Owes.refl _ _

theorem owes_rotate : Owes c [] t (rotate c t) := Shelf.owes_rotate _ _

/-- The counter and the flags are not text. -/
theorem owes_scan : Owes c [] t (scan c t) := by
  rw [scan]
  split
  · exact Owes.refl c t
  · split
    · exact owes_rotate c t
    · exact Owes.refl c t

theorem owes_openLog : Owes c [] t (openLog c t) := by
  cases ho : t.opened with
  | true =>
      rw [openLog_of_opened ho]
      exact Owes.refl c t
  | false =>
      rw [openLog_of_closed ho]
      exact Shelf.Owes.trans (owes_scan c t) (Shelf.owes_create _ _)

theorem owes_begin : Owes c [] t (begin c t) := by
  rw [begin]
  split
  · exact Owes.refl c t
  · split
    · exact owes_rotate c t
    · exact Owes.refl c t

theorem owes_beforeOpen : Owes c [] t (beforeOpen c t) := by
  rw [beforeOpen]
  split
  · split
    · exact Shelf.Owes.trans (owes_rotate c t) (owes_openLog c _)
    · exact Owes.refl c t
  · exact Owes.refl c t

theorem owes_afterOpen : Owes c [] t (afterOpen c t) := by
  rw [afterOpen]
  split
  · exact Shelf.Owes.trans (owes_rotate c t) (owes_openLog c _)
  · exact Owes.refl c t

theorem owes_afterWrite : Owes c [] t (afterWrite c t) := by
  rw [afterWrite]
  split
  · exact owes_rotate c t
  · exact Owes.refl c t

theorem owes_log (b : Bytes) : Owes c b t (log c b t) := by
  have hbefore := Shelf.Owes.trans (owes_begin c t) (owes_beforeOpen c _)
  have hopen := Shelf.Owes.trans (owes_openLog c (beforeOpen c (begin c t))) (owes_afterOpen c _)
  have hwrite := Shelf.Owes.trans (Shelf.owes_append c.maxFiles b _)
    (owes_afterWrite c (append b (afterOpen c (openLog c (beforeOpen c (begin c t))))))
  have hall := (hbefore.trans hopen).trans hwrite
  simp only [List.nil_append, List.append_nil] at hall
  exact hall

end UempPlugin.Spec.CountLog

namespace UempPlugin.Ref.CountSink

open UempPlugin.Lib UempPlugin.Spec

theorem owes_logStep (c : CountCfg) (t : CountLog) (e : Event) :
    CountLog.Owes c (messages [e]).flatten t (logStep c t e) := by
  match e with
  | .log m =>
      rw [show (messages [.log m]).flatten = m from List.append_nil m]
      exact CountLog.owes_log c t m
  | .restart => exact CountLog.Owes.refl c t

theorem owes_logRun (c : CountCfg) :
    ∀ (evs : List Event) (t : CountLog),
      CountLog.Owes c (messages evs).flatten t (logRun c t evs) := by
  intro evs
  induction evs with
  | nil => exact CountLog.Owes.refl c
  | cons e evs ih =>
      intro t
      rw [messages_cons, List.flatten_append]
      exact Shelf.Owes.trans (owes_logStep c t e) (ih _)

/-- The text of the chain after a run is the text before it followed by all
messages, less the destroyed files, which are whole and the oldest; without
backups nothing is destroyed or renamed. -/
theorem run_conserves (a : CountArgs) (d : Disk Path) (h : d.NoFault) (evs : List Event) :
    ∃ dropped : List File,
      (run a (construct a d) evs).disk.lost = d.lost ++ dropped ∧
      Chain.content a.maxFiles (Disk.chain (chainPath a.dir a.stem) d) ++
          (messages evs).flatten =
        (dropped.map File.bytes).flatten ++
          Chain.content a.maxFiles (chain a (run a (construct a d) evs)) ∧
      (a.maxFiles = 0 →
        dropped = [] ∧ (run a (construct a d) evs).disk.moved = d.moved) := by
  have hrun := run_next a evs h
  have howes := owes_logRun (cfg a) evs ((view a).see (construct a d))
  rw [← hrun.see] at howes
  obtain ⟨dropped, hl, hc, h0⟩ := howes
  exact ⟨dropped, hl, hc, fun hN => ⟨h0 hN, hrun.keeps.moved hN⟩⟩

/-- A sink of one message per file, and a folder with an over-full base file,
no first backup and a second one. -/
def tight : CountArgs where
  baseFilename := "logs/app".toList
  maxCount := 1
  maxFiles := 2
  rotateOnOpen := true
  strictCountOnOpen := true

def gapped : Disk Path where
  files p :=
    if p = "logs/app.log".toList then some { bytes := [97, newline, 98] }
    else if p = "logs/app.2.log".toList then some { bytes := [99, newline] }
    else none

theorem run_conserves_gapped :
    ∃ dropped : List File,
      (run tight (construct tight gapped) [.log [100], .restart, .log [101, newline]]).disk.lost =
        gapped.lost ++ dropped ∧
      Chain.content tight.maxFiles (Disk.chain (chainPath tight.dir tight.stem) gapped) ++
          (messages [.log [100], .restart, .log [101, newline]]).flatten =
        (dropped.map File.bytes).flatten ++
          Chain.content tight.maxFiles (chain tight
            (run tight (construct tight gapped) [.log [100], .restart, .log [101, newline]])) ∧
      (tight.maxFiles = 0 → dropped = [] ∧
        (run tight (construct tight gapped)
          [.log [100], .restart, .log [101, newline]]).disk.moved = gapped.moved) :=
  run_conserves tight gapped (fun _ _ => rfl) [.log [100], .restart, .log [101, newline]]

end UempPlugin.Ref.CountSink
