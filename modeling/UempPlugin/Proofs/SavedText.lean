import UempPlugin.Proofs.UsableLogger
import UempPlugin.Ref.OutputStream

/-!
# What a save that returns has written

`saveAsFile` turns exceptions of its stream into a `runtime_error`, but the
stream throws none, and its state is not looked at. So a save of a proper node
always returns, and the text is in the file exactly when every call of the
stream did all it was asked to, or when the file did not open and happened to
hold the text already.
-/

namespace UempPlugin.Ref.Log

open UempPlugin.Lib
open Yaml (Node)

variable {W : World} {node : Node}

/-! ## Writing -/

namespace OFStream

theorem writes_failed {s : OFStream} (h : s.failed = true) (pieces : List (List UInt8 × Nat)) :
    s.writes pieces = s := by
  induction pieces with
  | nil => rfl
  | cons w pieces ih =>
      rw [writes, List.foldl_cons, write, if_pos h]
      exact ih

theorem writes_cons (s : OFStream) (w : List UInt8 × Nat) (pieces : List (List UInt8 × Nat)) :
    s.writes (w :: pieces) = (s.write w.1 w.2).writes pieces := rfl

/-- A stream takes a beginning of what it is handed. -/
theorem writes_prefix (s : OFStream) (pieces : List (List UInt8 × Nat)) :
    (s.writes pieces).taken <+: s.taken ++ (pieces.map Prod.fst).flatten := by
  induction pieces generalizing s with
  | nil => exact List.prefix_append _ _
  | cons w pieces ih =>
      rw [writes_cons, List.map_cons, List.flatten_cons]
      by_cases hfailed : s.failed = true
      · rw [write, if_pos hfailed, writes_failed hfailed]
        exact List.prefix_append _ _
      · by_cases hshort : w.2 < w.1.length
        · rw [writes_failed (by simp [write, hfailed, hshort]), write, if_neg hfailed]
          refine (List.prefix_append_right_inj _).2 ?_
          exact (List.take_prefix _ _).trans (List.prefix_append _ _)
        · have hall : w.1.take w.2 = w.1 := List.take_of_length_le (by omega)
          have hrest := ih (s.write w.1 w.2)
          rw [write, if_neg hfailed, hall] at hrest
          rw [write, if_neg hfailed, hall]
          rw [List.append_assoc] at hrest
          exact hrest

/-- It takes all of it exactly when every piece can be had. -/
theorem writes_all_iff {s : OFStream} (h : s.failed = false) {pieces : List (List UInt8 × Nat)}
    (hcounts : ∀ w ∈ pieces, w.2 ≤ w.1.length) :
    (s.writes pieces).taken = s.taken ++ (pieces.map Prod.fst).flatten ↔
      ∀ w ∈ pieces, w.2 = w.1.length := by
  induction pieces generalizing s with
  | nil => simp [writes]
  | cons w pieces ih =>
      obtain ⟨hcount, hcounts⟩ := List.forall_mem_cons.1 hcounts
      rw [writes_cons, List.map_cons, List.flatten_cons, List.forall_mem_cons]
      rcases Nat.lt_or_eq_of_le hcount with hshort | hfull
      · refine ⟨fun heq => ?_, fun hall => absurd hall.1 (by omega)⟩
        rw [writes_failed (by simp [write, h, hshort]), write, if_neg (by simp [h])] at heq
        have hlength := congrArg List.length heq
        simp only [List.length_append, List.length_take] at hlength
        omega
      · have hwrite : s.write w.1 w.2 = { s with failed := false, taken := s.taken ++ w.1 } := by
          rw [write, if_neg (by simp [h]), hfull, List.take_length]
          simp
        rw [hwrite, ← List.append_assoc]
        rw [ih rfl hcounts]
        exact ⟨fun hall => ⟨hfull, hall⟩, fun hall => hall.2⟩

theorem write_exceptions (s : OFStream) (piece : List UInt8) (count : Nat) :
    (s.write piece count).exceptions = s.exceptions := by
  rw [write]
  split <;> rfl

theorem writes_exceptions (s : OFStream) (pieces : List (List UInt8 × Nat)) :
    (s.writes pieces).exceptions = s.exceptions := by
  induction pieces generalizing s with
  | nil => rfl
  | cons w pieces ih => rw [writes_cons, ih, write_exceptions]

/-- With an empty mask no failure is thrown. -/
theorem clear_silent {s : OFStream} (h : s.exceptions = false) : clear s = .ok () s := by
  rw [clear, h, Bool.and_false, if_neg (by decide)]

theorem put_silent {s : OFStream} (h : s.exceptions = false) (w : List UInt8 × Nat) :
    put w s = .ok () (s.write w.1 w.2) :=
  clear_silent ((write_exceptions s w.1 w.2).trans h)

theorem puts_silent {s : OFStream} (h : s.exceptions = false)
    (pieces : List (List UInt8 × Nat)) :
    List.forM pieces put s = .ok () (s.writes pieces) := by
  induction pieces generalizing s with
  | nil => rfl
  | cons w pieces ih =>
      exact (bind_of_ok (put_silent h w)).trans (ih ((write_exceptions s w.1 w.2).trans h))

end OFStream

/-! ## Saving -/

/-- Every call of the stream did all it was asked to. -/
structure SaveOps.Complete (ops : SaveOps W node) : Prop where
  opened : ops.opened = true
  counts : ∀ w ∈ ops.pieces, w.2 = w.1.length
  lost : ops.lost = 0

/-- What the save is to leave at the path is there: the stream did everything,
or did not open over a file that has the text already. -/
def SaveOps.Sound (ops : SaveOps W node) (filePath : String) (s : LogPrivate W) : Prop :=
  ops.Complete ∨ ops.opened = false ∧ s.files (W.resolve filePath) = some (W.emit node)

/-- A save that returns has left the complete text at the path, and one that
does not has thrown a `runtime_error`. -/
def Reports (filePath : String) (s : LogPrivate W) (ops : SaveOps W node) : Prop :=
  (∀ s', saveThrough node filePath ops s = .ok () s' →
    s'.files (W.resolve filePath) = some (W.emit node)) ∧
  ∀ e s', saveThrough node filePath ops s = .error e s' → ∃ what, e = .runtimeError what

/-- The default configuration is announced only when it is in its file. -/
def AnnouncesWritten (env : DefaultEnv W) (filePath : String) (s : LogPrivate W) : Prop :=
  ∀ s', announce env defaultDoc filePath s = .ok () s' →
    s'.files (W.resolve filePath) = some (W.emit defaultDoc)

theorem SaveOps.taken_prefix (ops : SaveOps W node) : ops.fout.taken <+: W.emit node := by
  have hprefix := OFStream.writes_prefix (OFStream.opening ops.opened) ops.pieces
  rw [ops.text] at hprefix
  exact (List.take_prefix _ _).trans hprefix

theorem SaveOps.taken_all_iff {ops : SaveOps W node} (hopened : ops.opened = true) :
    ops.fout.taken = W.emit node ↔ ops.Complete := by
  have hall := OFStream.writes_all_iff (s := OFStream.opening ops.opened)
    (by rw [hopened]; rfl) ops.counts
  have hprefix := OFStream.writes_prefix (OFStream.opening ops.opened) ops.pieces
  rw [ops.text, OFStream.opening, List.nil_append] at hall hprefix
  have hlosses := ops.losses
  rw [OFStream.opening] at hlosses
  constructor
  · intro heq
    have hlength := congrArg List.length heq
    rw [fout, OFStream.close, OFStream.opening, List.length_take] at hlength
    have hlost : ops.lost = 0 := by
      have hle := hprefix.length_le
      omega
    rw [fout, OFStream.close, hlost, Nat.sub_zero, List.take_length] at heq
    exact ⟨hopened, hall.1 heq, hlost⟩
  · intro h
    rw [fout, OFStream.close, h.lost, Nat.sub_zero, List.take_length]
    exact hall.2 h.counts

/-- No call of the stream throws. -/
theorem SaveOps.calls_silent (ops : SaveOps W node) :
    ops.calls (OFStream.opening ops.opened) = .ok () ops.fout := by
  have hopening : (OFStream.opening ops.opened).exceptions = false := rfl
  have hwrites := (OFStream.writes_exceptions _ ops.pieces).trans hopening
  have hclose : ops.fout.exceptions = false := hwrites
  rw [calls, bind_of_ok (OFStream.clear_silent hopening),
    bind_of_ok (OFStream.puts_silent hopening ops.pieces)]
  exact OFStream.clear_silent hclose

/-- The files when a save that came to its end is over. -/
def SaveOps.files (ops : SaveOps W node) (filePath : String) (s : LogPrivate W) :
    W.File → Option (List UInt8) :=
  ops.filesWith filePath ops.fout s.files

theorem SaveOps.files_iff (ops : SaveOps W node) (filePath : String) (s : LogPrivate W) :
    ops.files filePath s (W.resolve filePath) = some (W.emit node) ↔ ops.Sound filePath s := by
  rw [files, filesWith, Sound]
  cases hopened : ops.opened with
  | false =>
      rw [if_neg (by decide)]
      refine ⟨fun h => .inr ⟨rfl, h⟩, ?_⟩
      rintro (h | h)
      · rw [h.opened] at hopened
        cases hopened
      · exact h.2
  | true =>
      rw [if_pos rfl, Function.update_self, Option.some.injEq, taken_all_iff hopened]
      exact ⟨.inl, fun h => h.resolve_right fun h => by cases h.1⟩

section Proper

variable (hdefined : node.isDefined = true) (hnull : node.isNull = false)

include hdefined hnull

/-- A save of a proper node returns, whatever its stream went through. -/
theorem saveThrough_returns (filePath : String) (ops : SaveOps W node) (s : LogPrivate W) :
    saveThrough node filePath ops s = .ok () { s with files := ops.files filePath s } := by
  simp only [saveThrough]
  rw [if_neg (by simp [hdefined, hnull]), ops.calls_silent]
  rfl

/-- The callers' view of a save is the one they had without the stream. -/
theorem saveAsFile_outcome (filePath : String) (ops : SaveOps W node) (s : LogPrivate W) :
    saveAsFile node filePath ops.outcome s = .ok () { s with files := ops.files filePath s } := by
  have htaken : (W.emit node).take ops.fout.taken.length = ops.fout.taken :=
    (List.prefix_iff_eq_take.1 ops.taken_prefix).symm
  simp only [saveAsFile]
  rw [if_neg (by simp [hdefined, hnull]), SaveOps.outcome, SaveOps.files, SaveOps.filesWith]
  cases ops.opened with
  | false => rfl
  | true =>
      simp only [if_true, htaken]
      rfl

theorem reports_iff (filePath : String) (ops : SaveOps W node) (s : LogPrivate W) :
    Reports filePath s ops ↔ ops.Sound filePath s := by
  have hreturns := saveThrough_returns hdefined hnull filePath ops s
  rw [← SaveOps.files_iff]
  constructor
  · intro h
    exact h.1 _ hreturns
  · intro h
    refine ⟨fun s' hs' => ?_, fun e s' hs' => ?_⟩
    · rw [hreturns] at hs'
      injection hs' with _ heq
      rw [← heq]
      exact h
    · rw [hreturns] at hs'
      injection hs'

end Proper

theorem saveAndReload_announce (env : DefaultEnv W) (rootNode : Node) (configFilePath : String)
    (s : LogPrivate W) :
    saveAndReload env rootNode configFilePath s =
      (announce env rootNode configFilePath >>= fun _ =>
        absolute env.absolute >>= fun _ => loadConfigFile env.reload configFilePath) s := by
  rw [announce, saveAndReload]
  simp only [bind_assoc]

theorem defaultDoc_proper : defaultDoc.isDefined = true ∧ defaultDoc.isNull = false := ⟨rfl, rfl⟩

theorem announcesWritten_iff {env : DefaultEnv W} {ops : SaveOps W defaultDoc}
    (hsave : env.save = ops.outcome) (filePath : String) (s : LogPrivate W) :
    AnnouncesWritten env filePath s ↔ ops.Sound filePath s := by
  have hreturns : announce env defaultDoc filePath s = .ok () { s with
      files := ops.files filePath s
      configFilePath := filePath } := by
    rw [announce, hsave]
    exact bind_of_ok (saveAsFile_outcome defaultDoc_proper.1 defaultDoc_proper.2 filePath ops s)
  rw [← SaveOps.files_iff]
  constructor
  · intro h
    exact h _ hreturns
  · intro h s' hs'
    rw [hreturns] at hs'
    injection hs' with _ heq
    rw [← heq]
    exact h

/-- A save of a proper node reports its failures exactly when there are none to
report, and the default configuration is announced truthfully only then. -/
theorem save_reports_iff (hdefined : node.isDefined = true) (hnull : node.isNull = false)
    (filePath : String) (ops : SaveOps W node) (s : LogPrivate W) :
    (Reports filePath s ops ↔ ops.Sound filePath s) ∧
      ∀ (env : DefaultEnv W) (ops : SaveOps W defaultDoc), env.save = ops.outcome →
        (AnnouncesWritten env filePath s ↔ ops.Sound filePath s) :=
  ⟨reports_iff hdefined hnull filePath ops s,
    fun _ _ hsave => announcesWritten_iff hsave filePath s⟩

/-! ## A document of one letter -/

/-- Plain names, and scalars that are emitted as they are. -/
def letterWorld : World where
  File := String
  resolve := id
  parse := fun _ => none
  emit := fun node => if node matches .scalar "a" then [0x61] else []

def letterStart : LogPrivate letterWorld where
  files := fun (_ : String) => none

/-- One piece, of which `count` bytes can be had. -/
def letterOps (opened : Bool) (count : Nat) (h : count ≤ 1) :
    SaveOps letterWorld (.scalar "a") where
  opened := opened
  pieces := [([0x61], count)]
  lost := 0
  text := rfl
  counts := by simpa using h
  losses := Nat.zero_le _

theorem save_reports_letter : Reports "a.yaml" letterStart (letterOps true 1 (by decide)) := by
  have hcomplete : (letterOps true 1 (by decide)).Complete := ⟨rfl, by simp [letterOps], rfl⟩
  exact (save_reports_iff rfl rfl "a.yaml" (letterOps true 1 (by decide)) letterStart).1.2
    (.inl hcomplete)

/-- A file that does not open, and a full disk. -/
theorem save_hides_failure :
    ¬ Reports "a.yaml" letterStart (letterOps false 1 (by decide)) ∧
      ¬ Reports "a.yaml" letterStart (letterOps true 0 (by decide)) := by
  constructor
  · intro h
    cases h.1 _ rfl
  · intro h
    cases h.1 _ rfl

end UempPlugin.Ref.Log
