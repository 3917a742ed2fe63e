import Mathlib.Logic.Function.Basic

/-!
# A file system whose calls may fail

A `Disk` is a finite set of named byte files together with an oracle that
decides, call by call, whether the operating system refuses. Every operation
consults the oracle once and advances the call counter, so one oracle fixes
the outcome of a whole run, and quantifying over oracles quantifies over every
way the calls can fail.

Two fields are ghost state, kept for statements only and never read by an
operation: `lost` collects the files that were destroyed, whether deleted or
overwritten by a rename, and `moved` the renames that took effect. A file's
`written` mark is ghost as well: it says that somebody appended to the file
since the observation began.

The second half of the file is about the disk on which nothing fails. There
each operation is an equation on `files`, which is the form in which every
later proof uses it.
-/

namespace UempPlugin.Lib

/-- A byte string: what a file holds, or what is written to it. -/
abbrev Bytes := List UInt8

/-- A regular file. `written` is ghost: set by the first append. -/
structure File where
  bytes : Bytes
  written : Bool := false
deriving DecidableEq, Repr

/-- The calls the oracle is asked about. -/
inductive Call (P : Type) where
  | stat (p : P)
  | unlink (p : P)
  | rename (src dst : P)
  | fopen (p : P)
  | fwrite (p : P)
  | fread (p : P)
  | mkdirs (p : P)
deriving DecidableEq, Repr

/-- The files by name, the oracle, and the number of calls made so far.
`fault n c = some k` refuses call number `n`; a refused write or read gets
through to its first `k` bytes. -/
structure Disk (P : Type) where
  files : P → Option File
  fault : Nat → Call P → Option Nat := fun _ _ => none
  calls : Nat := 0
  lost : List File := []
  moved : List (P × P × File) := []

namespace Disk

variable {P : Type}

/-- Begin the observation now: no file has been written to yet. -/
def observe (d : Disk P) : Disk P :=
  { d with files := fun p => (d.files p).map fun f => { f with written := false } }

/-- The oracle's answer to the call made now. -/
def refuses (d : Disk P) (c : Call P) : Option Nat := d.fault d.calls c

/-- One more call has been made. -/
def tick (d : Disk P) : Disk P := { d with calls := d.calls + 1 }

/-- No call on this disk ever fails. -/
def NoFault (d : Disk P) : Prop := ∀ n c, d.fault n c = none

/-- Does the file exist? A refused call answers no. -/
def stat (p : P) (d : Disk P) : Bool × Disk P :=
  ((d.refuses (.stat p)).isNone && (d.files p).isSome, d.tick)

/-- Create a directory; only files are modelled, so only the call counts. -/
def mkdirs (_p : P) (d : Disk P) : Disk P := d.tick

/-- Read a whole file; a missing or refused file reads as its first bytes,
none at all when it could not be opened. -/
def fread (p : P) (d : Disk P) : Bytes × Disk P :=
  match d.refuses (.fread p), d.files p with
  | none, some f => (f.bytes, d.tick)
  | some n, some f => (f.bytes.take n, d.tick)
  | _, none => ([], d.tick)

variable [DecidableEq P]

/-- Delete a file. -/
def unlink (p : P) (d : Disk P) : Disk P :=
  match d.refuses (.unlink p), d.files p with
  | none, some f =>
      { d.tick with
        files := Function.update d.files p none
        lost := d.lost ++ [f] }
  | _, _ => d.tick

/-- Rename a file over whatever bears the new name. -/
def rename (src dst : P) (d : Disk P) : Disk P :=
  match d.refuses (.rename src dst), d.files src with
  | none, some f =>
      { d.tick with
        files := Function.update (Function.update d.files src none) dst (some f)
        lost := d.lost ++ (d.files dst).toList
        moved := d.moved ++ [(src, dst, f)] }
  | _, _ => d.tick

/-- Open for appending, creating the file when it is missing. -/
def fopen (p : P) (d : Disk P) : Bool × Disk P :=
  match d.refuses (.fopen p), d.files p with
  | some _, _ => (false, d.tick)
  | none, some _ => (true, d.tick)
  | none, none =>
      (true, { d.tick with files := Function.update d.files p (some { bytes := [] }) })

/-- The bytes reach the end of the file, if there is one. -/
def append (p : P) (b : Bytes) (d : Disk P) : Disk P :=
  match d.files p with
  | some f =>
      { d with
        files := Function.update d.files p
          (some { bytes := f.bytes ++ b, written := true }) }
  | none => d

/-- Write to an open file. -/
def fwrite (p : P) (b : Bytes) (d : Disk P) : Bool × Disk P :=
  match d.refuses (.fwrite p) with
  | none => (true, (d.append p b).tick)
  | some n => (false, (d.append p (b.take n)).tick)

/-- Replace `dst` by `src`, deleting `dst` first, when `src` exists. -/
def moveOver (src dst : P) (d : Disk P) : Disk P :=
  match d.stat src with
  | (true, d) => rename src dst (unlink dst d)
  | (false, d) => d

/-! ## The oracle is never changed -/

omit [DecidableEq P] in
@[simp] theorem tick_fault (d : Disk P) : d.tick.fault = d.fault := rfl

omit [DecidableEq P] in
@[simp] theorem stat_fault (d : Disk P) (p : P) : (d.stat p).2.fault = d.fault := rfl

omit [DecidableEq P] in
@[simp] theorem mkdirs_fault (d : Disk P) (p : P) : (d.mkdirs p).fault = d.fault := rfl

omit [DecidableEq P] in
@[simp] theorem fread_fault (d : Disk P) (p : P) : (d.fread p).2.fault = d.fault := by
  unfold fread; split <;> rfl

@[simp] theorem unlink_fault (d : Disk P) (p : P) : (d.unlink p).fault = d.fault := by
  unfold unlink; split <;> rfl

@[simp] theorem rename_fault (d : Disk P) (src dst : P) :
    (d.rename src dst).fault = d.fault := by
  unfold rename; split <;> rfl

@[simp] theorem fopen_fault (d : Disk P) (p : P) : (d.fopen p).2.fault = d.fault := by
  unfold fopen; split <;> rfl

@[simp] theorem append_fault (d : Disk P) (p : P) (b : Bytes) :
    (d.append p b).fault = d.fault := by
  unfold append; split <;> rfl

@[simp] theorem fwrite_fault (d : Disk P) (p : P) (b : Bytes) :
    (d.fwrite p b).2.fault = d.fault := by
  unfold fwrite; split <;> simp

@[simp] theorem moveOver_fault (d : Disk P) (src dst : P) :
    (d.moveOver src dst).fault = d.fault := by
  unfold moveOver stat
  split <;> rename_i h <;> injection h with _ h <;> subst h <;> simp

omit [DecidableEq P] in
theorem NoFault.of_fault {d d' : Disk P} (h : d.NoFault) (he : d'.fault = d.fault) :
    d'.NoFault := fun n c => by rw [he]; exact h n c

omit [DecidableEq P] in
theorem NoFault.refuses {d : Disk P} (h : d.NoFault) (c : Call P) :
    d.refuses c = none := h d.calls c

/-! ## An opened file is there, and stays there while it is written -/

theorem fopen_isSome (d : Disk P) (p : P) (h : (d.fopen p).1 = true) :
    ((d.fopen p).2.files p).isSome := by
  rw [fopen] at h ⊢
  split at h
  · cases h
  · next f _ hf => exact Option.isSome_iff_exists.2 ⟨f, hf⟩
  · simp

theorem fwrite_isSome {d : Disk P} {p : P} (h : (d.files p).isSome) (b : Bytes) :
    ((d.fwrite p b).2.files p).isSome := by
  obtain ⟨f, hf⟩ := Option.isSome_iff_exists.1 h
  rw [fwrite]
  split <;> simp [append, hf, tick]

/-- A write that succeeds appends all its bytes. -/
theorem fwrite_ok {d : Disk P} {p : P} {b : Bytes} {f : File} (hf : d.files p = some f)
    (h : (d.fwrite p b).1 = true) :
    (d.fwrite p b).2.files p = some { bytes := f.bytes ++ b, written := true } := by
  rw [fwrite] at h ⊢
  split at h
  · simp [append, hf, tick]
  · cases h

/-! ## The files a call does not name are left alone, whatever fails -/

section Other

variable {p q : P}

theorem unlink_other (d : Disk P) (h : q ≠ p) : (d.unlink p).files q = d.files q := by
  rw [unlink]
  split
  · exact Function.update_of_ne h _ _
  · rfl

theorem rename_other (d : Disk P) {src dst : P} (hs : q ≠ src) (hd : q ≠ dst) :
    (d.rename src dst).files q = d.files q := by
  rw [rename]
  split
  · simp only
    rw [Function.update_of_ne hd, Function.update_of_ne hs]
  · rfl

theorem moveOver_other (d : Disk P) {src dst : P} (hs : q ≠ src) (hd : q ≠ dst) :
    (d.moveOver src dst).files q = d.files q := by
  simp only [moveOver, stat]
  split
  · next h =>
      injection h with _ h
      rw [rename_other _ hs hd, unlink_other _ hd, ← h]
      rfl
  · next h =>
      injection h with _ h
      rw [← h]
      rfl

theorem fopen_other (d : Disk P) (h : q ≠ p) : (d.fopen p).2.files q = d.files q := by
  rw [fopen]
  split
  · rfl
  · rfl
  · exact Function.update_of_ne h _ _

theorem append_other (d : Disk P) (b : Bytes) (h : q ≠ p) : (d.append p b).files q = d.files q := by
  rw [append]
  split
  · exact Function.update_of_ne h _ _
  · rfl

theorem fwrite_other (d : Disk P) (b : Bytes) (h : q ≠ p) :
    (d.fwrite p b).2.files q = d.files q := by
  rw [fwrite]
  split
  · exact append_other d b h
  · exact append_other d _ h

end Other

/-! ## What each call does when nothing fails -/

omit [DecidableEq P] in
@[simp] theorem tick_files (d : Disk P) : d.tick.files = d.files := rfl

omit [DecidableEq P] in
@[simp] theorem tick_lost (d : Disk P) : d.tick.lost = d.lost := rfl

omit [DecidableEq P] in
@[simp] theorem tick_moved (d : Disk P) : d.tick.moved = d.moved := rfl

omit [DecidableEq P] in
theorem stat_eq {d : Disk P} (h : d.NoFault) (p : P) :
    d.stat p = ((d.files p).isSome, d.tick) := by
  simp [stat, h.refuses]

omit [DecidableEq P] in
theorem fread_eq {d : Disk P} (h : d.NoFault) {p : P} {f : File}
    (hf : d.files p = some f) : d.fread p = (f.bytes, d.tick) := by
  simp [fread, h.refuses, hf]

theorem unlink_files {d : Disk P} (h : d.NoFault) (p : P) :
    (d.unlink p).files = Function.update d.files p none := by
  unfold unlink
  rw [h.refuses]
  cases hf : d.files p with
  | none => simp only [tick_files]; rw [← hf, Function.update_eq_self]
  | some f => rfl

theorem unlink_lost {d : Disk P} (h : d.NoFault) (p : P) :
    (d.unlink p).lost = d.lost ++ (d.files p).toList := by
  unfold unlink
  rw [h.refuses]
  cases hf : d.files p <;> simp

@[simp] theorem unlink_moved (d : Disk P) (p : P) : (d.unlink p).moved = d.moved := by
  unfold unlink; split <;> rfl

theorem rename_files {d : Disk P} (h : d.NoFault) {src : P} (dst : P) {f : File}
    (hf : d.files src = some f) :
    (d.rename src dst).files =
      Function.update (Function.update d.files src none) dst (some f) := by
  unfold rename
  rw [h.refuses, hf]

theorem rename_lost {d : Disk P} (h : d.NoFault) {src : P} (dst : P) {f : File}
    (hf : d.files src = some f) :
    (d.rename src dst).lost = d.lost ++ (d.files dst).toList := by
  unfold rename
  rw [h.refuses, hf]

theorem fopen_ok {d : Disk P} (h : d.NoFault) (p : P) : (d.fopen p).1 = true := by
  unfold fopen
  rw [h.refuses]
  cases d.files p <;> rfl

theorem fopen_files {d : Disk P} (h : d.NoFault) (p : P) :
    (d.fopen p).2.files =
      Function.update d.files p (some ((d.files p).getD { bytes := [] })) := by
  unfold fopen
  rw [h.refuses]
  cases hf : d.files p with
  | none => rfl
  | some f =>
      simp only [tick_files, Option.getD_some]
      rw [← hf, Function.update_eq_self]

@[simp] theorem fopen_lost (d : Disk P) (p : P) : (d.fopen p).2.lost = d.lost := by
  unfold fopen; split <;> rfl

@[simp] theorem fopen_moved (d : Disk P) (p : P) : (d.fopen p).2.moved = d.moved := by
  unfold fopen; split <;> rfl

@[simp] theorem append_lost (d : Disk P) (p : P) (b : Bytes) :
    (d.append p b).lost = d.lost := by
  unfold append; split <;> rfl

@[simp] theorem append_moved (d : Disk P) (p : P) (b : Bytes) :
    (d.append p b).moved = d.moved := by
  unfold append; split <;> rfl

theorem append_files {d : Disk P} {p : P} {f : File} (hf : d.files p = some f)
    (b : Bytes) :
    (d.append p b).files =
      Function.update d.files p (some { bytes := f.bytes ++ b, written := true }) := by
  unfold append
  rw [hf]

theorem fwrite_eq {d : Disk P} (h : d.NoFault) (p : P) (b : Bytes) :
    d.fwrite p b = (true, (d.append p b).tick) := by
  unfold fwrite
  rw [h.refuses]

/-! A guarded move, as one equation: a missing source changes nothing, and
over a vacant destination a present one is moved without loss. -/

theorem moveOver_files_none {d : Disk P} (h : d.NoFault) {src : P} (dst : P)
    (hs : d.files src = none) : (d.moveOver src dst).files = d.files := by
  unfold moveOver
  rw [stat_eq h, hs]
  rfl

theorem moveOver_files_some {d : Disk P} (h : d.NoFault) {src dst : P} {f : File}
    (hne : src ≠ dst) (hs : d.files src = some f) :
    (d.moveOver src dst).files =
      Function.update (Function.update d.files src none) dst (some f) := by
  have ht : d.tick.NoFault := h.of_fault rfl
  have hu : (d.tick.unlink dst).NoFault := ht.of_fault (unlink_fault _ _)
  have hsrc : (d.tick.unlink dst).files src = some f := by
    rw [unlink_files ht, Function.update_of_ne hne]; exact hs
  unfold moveOver
  rw [stat_eq h, hs]
  simp only [Option.isSome_some]
  rw [rename_files hu dst hsrc, unlink_files ht, tick_files,
    Function.update_comm hne, Function.update_idem, Function.update_comm hne.symm]

theorem moveOver_lost {d : Disk P} (h : d.NoFault) {src dst : P}
    (hne : src ≠ dst) (hd : d.files dst = none) :
    (d.moveOver src dst).lost = d.lost := by
  have ht : d.tick.NoFault := h.of_fault rfl
  have hu : (d.tick.unlink dst).NoFault := ht.of_fault (unlink_fault _ _)
  unfold moveOver
  rw [stat_eq h]
  cases hs : d.files src with
  | none => rfl
  | some f =>
      have hsrc : (d.tick.unlink dst).files src = some f := by
        rw [unlink_files ht, Function.update_of_ne hne]; exact hs
      simp only [Option.isSome_some]
      rw [rename_lost hu dst hsrc, unlink_lost ht, unlink_files ht]
      simp [hd]

end Disk

end UempPlugin.Lib
