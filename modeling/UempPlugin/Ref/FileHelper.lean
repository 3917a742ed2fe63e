import UempPlugin.Lib.Disk

/-!
# Paths, exceptions and `spdlog::details::file_helper`

What the sinks share: file names as character lists, the C++ exceptions the
code distinguishes, and the append-only file handle both rotating sinks write
through.

`std::FILE` buffers what it is given and flushes on close. The model writes
through: a file's bytes are what a reader of the stream would see, buffer
included, and every rename and every re-read of a log file happens after the
stream was closed, so no operation of the code can tell the difference.
-/

namespace UempPlugin.Ref

open UempPlugin.Lib

/-- Text of a file name or a format. -/
abbrev Text := List Char

abbrev Path := Text

/-- `'/'`, the separator of `std::filesystem` on POSIX. -/
def sep : Char := '/'

/-- `fs::path::operator/`. -/
def joinPath (dir name : Text) : Path :=
  if name.head? = some sep ∨ dir = [] then name
  else if dir.getLast? = some sep then dir ++ name
  else dir ++ sep :: name

/-- `fs::path::filename`: what follows the last separator. -/
def filename (p : Path) : Text := (p.reverse.takeWhile (· ≠ sep)).reverse

/-- `fs::path::parent_path`. -/
def parentPath (p : Path) : Text :=
  let rest := p.reverse.dropWhile (· ≠ sep)
  let dir := rest.dropWhile (· = sep)
  if dir = [] ∧ rest ≠ [] then [sep] else dir.reverse

/-- `std::to_string` of an unsigned number. -/
def toStr (n : Nat) : Text := Nat.toDigits 10 n

/-! The names both rotating sinks give their files: `stem.log` for the one
being written, `stem.k.log` for its backups. -/

/-- `extension_`. -/
def extension : Text := ['.', 'l', 'o', 'g']

def logPath (dir stem : Text) : Path := joinPath dir (stem ++ extension)

def backupPath (dir stem : Text) (index : Nat) : Path :=
  joinPath dir (stem ++ '.' :: toStr index ++ extension)

/-- Both, numbered as the slots of a rotation chain. -/
def chainPath (dir stem : Text) : Nat → Path
  | 0 => logPath dir stem
  | k + 1 => backupPath dir stem (k + 1)

theorem toStr_injective {m n : Nat} (h : toStr m = toStr n) : m = n := by
  have hm := Nat.ofDigitChars_ten_toDigits (n := m)
  rw [show Nat.toDigits 10 m = Nat.toDigits 10 n from h,
    Nat.ofDigitChars_ten_toDigits] at hm
  exact hm.symm

theorem isDigit_toStr {n : Nat} {c : Char} (h : c ∈ toStr n) : c.isDigit = true :=
  Nat.isDigit_of_mem_toDigits (by decide) (by decide) h

/-- Within one folder, two names with the same first character are told apart
by their paths. -/
theorem joinPath_injective {dir x y : Text} (hhead : x.head? = y.head?)
    (h : joinPath dir x = joinPath dir y) : x = y := by
  simp only [joinPath, hhead] at h
  split at h
  · exact h
  · split at h
    · exact List.append_cancel_left h
    · exact (List.cons_inj_right _).1 (List.append_cancel_left h)

theorem head_name (stem x y : Text) (c : Char) :
    (stem ++ c :: x).head? = (stem ++ c :: y).head? := by
  cases stem <;> rfl

theorem chainPath_injective (dir stem : Text) :
    Function.Injective (chainPath dir stem) := by
  have hlog : ∀ k, logPath dir stem ≠ backupPath dir stem k := by
    intro k h
    have hpath : joinPath dir (stem ++ extension) =
        joinPath dir (stem ++ '.' :: (toStr k ++ extension)) := by
      simpa [logPath, backupPath] using h
    have hname : stem ++ extension = stem ++ '.' :: (toStr k ++ extension) :=
      joinPath_injective (head_name stem _ _ '.') hpath
    have hlen := congrArg List.length (List.append_cancel_left hname)
    simp only [List.length_append, List.length_cons] at hlen
    omega
  have hback : ∀ i j, backupPath dir stem i = backupPath dir stem j → i = j := by
    intro i j h
    have hpath : joinPath dir (stem ++ '.' :: (toStr i ++ extension)) =
        joinPath dir (stem ++ '.' :: (toStr j ++ extension)) := by
      simpa [backupPath] using h
    have hname : stem ++ '.' :: (toStr i ++ extension) =
        stem ++ '.' :: (toStr j ++ extension) :=
      joinPath_injective (head_name stem _ _ '.') hpath
    have hdot := List.append_cancel_left hname
    exact toStr_injective (List.append_cancel_right ((List.cons_inj_right _).1 hdot))
  intro i j h
  match i, j with
  | 0, 0 => rfl
  | 0, j + 1 => exact absurd h (hlog (j + 1))
  | i + 1, 0 => exact absurd h.symm (hlog (i + 1))
  | i + 1, j + 1 => exact hback (i + 1) (j + 1) h

/-- The exceptions the code tells apart, with their texts. -/
inductive Exn where
  | spdlogEx (what : String)
  | runtimeError (what : String)
  | badSubscript (key : String)
  | invalidArgument (what : String)
  | filesystemError (what : String)
  | badAlloc
  -- thrown by a callback, and no `std::exception`
  | foreign
  -- no exception: a null pointer was dereferenced
  | crash
  -- no exception either: the call never comes back
  | blocked
deriving DecidableEq, Repr

/-! `file_helper::open` tries five times, creating the folder before each
attempt, and throws `spdlog_ex` when every attempt failed. -/

/-- `open_tries_`. -/
def openTries : Nat := 5

/-- The loop of `file_helper::open`; the pause between attempts is omitted. -/
def openLoop (p : Path) : Nat → Disk Path → Bool × Disk Path
  | 0, d => (false, d)
  | n + 1, d =>
      match (d.mkdirs (parentPath p)).fopen p with
      | (true, d) => (true, d)
      | (false, d) => openLoop p n d

/-- `file_helper::open`, appending. -/
def openFile (p : Path) (d : Disk Path) : Bool × Disk Path := openLoop p openTries d

def openFailed (p : Path) : Exn :=
  .spdlogEx ("Failed opening file " ++ String.ofList p ++ " for writing")

def writeFailed (p : Path) : Exn :=
  .spdlogEx ("Failed writing to file " ++ String.ofList p)

/-- `file_helper::write` on the handle `fd`; a closed handle swallows the
bytes. -/
def writeFile (fd : Option Path) (b : Bytes) (d : Disk Path) : Bool × Disk Path :=
  match fd with
  | none => (true, d)
  | some p => d.fwrite p b

/-! ## The handle when nothing fails -/

theorem openLoop_fault (p : Path) :
    ∀ (n : Nat) (d : Disk Path), (openLoop p n d).2.fault = d.fault := by
  intro n
  induction n with
  | zero => intro d; rfl
  | succ n ih =>
      intro d
      have hf : ((d.mkdirs (parentPath p)).fopen p).2.fault = d.fault := by simp
      rw [openLoop]
      split
      · next d' h => rw [← hf, h]
      · next d' h => rw [ih, ← hf, h]

theorem openFile_fault (p : Path) (d : Disk Path) : (openFile p d).2.fault = d.fault :=
  openLoop_fault p openTries d

/-- Opening succeeds at the first attempt and creates a missing file empty. -/
theorem openFile_eq {d : Disk Path} (h : d.NoFault) (p : Path) :
    openFile p d = (true, ((d.mkdirs (parentPath p)).fopen p).2) := by
  have hm : (d.mkdirs (parentPath p)).NoFault := h.of_fault rfl
  have hok := Disk.fopen_ok hm p
  rw [openFile, openTries, openLoop]
  split
  · next d' he => rw [he]
  · next d' he => rw [he] at hok; cases hok

theorem openFile_files {d : Disk Path} (h : d.NoFault) (p : Path) :
    (openFile p d).2.files =
      Function.update d.files p (some ((d.files p).getD { bytes := [] })) := by
  have hm : (d.mkdirs (parentPath p)).NoFault := h.of_fault rfl
  rw [openFile_eq h, Disk.fopen_files hm]
  rfl

theorem openFile_lost {d : Disk Path} (h : d.NoFault) (p : Path) :
    (openFile p d).2.lost = d.lost := by
  rw [openFile_eq h, Disk.fopen_lost]
  rfl

theorem openFile_moved {d : Disk Path} (h : d.NoFault) (p : Path) :
    (openFile p d).2.moved = d.moved := by
  rw [openFile_eq h, Disk.fopen_moved]
  rfl

end UempPlugin.Ref
