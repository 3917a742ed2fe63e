import UempPlugin.Lib.Chain
import UempPlugin.Lib.Lines
import UempPlugin.Ref.FileHelper

/-!
# `count_rotating_file_mt`

The sink that rotates by number of messages, function by function as
`count_rotating_file_mt_sink.hpp` has it. The constructor's arguments never
change, so they are a parameter; the mutable members and the disk are the
state. A message arrives here as the bytes the formatter produced for it.

The file opens lazily, `log_count_` is memory only, and with
`strict_count_on_open` the lines already in the file are counted each time it
is opened. Destroying a sink closes its file and a new sink over the same
arguments starts from `construct` on the disk left behind.
-/

namespace UempPlugin.Ref

open UempPlugin.Lib

/-- The constructor's arguments. -/
structure CountArgs where
  baseFilename : Text
  maxCount : Nat
  maxFiles : Nat := 0
  rotateOnOpen : Bool := false
  strictCountOnOpen : Bool := false

namespace CountArgs

/-- `dir_`. -/
def dir (a : CountArgs) : Text :=
  if parentPath a.baseFilename = [] then ['.'] else parentPath a.baseFilename

/-- `stem_`: the file name without its `.log`. -/
def stem (a : CountArgs) : Text :=
  let fname := filename a.baseFilename
  if extension.isSuffixOf fname then fname.take (fname.length - 4) else fname

/-- `base_path_`. -/
def basePath (a : CountArgs) : Path := logPath a.dir a.stem

/-- `rotated_path_`. -/
def rotatedPath (a : CountArgs) (index : Nat) : Path := backupPath a.dir a.stem index

end CountArgs

/-- The mutable members, with the disk. `fd` is `file_helper_`'s handle. -/
structure CountSink where
  logCount : Nat
  opened : Bool
  rotatedOnOpenDone : Bool
  fd : Option Path
  disk : Disk Path

namespace CountSink

/-- The constructor opens nothing; it only makes sure the folder exists. -/
def construct (a : CountArgs) (d : Disk Path) : CountSink where
  logCount := 0
  opened := false
  rotatedOnOpenDone := false
  fd := none
  disk := d.mkdirs a.dir

/-! ## Counting the lines of a file -/

/-- The size of the read buffer, `kBuf`. -/
def kBuf : Nat := 64 * 1024

/-- What successive `in.read(buf, n)` deliver; the first argument bounds the
number of reads. -/
def readChunks (n : Nat) : Nat → Bytes → List Bytes
  | 0, _ => []
  | _, [] => []
  | k + 1, b => b.take n :: readChunks n k (b.drop n)

/-- `lines`, `has_any` and `last` of `count_lines_in_file_`. -/
structure LineScan where
  lines : Nat := 0
  hasAny : Bool := false
  last : UInt8 := 0

/-- One chunk: its newlines are counted and its last byte is remembered. -/
def LineScan.chunk (s : LineScan) (c : Bytes) : LineScan where
  lines := c.foldl (fun n b => if b = newline then n + 1 else n) s.lines
  hasAny := true
  last := c.getLast?.getD s.last

/-- The loop stops at the first empty read. -/
def scanLoop : LineScan → List Bytes → LineScan
  | s, [] => s
  | s, c :: cs => if c = [] then s else scanLoop (s.chunk c) cs

/-- `count_lines_in_file_`, over the chunks read. -/
def countLinesInFile (chunks : List Bytes) : Nat :=
  let s := scanLoop {} chunks
  if s.hasAny ∧ s.last ≠ newline then s.lines + 1 else s.lines

/-- An `in.read`: the `gcount` bytes it stores, and whether `in` is still good
then. -/
structure Read where
  bytes : Bytes
  good : Bool

/-- The reads of a file through a buffer of `n` bytes. The one that meets the
end of the file comes back short, or empty, and leaves `in` bad; the second
argument bounds the number of reads. -/
def fileReads (n : Nat) : Nat → Bytes → List Read
  | 0, _ => [⟨[], false⟩]
  | k + 1, b =>
      if b.length < n then [⟨b, false⟩] else ⟨b.take n, true⟩ :: fileReads n k (b.drop n)

/-- `while (in)` over the reads: it breaks at an empty one, and one that leaves
`in` bad is the last. -/
def readLoop : LineScan → List Read → LineScan
  | s, [] => s
  | s, r :: rs =>
      if r.bytes = [] then s
      else if r.good then readLoop (s.chunk r.bytes) rs
      else s.chunk r.bytes

/-- `count_lines_in_file_`, over the reads of a stream that opened. -/
def countLinesRead (reads : List Read) : Nat :=
  let s := readLoop {} reads
  if s.hasAny ∧ s.last ≠ newline then s.lines + 1 else s.lines

/-! ## Rotation -/

/-- The middle loop of `rotate_files_`, from slot `i` down to slot 1. -/
def shiftBackups (a : CountArgs) : Nat → Disk Path → Disk Path
  | 0, d => d
  | i + 1, d => shiftBackups a i (d.moveOver (a.rotatedPath (i + 1)) (a.rotatedPath (i + 2)))

/-- `rotate_files_`: close, drop the oldest backup, shift the others, and move
the current file to slot 1. Without backups it only closes. -/
def rotateFiles (a : CountArgs) (s : CountSink) : CountSink :=
  let s := { s with fd := none, opened := false, logCount := 0 }
  if a.maxFiles = 0 then s
  else
    let d := s.disk.unlink (a.rotatedPath a.maxFiles)
    let d := shiftBackups a (a.maxFiles - 1) d
    { s with disk := d.moveOver a.basePath (a.rotatedPath 1) }

/-! ## Opening -/

/-- `adjust_for_strict_on_open_`. -/
def adjustForStrictOnOpen (a : CountArgs) (s : CountSink) : CountSink :=
  if !a.strictCountOnOpen ∨ a.maxCount = 0 then { s with logCount := 0 }
  else
    match s.disk.stat a.basePath with
    | (false, d) => { s with logCount := 0, disk := d }
    | (true, d) =>
        let (b, d) := d.fread a.basePath
        let lines := countLinesInFile (readChunks kBuf b.length b)
        let s := { s with disk := d }
        if lines ≥ a.maxCount then { rotateFiles a s with logCount := 0 }
        else { s with logCount := lines }

/-- `ensure_opened_for_write_`. -/
def ensureOpenedForWrite (a : CountArgs) : EStateM Exn CountSink Unit := fun s =>
  if s.opened then .ok () s
  else
    let s := adjustForStrictOnOpen a s
    match openFile a.basePath s.disk with
    | (true, d) => .ok () { s with fd := some a.basePath, opened := true, disk := d }
    | (false, d) => .error (openFailed a.basePath) { s with fd := none, disk := d }

/-! ## `sink_it_`, stage by stage -/

/-- The first write of a sink rotates a file that is already there, when
`rotate_on_open` asks for it. -/
def rotateOnFirstWrite (a : CountArgs) (s : CountSink) : CountSink :=
  if s.rotatedOnOpenDone then s
  else if a.rotateOnOpen ∧ a.maxFiles > 0 then
    match s.disk.stat a.basePath with
    | (true, d) => { rotateFiles a { s with disk := d } with rotatedOnOpenDone := true }
    | (false, d) => { s with disk := d, rotatedOnOpenDone := true }
  else { s with rotatedOnOpenDone := true }

/-- Before opening: a full counter rotates, or is pinned when there are no
backups to rotate into. -/
def rotateBeforeOpen (a : CountArgs) : EStateM Exn CountSink Unit := fun s =>
  if s.logCount ≥ a.maxCount then
    if a.maxFiles > 0 then ensureOpenedForWrite a (rotateFiles a s)
    else .ok () { s with logCount := a.maxCount }
  else .ok () s

/-- After opening: the count found in the file may be full as well. -/
def rotateAfterOpen (a : CountArgs) : EStateM Exn CountSink Unit := fun s =>
  if s.logCount ≥ a.maxCount then ensureOpenedForWrite a (rotateFiles a s)
  else .ok () s

/-- `file_helper_.write(buf)` and `++log_count_`. -/
def writeMessage (msg : Bytes) : EStateM Exn CountSink Unit := fun s =>
  match writeFile s.fd msg s.disk with
  | (true, d) => .ok () { s with disk := d, logCount := s.logCount + 1 }
  | (false, d) => .error (writeFailed (s.fd.getD [])) { s with disk := d }

/-- After writing: a full file is closed and rotated away at once. -/
def rotateAfterWrite (a : CountArgs) (s : CountSink) : CountSink :=
  if s.logCount ≥ a.maxCount then rotateFiles a s else s

/-- `sink_it_`. -/
def sinkIt (a : CountArgs) (msg : Bytes) : EStateM Exn CountSink Unit := do
  modify (rotateOnFirstWrite a)
  rotateBeforeOpen a
  ensureOpenedForWrite a
  rotateAfterOpen a
  writeMessage msg
  modify (rotateAfterWrite a)

/-! ## Runs -/

/-- What happens to the log: a message, or the sink is destroyed and built
again. -/
inductive Event where
  | log (msg : Bytes)
  | restart

/-- The messages of a run, in order. -/
def messages : List Event → List Bytes
  | [] => []
  | .log m :: evs => m :: messages evs
  | .restart :: evs => messages evs

/-- One event. The logger swallows what `sink_it_` throws. -/
def step (a : CountArgs) (s : CountSink) : Event → CountSink
  | .log m =>
      match sinkIt a m s with
      | .ok _ s' => s'
      | .error _ s' => s'
  | .restart => construct a s.disk

def run (a : CountArgs) (s : CountSink) (evs : List Event) : CountSink :=
  evs.foldl (step a) s

/-- The sink's files, by slot: 0 is `stem.log`, `k` is `stem.k.log`. -/
def chain (a : CountArgs) (s : CountSink) : Chain File :=
  Disk.chain (chainPath a.dir a.stem) s.disk

theorem messages_cons (e : Event) (evs : List Event) :
    messages (e :: evs) = messages [e] ++ messages evs := by
  cases e <;> rfl

end CountSink

end UempPlugin.Ref
