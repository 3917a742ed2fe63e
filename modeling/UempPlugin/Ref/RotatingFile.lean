import UempPlugin.Lib.Rolling
import UempPlugin.Ref.DailySize
import UempPlugin.Ref.Logger

/-!
# `spdlog::sinks::rotating_file_sink`

The library's own sink that rotates by size, which a configuration names
`rotating_file_mt`, function by function. Unlike the two sinks of this
repository it holds its file open from its construction on, it looks at the
real size of the file before it rotates, and it reopens the file by truncating
it.

`file_helper_` keeps the name it opened, so `reopen` opens the base file again.
`flush` has nothing to do here, where every write goes through.
-/

namespace UempPlugin.Ref

open UempPlugin.Lib

structure RotatingArgs where
  baseFilename : Path
  maxSize : Nat
  maxFiles : Nat
  rotateOnOpen : Bool := false

/-- `rotating_file_sink::calc_filename`. -/
def calcPath (filename : Path) (index : Nat) : Path :=
  if index = 0 then filename
  else
    let (base, ext) := Log.splitByExtension filename
    base ++ '.' :: toStr index ++ ext

structure RotatingSink where
  currentSize : Nat
  fd : Option Path
  disk : Disk Path

namespace RotatingSink

/-! ## The file -/

/-- The loop of `file_helper::open` with `truncate`: the file is emptied by
opening and closing it, and then opened for appending. -/
def truncateLoop (p : Path) : Nat → Disk Path → Bool × Disk Path
  | 0, d => (false, d)
  | n + 1, d =>
      match (d.mkdirs (parentPath p)).truncate p with
      | (false, d) => truncateLoop p n d
      | (true, d) =>
          match d.fopen p with
          | (true, d) => (true, d)
          | (false, d) => truncateLoop p n d

/-- `file_helper_.reopen(true)`. -/
def reopen (a : RotatingArgs) : EStateM Exn RotatingSink Unit := fun s =>
  match truncateLoop a.baseFilename openTries s.disk with
  | (true, d) => .ok () { s with fd := some a.baseFilename, disk := d }
  | (false, d) => .error (openFailed a.baseFilename) { s with fd := none, disk := d }

/-! ## Rotation -/

/-- `rename_file_`: deletes the target if it exists, and says whether the rename
succeeded. -/
def renameFile (src target : Path) (d : Disk Path) : Bool × Disk Path :=
  let d := d.unlink target
  ((d.refuses (.rename src target)).isNone && (d.files src).isSome, d.rename src target)

def renameFailed (src target : Path) : Exn :=
  .spdlogEx ("rotating_file_sink: failed renaming " ++ String.ofList src ++ " to " ++
    String.ofList target)

/-- One round of the loop of `rotate_`, from the file with index `i` to the next:
a rename that fails twice truncates the log file and ends the rotation. -/
def moveBackup (a : RotatingArgs) (i : Nat) : EStateM Exn RotatingSink Unit := fun s =>
  let src := calcPath a.baseFilename i
  let target := calcPath a.baseFilename (i + 1)
  match s.disk.stat src with
  | (false, d) => .ok () { s with disk := d }
  | (true, d) =>
      match renameFile src target d with
      | (true, d) => .ok () { s with disk := d }
      | (false, d) =>
          match renameFile src target d with
          | (true, d) => .ok () { s with disk := d }
          | (false, d) =>
              match reopen a { s with disk := d } with
              | .ok _ s => .error (renameFailed src target) { s with currentSize := 0 }
              | .error e s => .error e s

/-- The loop of `rotate_`, counting down. -/
def rotateLoop (a : RotatingArgs) : Nat → EStateM Exn RotatingSink Unit
  | 0 => pure ()
  | i + 1 => do
      moveBackup a i
      rotateLoop a i

/-- `rotate_`. -/
def rotate (a : RotatingArgs) : EStateM Exn RotatingSink Unit := do
  modify fun s => { s with fd := none }
  rotateLoop a a.maxFiles
  reopen a

/-! ## Construction -/

/-- The rotation of `rotate_on_open`. -/
def rotateOnOpen (a : RotatingArgs) (s : RotatingSink) :
    EStateM.Result Exn (Disk Path) RotatingSink :=
  if a.rotateOnOpen ∧ s.currentSize > 0 then
    match rotate a s with
    | .ok _ s => .ok { s with currentSize := 0 } s.disk
    | .error e s => .error e s.disk
  else .ok s s.disk

/-- The constructor; when it throws, the disk is what remains. -/
def construct (a : RotatingArgs) : EStateM Exn (Disk Path) RotatingSink := fun d =>
  if a.maxSize = 0 then
    .error (.spdlogEx "rotating sink constructor: max_size arg cannot be zero") d
  else if a.maxFiles > 200000 then
    .error (.spdlogEx "rotating sink constructor: max_files arg cannot exceed MaxFiles") d
  else
    match openFile a.baseFilename d with
    | (false, d) => .error (openFailed a.baseFilename) d
    | (true, d) =>
        match DailySink.fileSize (some a.baseFilename) d with
        | (none, d) => .error DailySink.sizeFailed d
        | (some n, d) =>
            rotateOnOpen a { currentSize := n, fd := some a.baseFilename, disk := d }

/-! ## `sink_it_` -/

/-- What `file_helper_.size()` throws. -/
def sizeFailed (a : RotatingArgs) : Option Path → Exn
  | none => .spdlogEx ("Cannot use size() on closed file " ++ String.ofList a.baseFilename)
  | some _ => DailySink.sizeFailed

/-- The rotation before a message that does not fit, unless the file is really
empty, and `new_size`. -/
def makeRoom (a : RotatingArgs) (msg : Bytes) : EStateM Exn RotatingSink Nat := fun s =>
  let newSize := s.currentSize + msg.length
  if newSize > a.maxSize then
    match DailySink.fileSize s.fd s.disk with
    | (none, d) => .error (sizeFailed a s.fd) { s with disk := d }
    | (some n, d) =>
        if n > 0 then
          match rotate a { s with disk := d } with
          | .ok _ s => .ok msg.length s
          | .error e s => .error e s
        else .ok newSize { s with disk := d }
  else .ok newSize s

/-- `file_helper_.write(formatted)` and `current_size_ = new_size`. -/
def writeMessage (msg : Bytes) (newSize : Nat) : EStateM Exn RotatingSink Unit := fun s =>
  match writeFile s.fd msg s.disk with
  | (true, d) => .ok () { s with currentSize := newSize, disk := d }
  | (false, d) => .error (writeFailed (s.fd.getD [])) { s with disk := d }

def sinkIt (a : RotatingArgs) (msg : Bytes) : EStateM Exn RotatingSink Unit := do
  let newSize ← makeRoom a msg
  writeMessage msg newSize

/-! ## Runs -/

inductive Event where
  | log (msg : Bytes)
  | restart

/-- The messages of a run, in order. -/
def messages : List Event → List Bytes
  | [] => []
  | .log m :: evs => m :: messages evs
  | .restart :: evs => messages evs

/-- One event. The logger swallows what `sink_it_` throws; what the constructor
throws goes to whoever loads the configuration. -/
def step (a : RotatingArgs) (s : RotatingSink) : Event → Except Exn RotatingSink
  | .log m =>
      match sinkIt a m s with
      | .ok _ s' => .ok s'
      | .error _ s' => .ok s'
  | .restart =>
      match construct a s.disk with
      | .ok s' _ => .ok s'
      | .error e _ => .error e

def run (a : RotatingArgs) (s : RotatingSink) : List Event → Except Exn RotatingSink
  | [] => .ok s
  | e :: evs =>
      match step a s e with
      | .ok s' => run a s' evs
      | .error e => .error e

end RotatingSink

end UempPlugin.Ref
