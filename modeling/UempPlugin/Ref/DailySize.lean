import UempPlugin.Lib.Chain
import UempPlugin.Ref.DateFormat
import Mathlib.Algebra.Group.Nat.Defs

/-!
# `daily_size_rotating_file_mt`

The sink that starts a group of files each day and rotates by size within the
group, function by function as `daily_size_rotating_file_mt_sink.hpp` has it.
The clock is read once by the constructor and once by every `sink_it_`, so a
reading comes with each event; the time zone is a parameter.

Unlike the count sink this one opens its file before it rotates for size, so
that the size it compares is that of the file on disk, and it never rotates
after a write: the base file is there whenever a call has returned.
-/

namespace UempPlugin.Ref

open UempPlugin.Lib

/-- The constructor's arguments. -/
structure DailyArgs where
  dir : Path
  namePattern : Text
  dateFormat : Text
  rotationHour : Int
  rotationMin : Int
  maxSizeBits : Nat
  maxFiles : Nat
  rotateOnOpen : Bool := false

namespace DailyArgs

/-- `max_size_bytes_`, computed in 64 bits. -/
def maxSizeBytes (a : DailyArgs) : Nat := (a.maxSizeBits + 7) % 2 ^ 64 / 8

/-- `current_base_path_`, for a base name. -/
def basePath (a : DailyArgs) (basename : Text) : Path := logPath a.dir basename

/-- `rotated_path_`. -/
def rotatedPath (a : DailyArgs) (basename : Text) (index : Nat) : Path :=
  backupPath a.dir basename index

/-- `make_basename_for_tp_`. -/
def basenameAt (a : DailyArgs) (zone : Zone) (tp : Int) : Text :=
  makeBasename zone a.namePattern a.dateFormat tp

end DailyArgs

/-- The mutable members, with the disk. -/
structure DailySink where
  currentBasename : Text
  nextRotation : Int
  currentSizeBytes : Nat
  opened : Bool
  rotatedOnOpenDone : Bool
  fd : Option Path
  disk : Disk Path

namespace DailySink

/-! ## The rotation clock -/

/-- `compute_next_rotation_`: today's rotation time if it is still to come,
else 24 hours after it. -/
def computeNextRotation (a : DailyArgs) (zone : Zone) (tpNow : Int) : Int :=
  let now := zone.localtime (toTimeT tpNow)
  let rotTm := { now with hour := a.rotationHour, min := a.rotationMin, sec := 0 }
  let tpRotToday := fromTimeT (zone.mktime rotTm)
  if tpNow < tpRotToday then tpRotToday else tpRotToday + hours 24

/-- The catching-up loop of `rotate_if_needed_by_time_`; the number bounds the
rounds. -/
def catchUp (tp : Int) : Nat → Int → Int
  | 0, next => next
  | k + 1, next => if next ≤ tp then catchUp tp k (next + hours 24) else next

/-- The base name and the rotation time read off the clock. -/
def updateTargetsForNow (a : DailyArgs) (zone : Zone) (now : Int) (s : DailySink) :
    DailySink :=
  { s with
    currentBasename := a.basenameAt zone now
    nextRotation := computeNextRotation a zone now }

/-! ## Construction -/

/-- The body of the constructor, after its checks. -/
def start (a : DailyArgs) (zone : Zone) (now : Int) (d : Disk Path) : DailySink :=
  updateTargetsForNow a zone now
    { currentBasename := []
      nextRotation := 0
      currentSizeBytes := 0
      opened := false
      rotatedOnOpenDone := false
      fd := none
      disk := d.mkdirs a.dir }

def construct (a : DailyArgs) (zone : Zone) (now : Int) (d : Disk Path) :
    Except Exn DailySink :=
  if a.rotationHour < 0 ∨ a.rotationHour > 23 ∨ a.rotationMin < 0 ∨ a.rotationMin > 59 then
    .error (.invalidArgument "rotation time invalid")
  else if a.maxSizeBytes = 0 then .error (.invalidArgument "max_size_bits must be > 0")
  else .ok (start a zone now d)

/-! ## Rotation -/

/-- `close_file_`. -/
def closeFile (s : DailySink) : DailySink :=
  { s with fd := none, opened := false, currentSizeBytes := 0 }

/-- `rotate_if_needed_by_time_`. -/
def rotateIfNeededByTime (a : DailyArgs) (zone : Zone) (now : Int) (s : DailySink) :
    DailySink :=
  if now < s.nextRotation then s
  else
    let next := computeNextRotation a zone now
    { closeFile s with
      currentBasename := a.basenameAt zone now
      nextRotation := catchUp now ((now - next).toNat + 1) next
      rotatedOnOpenDone := false }

/-- The middle loop of `rotate_by_size_chain_`, for `i = max_files_ .. 2`. -/
def shiftChain (a : DailyArgs) (basename : Text) : Nat → Disk Path → Disk Path
  | i + 2, d =>
      shiftChain a basename (i + 1)
        (d.moveOver (a.rotatedPath basename (i + 1)) (a.rotatedPath basename (i + 2)))
  | _, d => d

/-- `rotate_by_size_chain_`. -/
def rotateBySizeChain (a : DailyArgs) (s : DailySink) : DailySink :=
  if a.maxFiles = 0 then s
  else
    let b := s.currentBasename
    let d := s.disk.unlink (a.rotatedPath b a.maxFiles)
    let d := shiftChain a b a.maxFiles d
    { closeFile s with disk := d.moveOver (a.basePath b) (a.rotatedPath b 1) }

/-! ## Opening -/

/-- `file_helper::size`; on a closed handle it throws as well. -/
def fileSize (fd : Option Path) (d : Disk Path) : Option Nat × Disk Path :=
  match fd with
  | none => (none, d)
  | some p =>
      match d.refuses (.stat p), d.files p with
      | none, some f => (some f.bytes.length, d.tick)
      | _, _ => (none, d.tick)

def sizeFailed : Exn := .spdlogEx "Failed getting file size from fd"

/-- `ensure_opened_for_write_`. -/
def ensureOpenedForWrite (a : DailyArgs) : EStateM Exn DailySink Unit := fun s =>
  if s.opened then .ok () s
  else
    let p := a.basePath s.currentBasename
    match openFile p s.disk with
    | (false, d) => .error (openFailed p) { s with fd := none, disk := d }
    | (true, d) =>
        match fileSize (some p) d with
        | (some n, d) =>
            .ok () { s with fd := some p, opened := true, currentSizeBytes := n, disk := d }
        | (none, d) => .error sizeFailed { s with fd := some p, opened := true, disk := d }

/-! ## `sink_it_`, stage by stage -/

/-- The first write to a group rotates a file that is already there, when
`rotate_on_open` asks for it. -/
def rotateOnFirstWrite (a : DailyArgs) (s : DailySink) : DailySink :=
  if s.rotatedOnOpenDone then s
  else if a.rotateOnOpen ∧ a.maxFiles > 0 then
    match s.disk.stat (a.basePath s.currentBasename) with
    | (true, d) => { rotateBySizeChain a { s with disk := d } with rotatedOnOpenDone := true }
    | (false, d) => { s with disk := d, rotatedOnOpenDone := true }
  else { s with rotatedOnOpenDone := true }

/-- A message that would take the file over its limit rotates it first. -/
def rotateBeforeWrite (a : DailyArgs) (msg : Bytes) : EStateM Exn DailySink Unit := fun s =>
  if a.maxFiles > 0 ∧ s.currentSizeBytes + msg.length > a.maxSizeBytes then
    ensureOpenedForWrite a (rotateBySizeChain a s)
  else .ok () s

/-- `file_helper_.write(buf)` and `current_size_bytes_ += will_write`. -/
def writeMessage (msg : Bytes) : EStateM Exn DailySink Unit := fun s =>
  match writeFile s.fd msg s.disk with
  | (true, d) => .ok () { s with disk := d, currentSizeBytes := s.currentSizeBytes + msg.length }
  | (false, d) => .error (writeFailed (s.fd.getD [])) { s with disk := d }

/-- `sink_it_`, at a reading of the clock. -/
def sinkIt (a : DailyArgs) (zone : Zone) (now : Int) (msg : Bytes) :
    EStateM Exn DailySink Unit := do
  modify (rotateIfNeededByTime a zone now)
  modify (rotateOnFirstWrite a)
  ensureOpenedForWrite a
  rotateBeforeWrite a msg
  writeMessage msg

/-! ## Runs -/

/-- A message, or the sink is destroyed and built again; with the reading of
the clock that goes with it. -/
inductive Event where
  | log (now : Int) (msg : Bytes)
  | restart (now : Int)

def Event.now : Event → Int
  | .log now _ => now
  | .restart now => now

/-- The messages of a run, in order. -/
def messages : List Event → List Bytes
  | [] => []
  | .log _ m :: evs => m :: messages evs
  | .restart _ :: evs => messages evs

/-- One event. The logger swallows what `sink_it_` throws, and the arguments
have passed the constructor's checks before. -/
def step (a : DailyArgs) (zone : Zone) (s : DailySink) : Event → DailySink
  | .log now m =>
      match sinkIt a zone now m s with
      | .ok _ s' => s'
      | .error _ s' => s'
  | .restart now => start a zone now s.disk

def run (a : DailyArgs) (zone : Zone) (s : DailySink) (evs : List Event) : DailySink :=
  evs.foldl (step a zone) s

/-- The files of a group, by slot. -/
def group (a : DailyArgs) (basename : Text) (d : Disk Path) : Chain File :=
  Disk.chain (chainPath a.dir basename) d

/-- The last reading of the clock in a run that began at `t0`. -/
def lastReading (t0 : Int) (evs : List Event) : Int := evs.foldl (fun _ e => e.now) t0

theorem messages_append (evs evs' : List Event) :
    messages (evs ++ evs') = messages evs ++ messages evs' := by
  induction evs with
  | nil => rfl
  | cons e evs ih => cases e <;> simp [messages, ih]

theorem run_concat (a : DailyArgs) (zone : Zone) (s : DailySink) (evs : List Event) (e : Event) :
    run a zone s (evs ++ [e]) = step a zone (run a zone s evs) e := by
  rw [run, List.foldl_append]
  rfl

end DailySink

end UempPlugin.Ref
