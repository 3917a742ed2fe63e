import UempPlugin.Ref.CircularQ
import UempPlugin.Ref.DailyCountRotating
import UempPlugin.Ref.RotatingFile

/-!
# `spdlog::sinks::daily_file_sink`

The library's own sink that starts a file each day, which a configuration names
`daily_file_mt`, function by function. It keeps the names of the files it opened
in a ring buffer, and deletes the oldest of them when it opens one too many.

A message carries the time it was made at. That time decides whether the sink
rotates and which date the new file bears; when to rotate next is computed from
the clock, which by then may read more. The constructor reads the clock three
times.
-/

namespace UempPlugin.Ref

open UempPlugin.Lib

/-- The constructor's arguments. `max_files` is a `uint16_t`. -/
structure DailyFileArgs where
  baseFilename : Path
  rotationH : Int
  rotationM : Int
  truncate : Bool := false
  maxFiles : Nat
  maxFiles_lt : maxFiles < 2 ^ 16

/-- `file_helper::open`. -/
def openWith (truncate : Bool) (p : Path) (d : Disk Path) : Bool × Disk Path :=
  if truncate then RotatingSink.truncateLoop p openTries d else openFile p d

/-- `daily_filename_calculator::calc_filename`. -/
def calcDailyPath (filename : Path) (nowTm : Tm) : Path :=
  let (basename, ext) := Log.splitByExtension filename
  basename ++ '_' :: (printfInt 4 (nowTm.year + 1900) ++ '-' :: printfInt 2 (nowTm.mon + 1) ++
    '-' :: printfInt 2 nowTm.mday) ++ ext

/-- The name of the file for a point in time. -/
def DailyFileArgs.pathAt (a : DailyFileArgs) (zone : Zone) (tp : Int) : Path :=
  calcDailyPath a.baseFilename (zone.localtime (toTimeT tp))

/-- `filename` is what `file_helper_` was last asked to open. -/
structure DailyFileSink where
  rotationTp : Int
  filename : Path
  fd : Option Path
  filenamesQ : CircularQ Path
  disk : Disk Path

namespace DailyFileSink

/-! ## The clock -/

/-- `next_rotation_tp_`. -/
def nextRotationTp (a : DailyFileArgs) (zone : Zone) (now : Int) : Int :=
  let date := { zone.localtime (toTimeT now) with
    hour := a.rotationH
    min := a.rotationM
    sec := 0 }
  let rotationTime := fromTimeT (zone.mktime date)
  if rotationTime > now then rotationTime else rotationTime + hours 24

/-! ## Construction -/

/-- The first loop of `init_filenames_q_`: the names of the last days, from
today back to the first that is missing. -/
def scanDays (a : DailyFileArgs) (zone : Zone) : Nat → Int → Disk Path → List Path × Disk Path
  | 0, _, d => ([], d)
  | k + 1, now, d =>
      match d.stat (a.pathAt zone now) with
      | (false, d) => ([], d)
      | (true, d) =>
          let (filenames, d) := scanDays a zone k (now - hours 24) d
          (a.pathAt zone now :: filenames, d)

/-- `init_filenames_q_`. -/
def initFilenamesQ (a : DailyFileArgs) (zone : Zone) (now : Int) (s : DailyFileSink) :
    DailyFileSink :=
  let (filenames, d) := scanDays a zone a.maxFiles now s.disk
  { s with
    filenamesQ := filenames.reverse.foldl (fun q p => q.pushBack p) (.construct a.maxFiles)
    disk := d }

/-- The constructor, at its three readings of the clock; when it throws, the
disk is what remains. -/
def construct (a : DailyFileArgs) (zone : Zone) (now nowNext nowInit : Int) :
    EStateM Exn (Disk Path) DailyFileSink := fun d =>
  if a.rotationH < 0 ∨ a.rotationH > 23 ∨ a.rotationM < 0 ∨ a.rotationM > 59 then
    .error (.spdlogEx "daily_file_sink: Invalid rotation time in ctor") d
  else
    let filename := a.pathAt zone now
    match openWith a.truncate filename d with
    | (false, d) => .error (openFailed filename) d
    | (true, d) =>
        let s : DailyFileSink :=
          { rotationTp := nextRotationTp a zone nowNext
            filename := filename
            fd := some filename
            -- `circular_q()`: nothing fits
            filenamesQ := { maxItems := 0, v := [] }
            disk := d }
        let s := if a.maxFiles > 0 then initFilenamesQ a zone nowInit s else s
        .ok s s.disk

/-! ## `sink_it_`, stage by stage -/

/-- `should_rotate`: the file for the message's date is opened, and the next
rotation is computed from the clock. -/
def rotate (a : DailyFileArgs) (zone : Zone) (time now : Int) : EStateM Exn DailyFileSink Unit :=
  fun s =>
    let filename := a.pathAt zone time
    match openWith a.truncate filename s.disk with
    | (false, d) =>
        .error (openFailed filename) { s with filename := filename, fd := none, disk := d }
    | (true, d) =>
        .ok ()
          { s with
            rotationTp := nextRotationTp a zone now
            filename := filename
            fd := some filename
            disk := d }

/-- `file_helper_.write(formatted)`. -/
def writeMessage (msg : Bytes) : EStateM Exn DailyFileSink Unit := fun s =>
  match writeFile s.fd msg s.disk with
  | (true, d) => .ok () { s with disk := d }
  | (false, d) => .error (writeFailed (s.fd.getD [])) { s with disk := d }

/-- `remove_if_exists(p) == 0`. -/
def removeIfExists (p : Path) (d : Disk Path) : Bool × Disk Path :=
  match d.stat p with
  | (false, d) => (true, d)
  | (true, d) => ((d.refuses (.unlink p)).isNone, d.unlink p)

def removeFailed (p : Path) : Exn :=
  .spdlogEx ("Failed removing daily file " ++ String.ofList p)

/-- `delete_old_`. -/
def deleteOld : EStateM Exn DailyFileSink Unit := fun s =>
  if s.filenamesQ.full then
    let old := s.filenamesQ.front
    let s := { s with filenamesQ := s.filenamesQ.popFront }
    match removeIfExists old s.disk with
    | (true, d) => .ok () { s with filenamesQ := s.filenamesQ.pushBack s.filename, disk := d }
    | (false, d) =>
        .error (removeFailed old)
          { s with filenamesQ := s.filenamesQ.pushBack s.filename, disk := d }
  else .ok () { s with filenamesQ := s.filenamesQ.pushBack s.filename }

/-- `sink_it_`, for a message made at `time`, with the clock at `now`. -/
def sinkIt (a : DailyFileArgs) (zone : Zone) (time now : Int) (msg : Bytes) :
    EStateM Exn DailyFileSink Unit := fun s =>
  if time ≥ s.rotationTp then
    (do
      rotate a zone time now
      writeMessage msg
      -- the cleaning only at the end because it might throw
      if a.maxFiles > 0 then deleteOld) s
  else writeMessage msg s

/-! ## Runs -/

/-- A message, with the time it was made at and the reading of the clock when
it is written. -/
structure Event where
  time : Int
  now : Int
  msg : Bytes

/-- One event. The logger swallows what `sink_it_` throws. -/
def step (a : DailyFileArgs) (zone : Zone) (s : DailyFileSink) (e : Event) : DailyFileSink :=
  match sinkIt a zone e.time e.now e.msg s with
  | .ok _ s' => s'
  | .error _ s' => s'

def run (a : DailyFileArgs) (zone : Zone) (s : DailyFileSink) (es : List Event) : DailyFileSink :=
  es.foldl (step a zone) s

end DailyFileSink

end UempPlugin.Ref
