import UempPlugin.Lib.Simulation
import UempPlugin.Ref.CountRotating
import UempPlugin.Ref.DailyFile

/-!
# The file sinks of a configuration, on one disk

`basic_file_sink`, and with it the five kinds of file sink a configuration can
name. Sinks of one logger, and of several, are called one after the other, each
under a mutex of its own; what a sink throws is swallowed for that sink alone,
so that the others get the message all the same. A sink whose constructor threw
does not exist, until a configuration is loaded again.
-/

namespace UempPlugin.Ref

open UempPlugin.Lib

/-! ## `spdlog::sinks::basic_file_sink` -/

structure BasicArgs where
  filename : Path
  truncate : Bool := false

structure BasicSink where
  fd : Option Path
  disk : Disk Path

namespace BasicSink

/-- The constructor; when it throws, the disk is what remains. -/
def construct (a : BasicArgs) : EStateM Exn (Disk Path) BasicSink := fun d =>
  match openWith a.truncate a.filename d with
  | (true, d) => .ok { fd := some a.filename, disk := d } d
  | (false, d) => .error (openFailed a.filename) d

/-- `sink_it_`. -/
def sinkIt (msg : Bytes) : EStateM Exn BasicSink Unit := fun s =>
  match writeFile s.fd msg s.disk with
  | (true, d) => .ok () { s with disk := d }
  | (false, d) => .error (writeFailed (s.fd.getD [])) { s with disk := d }

end BasicSink

/-! ## All kinds -/

/-- What the constructors are given. -/
inductive FileArgs where
  | dailyFile (a : DailyFileArgs)
  | rotatingFile (a : RotatingArgs)
  | basicFile (a : BasicArgs)
  | countRotatingFile (a : CountArgs)
  | dailySizeRotatingFile (a : DailyArgs)

/-- The arguments, for a sink that writes to files. `max_days` reaches its
constructor as a `uint16_t`. -/
def Log.SinkConfig.fileArgs : Log.SinkConfig → Option FileArgs
  | .stdoutColor => none
  | .dailyFile filePath rotationHour rotationMin truncate maxDays =>
      some (.dailyFile {
        baseFilename := filePath.toList
        rotationH := rotationHour
        rotationM := rotationMin
        truncate := truncate
        maxFiles := maxDays % 2 ^ 16
        maxFiles_lt := Nat.mod_lt _ (Nat.two_pow_pos 16) })
  | .rotatingFile filePath maxSize maxFiles rotateOnOpen =>
      some (.rotatingFile {
        baseFilename := filePath.toList
        maxSize := maxSize
        maxFiles := maxFiles
        rotateOnOpen := rotateOnOpen })
  | .basicFile filePath truncate =>
      some (.basicFile { filename := filePath.toList, truncate := truncate })
  | .countRotatingFile filePath maxCount maxFiles rotateOnOpen strictCountOnOpen =>
      some (.countRotatingFile {
        baseFilename := filePath.toList
        maxCount := maxCount
        maxFiles := maxFiles
        rotateOnOpen := rotateOnOpen
        strictCountOnOpen := strictCountOnOpen })
  | .dailySizeRotatingFile rootDir name dateNameFormat rotationHour rotationMin maxSize maxFiles
      rotateOnOpen =>
      some (.dailySizeRotatingFile {
        dir := rootDir.toList
        namePattern := name.toList
        dateFormat := dateNameFormat.toList
        rotationHour := rotationHour
        rotationMin := rotationMin
        maxSizeBits := maxSize
        maxFiles := maxFiles
        rotateOnOpen := rotateOnOpen })

/-- A sink; `thrown` stands for one whose constructor threw. -/
inductive FileSink where
  | dailyFile (a : DailyFileArgs) (s : DailyFileSink)
  | rotatingFile (a : RotatingArgs) (s : RotatingSink)
  | basicFile (a : BasicArgs) (s : BasicSink)
  | countRotatingFile (a : CountArgs) (s : CountSink)
  | dailySizeRotatingFile (a : DailyArgs) (s : DailySink)
  | thrown (a : FileArgs) (d : Disk Path)

namespace FileSink

def args : FileSink → FileArgs
  | .dailyFile a _ => .dailyFile a
  | .rotatingFile a _ => .rotatingFile a
  | .basicFile a _ => .basicFile a
  | .countRotatingFile a _ => .countRotatingFile a
  | .dailySizeRotatingFile a _ => .dailySizeRotatingFile a
  | .thrown a _ => a

def disk : FileSink → Disk Path
  | .dailyFile _ s => s.disk
  | .rotatingFile _ s => s.disk
  | .basicFile _ s => s.disk
  | .countRotatingFile _ s => s.disk
  | .dailySizeRotatingFile _ s => s.disk
  | .thrown _ d => d

/-- The same sink, over another disk. -/
def put (d : Disk Path) : FileSink → FileSink
  | .dailyFile a s => .dailyFile a { s with disk := d }
  | .rotatingFile a s => .rotatingFile a { s with disk := d }
  | .basicFile a s => .basicFile a { s with disk := d }
  | .countRotatingFile a s => .countRotatingFile a { s with disk := d }
  | .dailySizeRotatingFile a s => .dailySizeRotatingFile a { s with disk := d }
  | .thrown a _ => .thrown a d

/-- A message made at `time`, or a configuration is loaded again; with the
readings of the clock. -/
inductive Event where
  | log (time now : Int) (msg : Bytes)
  | restart (now nowNext nowInit : Int)

def log (zone : Zone) (time now : Int) (msg : Bytes) : FileSink → FileSink
  | .dailyFile a s => .dailyFile a (final (DailyFileSink.sinkIt a zone time now msg s))
  | .rotatingFile a s => .rotatingFile a (final (RotatingSink.sinkIt a msg s))
  | .basicFile a s => .basicFile a (final (BasicSink.sinkIt msg s))
  | .countRotatingFile a s => .countRotatingFile a (final (CountSink.sinkIt a msg s))
  | .dailySizeRotatingFile a s =>
      .dailySizeRotatingFile a (final (DailySink.sinkIt a zone now msg s))
  | .thrown a d => .thrown a d

/-- The constructor of each kind. -/
def construct (zone : Zone) (now nowNext nowInit : Int) (d : Disk Path) : FileArgs → FileSink
  | .dailyFile a =>
      match DailyFileSink.construct a zone now nowNext nowInit d with
      | .ok s _ => .dailyFile a s
      | .error _ d => .thrown (.dailyFile a) d
  | .rotatingFile a =>
      match RotatingSink.construct a d with
      | .ok s _ => .rotatingFile a s
      | .error _ d => .thrown (.rotatingFile a) d
  | .basicFile a =>
      match BasicSink.construct a d with
      | .ok s _ => .basicFile a s
      | .error _ d => .thrown (.basicFile a) d
  | .countRotatingFile a => .countRotatingFile a (CountSink.construct a d)
  | .dailySizeRotatingFile a =>
      match DailySink.construct a zone now d with
      | .ok s => .dailySizeRotatingFile a s
      | .error _ => .thrown (.dailySizeRotatingFile a) d

/-- One event. -/
def step (zone : Zone) : Event → FileSink → FileSink
  | .log time now msg, s => s.log zone time now msg
  | .restart now nowNext nowInit, s => construct zone now nowNext nowInit s.disk s.args

end FileSink

end UempPlugin.Ref
