import Mathlib.Algebra.Group.Nat.Defs
import Mathlib.Data.List.Sort
import UempPlugin.Lib.Lines
import UempPlugin.Ref.DateFormat

/-!
# The dated sink of `daily_count_rotating_file_sink.hpp`

The sink that numbers the files of a day upwards, function by function as the
header has it. It asks the folder which files of the day are there, when it is
built and when the day changes; the names that `directory_iterator` comes by
are given with the event, as is the clock. Names that carry no number make
`std::stoull` throw.

`std::ofstream` writes through here, as the handle of the other sinks does. A
file that does not open, or a write that fails, leaves the stream failed, and
only the next file that opens makes it good again.
-/

namespace UempPlugin.Ref

open UempPlugin.Lib

/-! ## Dates and numbers -/

/-- `%0wd`: the fill goes behind the sign. -/
def printfInt (width : Nat) (v : Int) : Text :=
  let digits := toStr v.natAbs
  if v < 0 then '-' :: (List.replicate (width - 1 - digits.length) '0' ++ digits)
  else List.replicate (width - digits.length) '0' ++ digits

/-- `local_date_yyyy_mm_dd`, for the fields of the local time. The buffer holds
ten characters. -/
def localDateYyyyMmDd (tm : Tm) : Text :=
  (printfInt 4 (tm.year + 1900) ++ '-' :: printfInt 2 (tm.mon + 1) ++
    '-' :: printfInt 2 tm.mday).take 10

/-- A `size_t` is reduced modulo this. -/
def wordSize : Nat := 2 ^ 64

inductive StoullExn where
  | invalidArgument
  | outOfRange
deriving DecidableEq, Repr

def isSpace (c : Char) : Bool :=
  c = ' ' || c = '\t' || c = '\n' || c = '\x0b' || c = '\x0c' || c = '\r'

/-- `std::stoull`: white space, a sign, and as many digits as there are. A minus
negates modulo 2^64. -/
def stoull (s : Text) : Except StoullExn Nat :=
  let s := s.dropWhile isSpace
  let signed := s.head? = some '-' ∨ s.head? = some '+'
  let digits := (if signed then s.drop 1 else s).takeWhile Char.isDigit
  let n := Nat.ofDigitChars 10 digits 0
  if digits = [] then .error .invalidArgument
  else if n ≥ wordSize then .error .outOfRange
  else if s.head? = some '-' then .ok ((wordSize - n) % wordSize)
  else .ok n

/-! ## Names -/

/-- The constructor's arguments. -/
structure DailyCountArgs where
  baseFilename : Text
  maxSize : Nat
  maxFiles : Nat := 0
  rotateOnOpen : Bool := false

namespace DailyCountArgs

/-- `dir_`. -/
def dir (a : DailyCountArgs) : Text :=
  if parentPath a.baseFilename = [] then ['.'] else parentPath a.baseFilename

/-- `stem_`: the file name without its `.log`. -/
def stem (a : DailyCountArgs) : Text :=
  let fname := filename a.baseFilename
  if extension.isSuffixOf fname then fname.take (fname.length - 4) else fname

/-- `today_prefix_`. -/
def todayPrefix (a : DailyCountArgs) (date : Text) : Text := a.stem ++ '_' :: date

/-- `make_filename_`. -/
def makeFilename (a : DailyCountArgs) (date : Text) (index : Nat) : Text :=
  if index = 0 then a.todayPrefix date ++ extension
  else a.todayPrefix date ++ '.' :: toStr index ++ extension

/-- `make_path_`. -/
def makePath (a : DailyCountArgs) (date : Text) (index : Nat) : Path :=
  joinPath a.dir (a.makeFilename date index)

/-- Is this the name of an index other than 0? -/
def isNumbered (a : DailyCountArgs) (date name : Text) : Bool :=
  (a.todayPrefix date ++ ['.']).isPrefixOf name && extension.isSuffixOf name

/-- The names that `scan_existing_files_for_today_` keeps. -/
def isTodays (a : DailyCountArgs) (date name : Text) : Bool :=
  name = a.todayPrefix date ++ extension || a.isNumbered date name

/-- `extract_index_`. -/
def extractIndex (a : DailyCountArgs) (date name : Text) : Except StoullExn Nat :=
  if name = a.todayPrefix date ++ extension then .ok 0
  else if a.isNumbered date name then
    let start := (a.todayPrefix date ++ ['.']).length
    stoull ((name.drop start).take (name.length - extension.length - start))
  else .ok 0

/-- `std::sort` by index. With fewer than two names nothing is compared. -/
def sortByIndex (a : DailyCountArgs) (date : Text) (names : List Text) :
    Except StoullExn (List Text) := do
  if names.length < 2 then pure names
  else
    let keys ← names.mapM (a.extractIndex date)
    pure (((keys.zip names).insertionSort fun x y => x.1 ≤ y.1).map Prod.snd)

end DailyCountArgs

/-! ## The sink -/

/-- The mutable members, with the disk. `fd` and `failed` are `file_`'s.
`removed` is ghost: what `cleanup_old_files_` had removed, each with the file
that was open then. -/
structure DailyCountSink where
  currentDate : Text
  currentIndex : Nat
  currentSize : Nat
  files : List Text
  fd : Option Path
  failed : Bool
  disk : Disk Path
  removed : List (Path × Option Path)

namespace DailyCountSink

/-- `fs::file_size`. -/
def fileSize (p : Path) (d : Disk Path) : Option Nat × Disk Path :=
  match d.refuses (.stat p), d.files p with
  | none, some f => (some f.bytes.length, d.tick)
  | _, _ => (none, d.tick)

/-- `file_.open`, appending. -/
def openFile (p : Path) (s : DailyCountSink) : DailyCountSink :=
  match s.disk.fopen p with
  | (true, d) => { s with fd := some p, failed := false, disk := d }
  | (false, d) => { s with fd := none, failed := true, disk := d }

/-- `current_size_` from the file that is there. -/
def measure (p : Path) (s : DailyCountSink) : DailyCountSink :=
  match s.disk.stat p with
  | (false, d) => { s with currentSize := 0, disk := d }
  | (true, d) =>
      match fileSize p d with
      | (some n, d) => { s with currentSize := n, disk := d }
      | (none, d) => { s with currentSize := 0, disk := d }

/-- The loop of `cleanup_old_files_`, over `files_` from its front. -/
def cleanupLoop (a : DailyCountArgs) : List Text → DailyCountSink → DailyCountSink
  | [], s => { s with files := [] }
  | name :: rest, s =>
      if rest.length + 1 > a.maxFiles then
        let p := joinPath a.dir name
        cleanupLoop a rest { s with disk := s.disk.unlink p, removed := s.removed ++ [(p, s.fd)] }
      else { s with files := name :: rest }

/-- `cleanup_old_files_`. -/
def cleanupOldFiles (a : DailyCountArgs) (s : DailyCountSink) : DailyCountSink :=
  if a.maxFiles = 0 then s else cleanupLoop a s.files s

/-- `open_current_file_`. -/
def openCurrentFile (a : DailyCountArgs) (s : DailyCountSink) : DailyCountSink :=
  let p := a.makePath s.currentDate s.currentIndex
  let s := measure p (openFile p s)
  if s.files.getLast? = some (filename p) then s
  else { s with files := s.files ++ [filename p] }

/-- `open_new_file_`. -/
def openNewFile (a : DailyCountArgs) (s : DailyCountSink) : DailyCountSink :=
  let s := { s with currentIndex := (s.currentIndex + 1) % wordSize }
  let p := a.makePath s.currentDate s.currentIndex
  let s := measure p (openFile p s)
  cleanupOldFiles a { s with files := s.files ++ [filename p] }

/-- `rotate_file_`. -/
def rotateFile (a : DailyCountArgs) (s : DailyCountSink) : DailyCountSink :=
  openNewFile a { s with fd := none }

/-- `scan_existing_files_for_today_`, over the names of the regular files that
the iterator comes by. When a comparison throws, `std::sort` may have moved the
names about; they are left as found here. -/
def scanExistingFilesForToday (a : DailyCountArgs) (ls : List Text) :
    EStateM StoullExn DailyCountSink Unit := fun s =>
  let found := ls.filter (a.isTodays s.currentDate)
  match a.sortByIndex s.currentDate found with
  | .ok names => .ok () { s with files := names }
  | .error e => .error e { s with files := found }

/-- The index of `files_.back()`, 0 when there is none. -/
def lastIndex (a : DailyCountArgs) (s : DailyCountSink) : Except StoullExn Nat :=
  match s.files.getLast? with
  | none => .ok 0
  | some name => a.extractIndex s.currentDate name

/-- With `rotate_on_open` a day that has files gets a new one, else its last file
is gone on with. -/
def openToday (a : DailyCountArgs) : EStateM StoullExn DailyCountSink Unit := fun s =>
  if a.rotateOnOpen ∧ s.files ≠ [] then .ok () (openNewFile a s)
  else
    match lastIndex a s with
    | .ok i => .ok () (openCurrentFile a { s with currentIndex := i })
    | .error e => .error e s

/-- The end of the constructor and of `maybe_roll_day_`. -/
def openDay (a : DailyCountArgs) (ls : List Text) : EStateM StoullExn DailyCountSink Unit := do
  scanExistingFilesForToday a ls
  openToday a

/-- The constructor, at a time and with what is in the folder then. -/
def construct (a : DailyCountArgs) (zone : Zone) (now : Int) (ls : List Text) (d : Disk Path) :
    Except StoullExn DailyCountSink :=
  let s : DailyCountSink :=
    { currentDate := localDateYyyyMmDd (zone.localtime now)
      currentIndex := 0
      currentSize := 0
      files := []
      fd := none
      failed := false
      disk := d.mkdirs a.dir
      removed := [] }
  match openDay a ls s with
  | .ok _ s => .ok s
  | .error e _ => .error e

/-- `maybe_roll_day_`. -/
def maybeRollDay (a : DailyCountArgs) (today : Text) (ls : List Text) :
    EStateM StoullExn DailyCountSink Unit := do
  if today = (← get).currentDate then pure ()
  else
    modify fun s =>
      { s with
        fd := none
        currentDate := today
        currentIndex := 0
        currentSize := 0
        disk := s.disk.mkdirs a.dir }
    openDay a ls

/-- A formatted message without the line breaks at its end. -/
def body (msg : Bytes) : Bytes := (msg.reverse.dropWhile fun b => b = newline || b = 13).reverse

/-- `file_.write`, or `file_.put`. -/
def write (b : Bytes) (s : DailyCountSink) : DailyCountSink :=
  if s.failed then s
  else
    match s.fd with
    | none => { s with failed := true }
    | some p =>
        match s.disk.fwrite p b with
        | (true, d) => { s with disk := d }
        | (false, d) => { s with disk := d, failed := true }

/-- `sink_it_` behind `maybe_roll_day_`. -/
def writeMessage (a : DailyCountArgs) (msg : Bytes) (s : DailyCountSink) : DailyCountSink :=
  let s := write [newline] (write (body msg) s)
  let s := { s with currentSize := (s.currentSize + ((body msg).length + 1)) % wordSize }
  if a.maxSize > 0 ∧ s.currentSize ≥ a.maxSize then rotateFile a s else s

/-- `sink_it_`, at a time and with what is in the folder then. -/
def sinkIt (a : DailyCountArgs) (zone : Zone) (now : Int) (msg : Bytes) (ls : List Text) :
    EStateM StoullExn DailyCountSink Unit := do
  maybeRollDay a (localDateYyyyMmDd (zone.localtime now)) ls
  modify (writeMessage a msg)

/-- A message, with the time it comes at and what is in the folder then. -/
structure Event where
  now : Int
  msg : Bytes
  ls : List Text

/-- The logger swallows what `sink_it_` throws. -/
def step (a : DailyCountArgs) (zone : Zone) (s : DailyCountSink) (e : Event) : DailyCountSink :=
  match sinkIt a zone e.now e.msg e.ls s with
  | .ok _ s' => s'
  | .error _ s' => s'

def run (a : DailyCountArgs) (zone : Zone) (s : DailyCountSink) (evs : List Event) :
    DailyCountSink := evs.foldl (step a zone) s

end DailyCountSink

end UempPlugin.Ref
