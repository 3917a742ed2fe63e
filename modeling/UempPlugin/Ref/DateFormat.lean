import UempPlugin.Lib.Calendar
import UempPlugin.Ref.FileHelper

/-!
# Clock readings, date formats and name patterns

The helper functions at the top of `daily_size_rotating_file_mt_sink.hpp`, and
the calls of `<ctime>` and `<chrono>` they rest on.

A `system_clock` reading is a number of nanoseconds since the epoch, and
`to_time_t` cuts it down to seconds towards zero, as the cast between the two
durations does. A time zone is what `localtime_r` and `mktime` make of it; the
one with a constant offset is `Zone.fixed`.
-/

namespace UempPlugin.Ref

open UempPlugin.Lib

/-! ## `<ctime>` -/

/-- `std::tm`, with `tm_mon` from 0 and `tm_year` from 1900 as there. -/
structure Tm where
  sec : Int
  min : Int
  hour : Int
  mday : Int
  mon : Int
  year : Int
  wday : Int
  isdst : Int
deriving DecidableEq, Repr

def secondsPerDay : Int := 86400

/-- The fields of second `t` counted from the epoch. -/
def gmtime (t : Int) : Tm :=
  let days := t / secondsPerDay
  let rest := t % secondsPerDay
  let date := Date.civil days
  { sec := rest % 60
    min := rest / 60 % 60
    hour := rest / 3600
    mday := date.day
    mon := date.month - 1
    year := date.year - 1900
    wday := (days + 4) % 7
    isdst := 0 }

/-- The second that fields in their ranges name. -/
def timegm (tm : Tm) : Int :=
  Date.dayNumber ⟨tm.year + 1900, tm.mon + 1, tm.mday⟩ * secondsPerDay +
    tm.hour * 3600 + tm.min * 60 + tm.sec

/-- `localtime_r` and `mktime`. -/
structure Zone where
  localtime : Int → Tm
  mktime : Tm → Int

/-- Local time is `offset` seconds ahead of UTC, all year. -/
def Zone.fixed (offset : Int) : Zone where
  localtime t := gmtime (t + offset)
  mktime tm := timegm tm - offset

/-! ## `<chrono>`

A `time_point` is its nanoseconds, a plain `Int` here. -/

def nanos : Int := 1000000000

def toTimeT (tp : Int) : Int := tp.tdiv nanos

def fromTimeT (t : Int) : Int := t * nanos

def hours (n : Int) : Int := n * 3600 * nanos

/-! ## `qt_datetime_format_subset_` -/

/-- `operator<<` for an `int`. -/
def intText (v : Int) : Text :=
  if v < 0 then '-' :: toStr v.natAbs else toStr v.natAbs

/-- `append_int_`: what it appends. The fill goes in front of the sign. -/
def appendInt (v : Int) (width : Nat) : Text :=
  List.replicate (width - (intText v).length) '0' ++ intText v

def clampMs (ms : Int) : Int := if ms < 0 then 0 else if ms > 999 then 999 else ms

/-- `LocalDateTimeParts_`. -/
structure LocalDateTimeParts where
  tm : Tm
  millisecond : Int
deriving DecidableEq, Repr

/-- `to_local_parts_`. -/
def toLocalParts (zone : Zone) (tp : Int) : LocalDateTimeParts :=
  let msSinceEpoch := tp.tdiv 1000000
  let secSinceEpoch := msSinceEpoch.tdiv 1000
  { tm := zone.localtime (toTimeT tp)
    millisecond := clampMs (msSinceEpoch - secSinceEpoch * 1000) }

def kMonthShort : List String :=
  ["Jan", "Feb", "Mar", "Apr", "May", "Jun", "Jul", "Aug", "Sep", "Oct", "Nov", "Dec"]

def kMonthLong : List String :=
  ["January", "February", "March", "April", "May", "June",
    "July", "August", "September", "October", "November", "December"]

def kWeekdayShort : List String := ["Mon", "Tue", "Wed", "Thu", "Fri", "Sat", "Sun"]

def kWeekdayLong : List String :=
  ["Monday", "Tuesday", "Wednesday", "Thursday", "Friday", "Saturday", "Sunday"]

/-- An entry of one of the name tables. -/
def entry (table : List String) (i : Int) : Text := (table.getD i.toNat "").toList

/-- The `switch`: a run of `n` times the letter `c`. -/
def formatRun (p : LocalDateTimeParts) (c : Char) (n : Nat) : Text :=
  let year := p.tm.year + 1900
  let month := p.tm.mon + 1
  let day := p.tm.mday
  let wdayIndex := if p.tm.wday = 0 then 6 else p.tm.wday - 1
  let hour12 := if p.tm.hour.tmod 12 = 0 then 12 else p.tm.hour.tmod 12
  match c with
  | 'y' =>
      if n ≥ 4 then appendInt year 4
      else if n = 2 then appendInt (year.tmod 100) 2
      else appendInt year 0
  | 'M' =>
      if n = 1 then appendInt month 0
      else if n = 2 then appendInt month 2
      else if n = 3 then entry kMonthShort (month - 1)
      else entry kMonthLong (month - 1)
  | 'd' =>
      if n = 1 then appendInt day 0
      else if n = 2 then appendInt day 2
      else if n = 3 then entry kWeekdayShort wdayIndex
      else entry kWeekdayLong wdayIndex
  | 'H' => if n = 1 then appendInt p.tm.hour 0 else appendInt p.tm.hour 2
  | 'h' => if n = 1 then appendInt hour12 0 else appendInt hour12 2
  | 'm' => if n = 1 then appendInt p.tm.min 0 else appendInt p.tm.min 2
  | 's' => if n = 1 then appendInt p.tm.sec 0 else appendInt p.tm.sec 2
  | 'z' =>
      if n = 1 then appendInt (p.millisecond.tdiv 100) 0
      else if n = 2 then appendInt (p.millisecond.tdiv 10) 2
      else appendInt p.millisecond 3
  | c => List.replicate n c

/-- `ampm`. -/
def ampm (p : LocalDateTimeParts) (upper : Bool) : Text :=
  if upper then (if p.tm.hour ≥ 12 then ['P', 'M'] else ['A', 'M'])
  else (if p.tm.hour ≥ 12 then ['p', 'm'] else ['a', 'm'])

/-- Does `AP` or `ap` start here? -/
def isAmPm (c : Char) (rest : Text) : Bool :=
  (c = 'A' && rest.head? = some 'P') || (c = 'a' && rest.head? = some 'p')

/-- How often `c` is repeated at the front of `rest`. -/
def repeats (c : Char) (rest : Text) : Nat := (rest.takeWhile (· = c)).length

/-- The scanning loop: the flag is `in_quote`, the number bounds the rounds. -/
def formatLoop (p : LocalDateTimeParts) : Nat → Bool → Text → Text
  | 0, _, _ => []
  | _, _, [] => []
  | k + 1, inQuote, c :: rest =>
      if c = '\'' then
        if rest.head? = some '\'' then '\'' :: formatLoop p k inQuote (rest.drop 1)
        else formatLoop p k (!inQuote) rest
      else if inQuote then c :: formatLoop p k inQuote rest
      else if isAmPm c rest then ampm p (c = 'A') ++ formatLoop p k inQuote (rest.drop 1)
      else
        formatRun p c (repeats c rest + 1) ++ formatLoop p k inQuote (rest.drop (repeats c rest))

/-- `qt_datetime_format_subset_`; a round consumes a character, so there are
no more rounds than characters. -/
def qtDatetimeFormatSubset (zone : Zone) (tp : Int) (fmt : Text) : Text :=
  formatLoop (toLocalParts zone tp) fmt.length false fmt

/-! ## `replace_all_` -/

/-- `std::string::find` from a position. -/
def find (s pat : Text) (pos : Nat) : Option Nat :=
  (List.range (s.length + 1)).find? fun i => pos ≤ i && pat.isPrefixOf (s.drop i)

/-- The replacing loop; the number bounds the rounds. -/
def replaceLoop (pat repl : Text) : Nat → Nat → Text → Text
  | 0, _, s => s
  | k + 1, pos, s =>
      match find s pat pos with
      | none => s
      | some i =>
          replaceLoop pat repl k (i + repl.length) (s.take i ++ repl ++ s.drop (i + pat.length))

/-- `replace_all_`; each round takes a character of the original away from
behind the position. -/
def replaceAll (s pat repl : Text) : Text :=
  if pat = [] then s else replaceLoop pat repl (s.length + 1) 0 s

/-- The placeholder of a name pattern. -/
def datePlaceholder : Text := "{date}".toList

/-- `make_basename_for_tp_`. -/
def makeBasename (zone : Zone) (namePattern dateFormat : Text) (tp : Int) : Text :=
  replaceAll namePattern datePlaceholder (qtDatetimeFormatSubset zone tp dateFormat)

end UempPlugin.Ref
