import UempPlugin.Ref.DateFormat

/-!
# Time zones with daylight saving

A zone as the tz database describes it: what is in force at first, and the
instants at which that changes. `localtime_r` adds the offset in force and
reports the flag that comes with it. `mktime` is given by what is documented of
it: the fields of a local time name an instant with that local time, and where
the flag in `tm_isdst` never goes with the other fields, the time is taken to be
at the offset the flag stands for.
-/

namespace UempPlugin.Ref

/-- A UTC offset and its `tm_isdst`. -/
structure TimeType where
  utoff : Int
  isdst : Bool
deriving DecidableEq, Repr

/-- The type of local time in force at first, and the changes in order. -/
structure ZoneRules where
  first : TimeType
  changes : List (Int × TimeType)

namespace ZoneRules

/-- The type in force at a second. -/
def typeAt (rules : ZoneRules) (t : Int) : TimeType :=
  rules.changes.foldl (fun type change => if change.1 ≤ t then change.2 else type) rules.first

/-- The local clock, counted in seconds. -/
def clock (rules : ZoneRules) (t : Int) : Int := t + (rules.typeAt t).utoff

/-- `localtime_r`. -/
def localtime (rules : ZoneRules) (t : Int) : Tm :=
  { gmtime (rules.clock t) with isdst := if (rules.typeAt t).isdst then 1 else 0 }

/-- `mktime`, as far as it is asked about the local time of second `s` with
another time of day and the flag of `s`. -/
structure Mktime (rules : ZoneRules) (mktime : Tm → Int) (s : Int) : Prop where
  found : ∀ t, rules.localtime (mktime (rules.localtime t)) = rules.localtime t
  presumed : ∀ hour min sec,
    (∀ t, rules.localtime t ≠ { rules.localtime s with hour := hour, min := min, sec := sec }) →
      mktime { rules.localtime s with hour := hour, min := min, sec := sec } =
        timegm { rules.localtime s with hour := hour, min := min, sec := sec } -
          (rules.typeAt s).utoff

def zone (rules : ZoneRules) (mktime : Tm → Int) : Zone := ⟨rules.localtime, mktime⟩

/-- All types of a zone. -/
def types (rules : ZoneRules) : List TimeType := rules.first :: rules.changes.map Prod.snd

/-- At the offset of this type, the fields are those of a local time. -/
def fits (rules : ZoneRules) (tm : Tm) (type : TimeType) : Bool :=
  rules.localtime (timegm tm - type.utoff) == tm

/-- The flag of this type is the one in the fields. -/
def flagged (tm : Tm) (type : TimeType) : Bool := (if type.isdst then 1 else 0) == tm.isdst

/-- A `mktime` for zones with one offset for each flag: tries the offsets, and
falls back on the flag's. -/
def mktime (rules : ZoneRules) (tm : Tm) : Int :=
  timegm tm -
    (((rules.types.find? (rules.fits tm)).or (rules.types.find? (flagged tm))).getD
      rules.first).utoff

end ZoneRules

end UempPlugin.Ref
