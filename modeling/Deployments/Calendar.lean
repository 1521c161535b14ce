import Deployments.Decimal.Notation
import Deployments.Decimal.Numeral

/-!
Dates and moments of the Gregorian calendar, the timestamps that write them, and their two texts:
the standard one, and the one that shows how they are built.
-/

namespace Deployments

open Decimal

structure Date where
  year : Nat
  month : Nat
  day : Nat
  deriving DecidableEq, Repr, Inhabited

/-- A point in time, with its distance from universal time in minutes if it has one. -/
structure Moment where
  date : Date
  hour : Nat
  minute : Nat
  second : Nat
  microsecond : Nat
  offset : Option Int
  deriving DecidableEq, Repr, Inhabited

/-- Why numbers are no date or moment. -/
inductive CalendarFault where
  | year (n : Nat)
  | month
  | day
  | hour
  | minute
  | second
  | offset (minutes : Int)
  deriving DecidableEq, Repr, Inhabited

namespace Calendar

/-- The number in decimal digits, filled up with zeros in front. -/
def padded (width n : Nat) : String :=
  let digits := natural n
  String.ofList (List.replicate (width - digits.length) '0' ++ digits)

def isLeap (year : Nat) : Bool :=
  year % 4 == 0 && (year % 100 != 0 || year % 400 == 0)

def daysIn (year month : Nat) : Nat :=
  if month = 2 then (if isLeap year then 29 else 28)
  else if month = 4 ∨ month = 6 ∨ month = 9 ∨ month = 11 then 30
  else 31

/-- The text of a span of minutes, in days and seconds. -/
def spanText (minutes : Int) : String :=
  let seconds := minutes * 60
  let day (n : Int) := String.ofList (integer n)
  let parts :=
    (if seconds.fdiv 86400 = 0 then [] else ["days=" ++ day (seconds.fdiv 86400)]) ++
      if seconds.fmod 86400 = 0 then [] else ["seconds=" ++ day (seconds.fmod 86400)]
  "datetime.timedelta(" ++ (if parts.isEmpty then "0" else ", ".intercalate parts) ++ ")"

end Calendar

open Calendar

namespace Date

/-- The date of a year, month and day, which are checked in this order. -/
def of (year month day : Nat) : Except CalendarFault Date :=
  if year = 0 ∨ 9999 < year then .error (.year year)
  else if month = 0 ∨ 12 < month then .error .month
  else if day = 0 ∨ daysIn year month < day then .error .day
  else .ok ⟨year, month, day⟩

/-- The standard text: year, month and day. -/
def text (d : Date) : String :=
  padded 4 d.year ++ "-" ++ padded 2 d.month ++ "-" ++ padded 2 d.day

def parts (d : Date) : List Nat := [d.year, d.month, d.day]

def shown (d : Date) : String :=
  "datetime.date(" ++ ", ".intercalate (d.parts.map fun n => String.ofList (natural n)) ++ ")"

end Date

namespace Moment

/-- The moment of a date and a time of day, which are checked from the hour on. -/
def of (date : Date) (hour minute second microsecond : Nat) (offset : Option Int) :
    Except CalendarFault Moment :=
  if 23 < hour then .error .hour
  else if 59 < minute then .error .minute
  else if 59 < second then .error .second
  else .ok ⟨date, hour, minute, second, microsecond, offset⟩

/-- The text of an offset: its sign, hours and minutes. -/
def offsetText (minutes : Int) : String :=
  (if minutes < 0 then "-" else "+") ++ padded 2 (minutes.natAbs / 60) ++ ":" ++
    padded 2 (minutes.natAbs % 60)

/-- The standard text, with a separator between the date and the time. -/
def textWith (separator : String) (m : Moment) : String :=
  m.date.text ++ separator ++ padded 2 m.hour ++ ":" ++ padded 2 m.minute ++ ":" ++
    padded 2 m.second ++ (if m.microsecond = 0 then "" else "." ++ padded 6 m.microsecond) ++
    (m.offset.map offsetText).getD ""

def text : Moment → String := textWith "T"

/-- The text that shows how the moment is built; seconds and microseconds are left out from the
end while they are zero. -/
def shown (m : Moment) : String :=
  let fine :=
    if m.microsecond = 0 then (if m.second = 0 then [] else [m.second])
    else [m.second, m.microsecond]
  let numbers := (m.date.parts ++ [m.hour, m.minute] ++ fine).map fun n => String.ofList (natural n)
  let zone := match m.offset with
    | none => []
    | some 0 => ["tzinfo=datetime.timezone.utc"]
    | some minutes => ["tzinfo=datetime.timezone(" ++ spanText minutes ++ ")"]
  "datetime.datetime(" ++ ", ".intercalate (numbers ++ zone) ++ ")"

/-- Minutes since the beginning of the calendar in universal time, for moments with an offset. -/
def instant? (m : Moment) : Option (Int × Nat × Nat) :=
  m.offset.map fun minutes =>
    let years := m.date.year - 1
    let addMonth (days month : Nat) : Nat := days + daysIn m.date.year (month + 1)
    let months := (List.range (m.date.month - 1)).foldl addMonth 0
    let days := years * 365 + years / 4 - years / 100 + years / 400 + months + m.date.day
    (((days * 24 + m.hour) * 60 + m.minute : Nat) - minutes, m.second, m.microsecond)

/-- Moments are the same if they have one instant, or are written alike without an offset. -/
def same (a b : Moment) : Bool :=
  match a.instant?, b.instant? with
  | some s, some t => s == t
  | none, none => a == b
  | _, _ => false

end Moment

namespace CalendarFault

def message : CalendarFault → String
  | year n => "year " ++ String.ofList (natural n) ++ " is out of range"
  | month => "month must be in 1..12"
  | day => "day is out of range for month"
  | hour => "hour must be in 0..23"
  | minute => "minute must be in 0..59"
  | second => "second must be in 0..59"
  | offset minutes =>
    "offset must be a timedelta strictly between -timedelta(hours=24) and timedelta(hours=24), not "
      ++ spanText minutes ++ "."

end CalendarFault

end Deployments
