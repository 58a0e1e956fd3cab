/-!
# Moments

A moment of the calendar, to the second, without a time zone.  Days are counted from the first
day of the year 1 in the Gregorian calendar, which was a Monday; everything about weeks follows
from that count.
-/

set_option autoImplicit false

namespace Interop

structure Moment where
  year : Nat
  month : Nat
  day : Nat
  hour : Nat
  minute : Nat
  second : Nat
deriving DecidableEq, Repr

namespace Moment

def isLeapYear (year : Nat) : Bool := year % 4 == 0 && (year % 100 != 0 || year % 400 == 0)

/-- The days before the first of a month in a year that is no leap year. -/
def daysBeforeMonth : Nat → Nat
  | 2 => 31
  | 3 => 59
  | 4 => 90
  | 5 => 120
  | 6 => 151
  | 7 => 181
  | 8 => 212
  | 9 => 243
  | 10 => 273
  | 11 => 304
  | 12 => 334
  | _ => 0

/-- The days between the first day of the year 1 and the first day of a year. -/
def daysBeforeYear (year : Nat) : Nat :=
  let past := year - 1
  past * 365 + past / 4 - past / 100 + past / 400

/-- The days of the year before this one. -/
def dayOfYear (m : Moment) : Nat :=
  daysBeforeMonth m.month + (if 2 < m.month && isLeapYear m.year then 1 else 0) + m.day - 1

/-- The days since the first day of the year 1. -/
def dayCount (m : Moment) : Nat := daysBeforeYear m.year + m.dayOfYear

/-- The day of the week, from zero for Monday. -/
def dayFromMonday (m : Moment) : Nat := m.dayCount % 7

/-- The day of the week, from zero for Sunday. -/
def dayFromSunday (m : Moment) : Nat := (m.dayCount + 1) % 7

/-- The number of the week whose days begin with Sunday; the first Sunday begins week one. -/
def weekFromSunday (m : Moment) : Nat := (m.dayOfYear + 7 - m.dayFromSunday) / 7

/-- The number of the week whose days begin with Monday; the first Monday begins week one. -/
def weekFromMonday (m : Moment) : Nat := (m.dayOfYear + 7 - m.dayFromMonday) / 7

/-- The Thursday of this week, as a count of days.  The year that it is in owns the week. -/
def thursday (m : Moment) : Nat := m.dayCount + 3 - m.dayFromMonday

/-- The year that owns the week. -/
def weekYear (m : Moment) : Nat :=
  if m.thursday < daysBeforeYear m.year then m.year - 1
  else if m.thursday < daysBeforeYear (m.year + 1) then m.year
  else m.year + 1

/-- The number of the week in the year that owns it. -/
def weekOfYear (m : Moment) : Nat := (m.thursday - daysBeforeYear m.weekYear) / 7 + 1

/-- The hour on the face of a clock. -/
def hourOfClock (m : Moment) : Nat := if m.hour % 12 = 0 then 12 else m.hour % 12

/-- The seconds since the beginning of 1970. -/
def secondsSince1970 (m : Moment) : Int :=
  ((m.dayCount : Int) - daysBeforeYear 1970) * 86400 + (m.hour * 3600 + m.minute * 60 + m.second)

/-- The year and the day of the year, from zero, of a day since the first day of the year 1.  Of
four centuries and of four years the last is the longer one. -/
def yearOfDay (days : Nat) : Nat × Nat :=
  let fourCenturies := days / 146097
  let days := days % 146097
  let centuries := min 3 (days / 36524)
  let days := days - 36524 * centuries
  let fourYears := days / 1461
  let days := days % 1461
  let years := min 3 (days / 365)
  (400 * fourCenturies + 100 * centuries + 4 * fourYears + years + 1, days - 365 * years)

/-- The month that a day of a year is in. -/
def monthOfDay (leap : Bool) (day : Nat) : Nat :=
  (List.range 12).countP fun n =>
    daysBeforeMonth (n + 1) + (if leap && 2 ≤ n then 1 else 0) ≤ day

/-- The moment so many seconds after the beginning of 1970. -/
def afterSeconds (seconds : Nat) : Moment :=
  let (year, day) := yearOfDay (daysBeforeYear 1970 + seconds / 86400)
  let month := monthOfDay (isLeapYear year) day
  { year, month
    day := day - daysBeforeMonth month - (if 2 < month && isLeapYear year then 1 else 0) + 1
    hour := seconds % 86400 / 3600
    minute := seconds % 3600 / 60
    second := seconds % 60 }

/-- The beginning of 1970. -/
def epoch : Moment := ⟨1970, 1, 1, 0, 0, 0⟩

end Moment

end Interop
