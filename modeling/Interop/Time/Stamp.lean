import Interop.Text.Lines
import Interop.Time.Moment

/-!
# Dates and times of a document

A document may hold a day of the calendar, a time of the day, or both together, with or without an
offset from universal time.  Each has a plain text, in the order of the calendar and the clock, and
a quoted one, which names its kind and gives its numbers.
-/

set_option autoImplicit false

namespace Interop

/-- A day of the calendar. -/
structure Day where
  year : Nat
  month : Nat
  day : Nat
deriving DecidableEq, Repr

/-- A time of the day. -/
structure Clock where
  hour : Nat
  minute : Nat
  second : Nat
  microsecond : Nat
deriving DecidableEq, Repr

/-- A date or a time as a document gives it. -/
inductive Stamp
  | day (d : Day)
  | clock (c : Clock)
  /-- Both; the offset is in minutes to the east of universal time. -/
  | dayAndClock (d : Day) (c : Clock) (offset : Option Int)
deriving DecidableEq, Repr

/-- The number of days in a month of a year. -/
def daysInMonth (year month : Nat) : Nat :=
  if month = 2 then (if Moment.isLeapYear year then 29 else 28)
  else if month ∈ [4, 6, 9, 11] then 30
  else 31

/-- Whether the calendar has a day.  It begins with the year 1. -/
def Day.isValid (d : Day) : Bool :=
  1 ≤ d.year && 1 ≤ d.month && d.month ≤ 12 && 1 ≤ d.day && d.day ≤ daysInMonth d.year d.month

/-! ## Plain text -/

/-- A number of at least so many digits. -/
def paddedNumber (count n : Nat) : List Char :=
  let ds := Nat.toDigits 10 n
  List.replicate (count - ds.length) '0' ++ ds

def Day.text (d : Day) : List Char :=
  Text.joinWith ['-'] [paddedNumber 4 d.year, paddedNumber 2 d.month, paddedNumber 2 d.day]

/-- A time of the day; a fraction of the second is shown only if there is one. -/
def Clock.text (c : Clock) : List Char :=
  Text.joinWith [':'] [paddedNumber 2 c.hour, paddedNumber 2 c.minute, paddedNumber 2 c.second]
    ++ if c.microsecond = 0 then [] else '.' :: paddedNumber 6 c.microsecond

/-- An offset in hours and minutes. -/
def offsetText (minutes : Int) : List Char :=
  (if minutes < 0 then '-' else '+')
    :: Text.joinWith [':'] [paddedNumber 2 (minutes.natAbs / 60), paddedNumber 2 (minutes.natAbs % 60)]

namespace Stamp

/-- The plain text. -/
def text : Stamp → List Char
  | day d => d.text
  | clock c => c.text
  | dayAndClock d c offset => d.text ++ ' ' :: c.text ++ (offset.map offsetText).getD []

/-! ## Quoted text -/

/-- The name of a stamp's kind by itself. -/
def shortKind : Stamp → String
  | day _ => "date"
  | clock _ => "time"
  | dayAndClock .. => "datetime"

/-- The name of a stamp's kind. -/
def kind (s : Stamp) : String := "datetime." ++ s.shortKind

/-- The numbers of a time of the day, without the second and its fraction where they are zero and
nothing follows. -/
def clockNumbers (c : Clock) : List Nat :=
  if c.microsecond ≠ 0 then [c.hour, c.minute, c.second, c.microsecond]
  else if c.second ≠ 0 then [c.hour, c.minute, c.second]
  else [c.hour, c.minute]

/-- An offset by its seconds; one to the west counts from the day before. -/
def offsetQuoted (minutes : Int) : List Char :=
  if minutes = 0 then "datetime.timezone.utc".toList
  else
    let days := if minutes < 0 then "days=-1, ".toList else []
    "datetime.timezone(datetime.timedelta(".toList ++ days
      ++ "seconds=".toList ++ Nat.toDigits 10 ((minutes * 60) % 86400).toNat ++ "))".toList

/-- The numbers of a stamp, and what is said about its offset. -/
def parts : Stamp → List (List Char)
  | day d => [d.year, d.month, d.day].map (Nat.toDigits 10)
  | clock c => (clockNumbers c).map (Nat.toDigits 10)
  | dayAndClock d c offset =>
    ([d.year, d.month, d.day] ++ clockNumbers c).map (Nat.toDigits 10)
      ++ (offset.map fun m => "tzinfo=".toList ++ offsetQuoted m).toList

/-- The quoted text. -/
def quotedText (s : Stamp) : List Char :=
  s.kind.toList ++ '(' :: Text.joinWith ", ".toList s.parts ++ [')']

end Stamp

end Interop
