import Interop.Text.Capital
import Interop.Text.Lines
import Interop.Time.Stamp

/-!
# Writing moments

A format is text with directives: a percent sign, flags, a width, a modifier and a letter.  What a
directive says is `Meaning`; the flags say how it is padded and in which case its letters are.
A directive that means nothing is written as it stands.

The names of days and months are the English ones.  A moment has no zone and no fraction of a
second, so the zone is empty and the microseconds are zeros.
-/

set_option autoImplicit false

namespace Interop.Moment

/-! ## Meanings -/

/-- What a directive stands for. -/
inductive Meaning
  /-- A number with at least so many digits. -/
  | number (digits : Nat) (n : Int)
  /-- A number that spaces fill up. -/
  | spaced (digits : Nat) (n : Int)
  /-- The name of a day or a month. -/
  | name (t : List Char)
  /-- One half of a day, in capitals unless something else is asked for. -/
  | half (t : List Char)
  /-- One half of a day in small letters. -/
  | smallHalf (t : List Char)
  /-- A text that no flag changes. -/
  | plain (t : List Char)
  /-- Nothing, whatever the width. -/
  | nothing
  /-- What a format of its own stands for. -/
  | composed (parts : List (List Char))
deriving Repr

def dayNames : List String :=
  ["Monday", "Tuesday", "Wednesday", "Thursday", "Friday", "Saturday", "Sunday"]

def monthNames : List String :=
  ["January", "February", "March", "April", "May", "June", "July", "August", "September",
   "October", "November", "December"]

def dayName (m : Moment) : List Char := (dayNames.getD m.dayFromMonday "?").toList

def monthName (m : Moment) : List Char := (monthNames.getD (m.month - 1) "?").toList

def halfName (m : Moment) : List Char := if m.hour < 12 then ['A', 'M'] else ['P', 'M']

/-- A day of the month with a space before a single digit. -/
def spacedDay (m : Moment) : List Char :=
  let ds := Nat.toDigits 10 m.day
  List.replicate (2 - ds.length) ' ' ++ ds

/-- The date with slashes. -/
def slashDate (m : Moment) : List Char :=
  Text.joinWith ['/'] [paddedNumber 2 m.month, paddedNumber 2 m.day, paddedNumber 2 (m.year % 100)]

/-- The time of the day. -/
def clockTime (m : Moment) : List Char :=
  Text.joinWith [':'] [paddedNumber 2 m.hour, paddedNumber 2 m.minute, paddedNumber 2 m.second]

/-- The letters that take no modifier, those that take only `E`, and those that take only `O`; any
other takes both. -/
def takesModifier (modifier letter : Char) : Bool :=
  let unmodified := "aADF".toList
  let eraOnly := "cxXY".toList
  let digitsOnly := "bBhdeHIjklmMSUVgGwW".toList
  !unmodified.contains letter
    && (if modifier = 'E' then !digitsOnly.contains letter else !eraOnly.contains letter)

/-- What a letter means. -/
def meaning? (m : Moment) (letter : Char) : Option Meaning :=
  match letter with
  | '%' => some (.plain ['%'])
  | 'n' => some (.plain ['\n'])
  | 't' => some (.plain ['\t'])
  | 'a' => some (.name (m.dayName.take 3))
  | 'A' => some (.name m.dayName)
  | 'b' | 'h' => some (.name (m.monthName.take 3))
  | 'B' => some (.name m.monthName)
  | 'c' => some (.composed [m.dayName.take 3, [' '], m.monthName.take 3, [' '], m.spacedDay, [' '],
      m.clockTime, [' '], Nat.toDigits 10 m.year])
  | 'C' => some (.number 2 (m.year / 100))
  | 'd' => some (.number 2 m.day)
  | 'D' | 'x' => some (.composed [m.slashDate])
  | 'e' => some (.spaced 2 m.day)
  | 'F' => some (.composed [Text.joinWith ['-']
      [Nat.toDigits 10 m.year, paddedNumber 2 m.month, paddedNumber 2 m.day]])
  | 'g' => some (.number 2 (m.weekYear % 100))
  | 'G' => some (.number 1 m.weekYear)
  | 'H' => some (.number 2 m.hour)
  | 'I' => some (.number 2 m.hourOfClock)
  | 'j' => some (.number 3 (m.dayOfYear + 1))
  | 'k' => some (.spaced 2 m.hour)
  | 'l' => some (.spaced 2 m.hourOfClock)
  | 'm' => some (.number 2 m.month)
  | 'M' => some (.number 2 m.minute)
  | 'p' => some (.half m.halfName)
  | 'P' => some (.smallHalf m.halfName)
  | 'r' => some (.composed [paddedNumber 2 m.hourOfClock, [':'], paddedNumber 2 m.minute, [':'],
      paddedNumber 2 m.second, [' '], m.halfName])
  | 'R' => some (.composed [paddedNumber 2 m.hour, [':'], paddedNumber 2 m.minute])
  | 's' => some (.spaced 1 m.secondsSince1970)
  | 'S' => some (.number 2 m.second)
  | 'T' | 'X' => some (.composed [m.clockTime])
  | 'u' => some (.number 1 (m.dayFromMonday + 1))
  | 'U' => some (.number 2 m.weekFromSunday)
  | 'V' => some (.number 2 m.weekOfYear)
  | 'w' => some (.number 1 m.dayFromSunday)
  | 'W' => some (.number 2 m.weekFromMonday)
  | 'y' => some (.number 2 (m.year % 100))
  | 'Y' => some (.number 1 m.year)
  | 'z' => some .nothing
  | 'Z' => some (.plain [])
  | _ => none

/-! ## Directives -/

/-- The flags and the width of a directive. -/
structure Layout where
  /-- The last flag about padding. -/
  pad : Option Char
  upper : Bool
  swap : Bool
  width : Nat
deriving DecidableEq, Repr

def Layout.plain : Layout := ⟨none, false, false, 0⟩

/-- A text filled up on its left. -/
def filled (fill : Char) (width : Nat) (t : List Char) : List Char :=
  List.replicate (width - t.length) fill ++ t

/-- A text of ASCII in small letters. -/
def inSmallLetters (t : List Char) : List Char := t.map Char.toLower

/-- A text at the width that is asked for. -/
def Layout.text (l : Layout) (t : List Char) : List Char :=
  filled (if l.pad = some '0' then '0' else ' ') l.width t

/-- A number; `unasked` is how it is padded if no flag says so. -/
def Layout.number (l : Layout) (unasked : Char) (count : Nat) (n : Int) : List Char :=
  let ds := (if n < 0 then ['-'] else []) ++ Nat.toDigits 10 n.natAbs
  match l.pad.getD unasked with
  | '-' => filled ' ' l.width ds
  | '_' => filled ' ' (max l.width count) ds
  | _ => filled '0' (max l.width count) ds

def Layout.apply (l : Layout) : Meaning → List Char
  | .number count n => l.number '0' count n
  | .spaced count n => l.number '_' count n
  | .name t => l.text (if l.upper || l.swap then Text.capitals t else t)
  | .half t => l.text (if l.swap then inSmallLetters t else t)
  | .smallHalf t => l.text (inSmallLetters t)
  | .plain t => l.text t
  | .nothing => []
  | .composed parts => l.text (if l.upper then Text.capitals parts.flatten else parts.flatten)

/-- Reads flags, in front of a width. -/
def readFlags (l : Layout) : List Char → Layout × List Char
  | '^' :: rest => readFlags { l with upper := true } rest
  | '#' :: rest => readFlags { l with swap := true } rest
  | '_' :: rest => readFlags { l with pad := some '_' } rest
  | '-' :: rest => readFlags { l with pad := some '-' } rest
  | '0' :: rest => readFlags { l with pad := some '0' } rest
  | rest => (l, rest)

/-- Reads a width.  One above the room that there is counts as all the room. -/
def readWidth (room : Nat) (l : Layout) : List Char → Layout × List Char
  | c :: rest =>
    if c.isDigit then
      let width := min room (10 * l.width + (c.toNat - 48))
      readWidth room { l with width } rest
    else (l, c :: rest)
  | [] => (l, [])

/-- Whether a text goes on with a letter for the short name of a month.  Such a directive swaps the
case of its letters even where its modifier keeps it from meaning anything. -/
def wasMonth (t : List Char) : Bool := t.head? = some 'b' || t.head? = some 'h'

/-- A directive after its percent sign, and what follows it. -/
def directive (m : Moment) (room : Nat) (t : List Char) : List Char × List Char :=
  let (l, afterFlags) := readFlags .plain t
  let (l, afterWidth) := readWidth room l afterFlags
  let (modifier, afterModifier) := match afterWidth with
    | 'E' :: rest => (some 'E', rest)
    | 'O' :: rest => (some 'O', rest)
    | rest => (none, rest)
  let rest := afterModifier.drop 1
  let raw := '%' :: t.take (t.length - rest.length)
  let upper := l.upper || (l.swap && modifier = some 'E' && wasMonth afterModifier)
  let unknown := l.text (if upper then Text.capitals raw else raw)
  match afterModifier with
  | [] => (unknown, [])
  | letter :: _ =>
    if modifier.any fun c => !takesModifier c letter then (unknown, rest)
    else match m.meaning? letter with
      | none => (unknown, rest)
      | some meaning => (l.apply meaning, rest)

/-- The format with each directive written out.  Each character takes a step. -/
def written (m : Moment) (room : Nat) : Nat → List Char → List Char
  | 0, _ => []
  | _, [] => []
  | steps + 1, '%' :: rest =>
    let (shown, left) := m.directive room rest
    shown ++ m.written room steps left
  | steps + 1, c :: rest => c :: m.written room steps rest

/-- The format with what does not depend on the moment written out: the zone, which is empty, and
the microseconds.  Only bare directives are meant, and a format ends at a null character. -/
def withoutZone : List Char → List Char
  | [] => []
  | '\x00' :: _ => []
  | '%' :: 'z' :: rest | '%' :: 'Z' :: rest => withoutZone rest
  | '%' :: 'f' :: rest => List.replicate 6 '0' ++ withoutZone rest
  | ['%'] => ['%']
  | '%' :: '\x00' :: _ => ['%']
  | '%' :: c :: rest => '%' :: c :: withoutZone rest
  | c :: rest => c :: withoutZone rest

/-- The room for what a format of a length says: a power of two that gives each character of the
format 256 places. -/
def roomFor (length : Nat) : Nat := max 1024 (Nat.pow 2 (Nat.log2 (256 * length - 1) + 1))

/-- The moment as a format says.  A text that does not fit into its room is dropped. -/
def format (m : Moment) (format : List Char) : List Char :=
  let format := withoutZone format
  let room := roomFor format.length
  let t := m.written room (format.length + 1) format
  if t.length < room then t else []

end Interop.Moment
