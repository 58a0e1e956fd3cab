import Interop.Number.Rounded
import Interop.Text.Digits

/-!
# Layouts

A layout says how a value fills its field: a character to fill with and a side, a sign, a width, a
separator of thousands, a precision and a letter for the kind of presentation.  A text takes few of
these, an integer nearly all; what a value does not take is refused, each with its own reason.
-/

set_option autoImplicit false

namespace Interop.Text

/-- A value as layouts see it. -/
inductive Laid
  | text
  | integer
deriving DecidableEq, Repr

/-- The name of a kind of value in messages. -/
def Laid.name : Laid → List Char
  | text => "str".toList
  | integer => "int".toList

/-- Why a value cannot be laid out. -/
inductive LayoutError
  | tooManyDigits
  | badLayout (layout : List Char) (value : Laid)
  | missingPrecision
  | bothSeparators
  | separator (mark letter : Char)
  | unknownLetter (letter : Char) (value : Laid)
  /-- Texts have no sign. -/
  | sign
  | space
  | negativeZero
  | alternate
  | padAfterSign
  | integerPrecision
  | integerNegativeZero
  | characterSign
  | characterAlternate
  /-- No character has this number. -/
  | noCharacter
  | largePrecision
  /-- There is no room for a text so long. -/
  | noRoom
deriving DecidableEq, Repr

/-- A character in a message: itself if it is printable ASCII, or else its code. -/
def shownChar (c : Char) : List Char :=
  if 32 < c.toNat ∧ c.toNat < 127 then [c] else '\\' :: 'x' :: Nat.toDigits 16 c.toNat

def LayoutError.message : LayoutError → List Char
  | tooManyDigits => "Too many decimal digits in format string".toList
  | badLayout layout value =>
    "Invalid format specifier '".toList ++ layout ++ "' for object of type '".toList ++ value.name
      ++ ['\'']
  | missingPrecision => "Format specifier missing precision".toList
  | bothSeparators => "Cannot specify both ',' and '_'.".toList
  | separator mark letter =>
    "Cannot specify '".toList ++ [mark] ++ "' with '".toList ++ shownChar letter ++ "'.".toList
  | unknownLetter letter value =>
    "Unknown format code '".toList ++ shownChar letter ++ "' for object of type '".toList
      ++ value.name ++ ['\'']
  | sign => "Sign not allowed in string format specifier".toList
  | space => "Space not allowed in string format specifier".toList
  | negativeZero => "Negative zero coercion (z) not allowed in string format specifier".toList
  | alternate => "Alternate form (#) not allowed in string format specifier".toList
  | padAfterSign => "'=' alignment not allowed in string format specifier".toList
  | integerPrecision => "Precision not allowed in integer format specifier".toList
  | integerNegativeZero =>
    "Negative zero coercion (z) not allowed in integer format specifier".toList
  | characterSign => "Sign not allowed with integer format specifier 'c'".toList
  | characterAlternate =>
    "Alternate form (#) not allowed with integer format specifier 'c'".toList
  | noCharacter => "%c arg not in range(0x110000)".toList
  | largePrecision => "precision too big".toList
  | noRoom => []

/-! ## Reading layouts -/

/-- A layout as it is written. -/
structure Layout where
  fill : Option Char
  /-- The side that the value is put on: `<`, `>`, `^` for the middle, or `=` for a sign on the left
  and digits on the right. -/
  align : Option Char
  sign : Option Char
  /-- Whether a zero has to lose its sign. -/
  unsignedZero : Bool
  alternate : Bool
  width : Option Nat
  separator : Option Char
  precision : Option Nat
  letter : Option Char
deriving DecidableEq, Repr

def isAlign (c : Char) : Bool := c == '<' || c == '>' || c == '=' || c == '^'

/-- Widths and counts are below this. -/
def countLimit : Nat := twoTo 63

/-- A decimal count at the beginning of a text, if there is one. -/
def leadingCount (t : List Char) : Except LayoutError (Option Nat × List Char) :=
  match t.takeWhile fun c => (decimalValue? c).isSome with
  | [] => .ok (none, t)
  | ds =>
    let n := ds.foldl (fun acc d => 10 * acc + (decimalValue? d).getD 0) 0
    if countLimit ≤ n then .error .tooManyDigits else .ok (some n, t.drop ds.length)

/-- Takes a character off the front, if it is there. -/
def takeMark (p : Char → Bool) : List Char → Option Char × List Char
  | [] => (none, [])
  | c :: rest => if p c then (some c, rest) else (none, c :: rest)

/-- The character to fill with and the side, if a text begins with them. -/
def leadingAlign (t : List Char) : Option Char × Option Char × List Char :=
  match t with
  | f :: a :: rest =>
    if isAlign a then (some f, some a, rest)
    else if isAlign f then (none, some f, a :: rest)
    else (none, none, t)
  | [a] => if isAlign a then (none, some a, []) else (none, none, t)
  | [] => (none, none, [])

/-- A precision behind its point, if there is one. -/
def leadingPrecision (t : List Char) : Except LayoutError (Option Nat × List Char) :=
  match t with
  | '.' :: rest => do
    match ← leadingCount rest with
    | (none, _) => throw .missingPrecision
    | found => return found
  | _ => .ok (none, t)

/-- The letters that a separator of thousands goes with. -/
def takesSeparator (mark letter : Char) : Bool :=
  "defgEG%F".toList.contains letter || (mark == '_' && "boxX".toList.contains letter)

/-- The letter of a value for which none is given. -/
def Laid.usualLetter : Laid → Char
  | text => 's'
  | integer => 'd'

/-- A zero in front of the width fills with zeros, unless a character to fill with is given; in a
number they go behind the sign, unless a side is given. -/
def leadingZero (value : Laid) (fill align : Option Char) (t : List Char) :
    Option Char × Option Char × List Char :=
  match fill, t with
  | none, '0' :: rest =>
    (some '0', if value = .integer then align.orElse fun _ => some '=' else align, rest)
  | _, _ => (fill, align, t)

/-- Reads a layout for a value. -/
def readLayout (value : Laid) (whole : List Char) : Except LayoutError Layout := do
  let (fill, align, t) := leadingAlign whole
  let (sign, t) := takeMark (fun c => c == ' ' || c == '+' || c == '-') t
  let (zeroMark, t) := takeMark (· == 'z') t
  let (alternateMark, t) := takeMark (· == '#') t
  let (fill, align, t) := leadingZero value fill align t
  let (width, t) ← leadingCount t
  let (comma, t) := takeMark (· == ',') t
  let (underscore, t) := takeMark (· == '_') t
  if comma.isSome && (underscore.isSome || t.head? = some '_') then throw .bothSeparators
  if underscore.isSome && t.head? = some ',' then throw .bothSeparators
  let (precision, t) ← leadingPrecision t
  let letter ← match t with
    | [] => pure none
    | [c] => pure (some c)
    | _ => throw (.badLayout whole value)
  let separator := comma.orElse fun _ => underscore
  if let some mark := separator then
    let letter := letter.getD value.usualLetter
    if !takesSeparator mark letter then throw (.separator mark letter)
  return {
    fill, align, sign, width, separator, precision, letter
    unsignedZero := zeroMark.isSome
    alternate := alternateMark.isSome }

/-! ## Laying out -/

/-- The width that a layout asks for, where `room` is the longest text that there is room for. -/
def Layout.widthWithin (l : Layout) (room : Nat) : Except LayoutError Nat :=
  let width := l.width.getD 0
  if room < width then .error .noRoom else .ok width

/-- What is missing at a width, as so many characters to the left and to the right. -/
def padding (align : Char) (gap : Nat) : Nat × Nat :=
  let before := match align with
    | '>' => gap
    | '^' => gap / 2
    | _ => 0
  (before, gap - before)

/-- Lays a text out.  The precision is the most characters to take. -/
def Layout.text (l : Layout) (room : Nat) (t : List Char) : Except LayoutError (List Char) := do
  let letter := l.letter.getD 's'
  if letter ≠ 's' then throw (.unknownLetter letter .text)
  match l.sign with
  | some ' ' => throw .space
  | some _ => throw .sign
  | none => pure ()
  if l.unsignedZero then throw .negativeZero
  if l.alternate then throw .alternate
  if l.align = some '=' then throw .padAfterSign
  let width ← l.widthWithin room
  let t := match l.precision with
    | some n => t.take n
    | none => t
  let (before, after) := padding (l.align.getD '<') (width - t.length)
  let fill := l.fill.getD ' '
  return List.replicate before fill ++ t ++ List.replicate after fill

/-- The parts of a number as it is written. -/
structure Numeral where
  negative : Bool
  /-- What marks the base. -/
  mark : List Char
  digits : List Char
  /-- How many digits a separator stands behind. -/
  groupSize : Nat
  /-- What follows the digits. -/
  rest : List Char
deriving DecidableEq, Repr

/-- Digits in groups, from the last group to the first, all of it in reverse.  Zeros are put in front
until `width` is reached; no separator stands in front of all digits.  Each group takes a step. -/
def groups (separator : Char) (size : Nat) : Nat → Nat → List Char → List Char
  | 0, _, ds => ds
  | steps + 1, width, ds =>
    let count := min size (max (max ds.length width) 1)
    let group := ds.take count ++ List.replicate (count - ds.length) '0'
    let left := ds.drop count
    if left.isEmpty && width ≤ count then group
    else group ++ separator :: groups separator size steps (width - count - 1) left

/-- The digits of a number at a width, in groups if there is a separator. -/
def Numeral.grouped (n : Numeral) (separator : Option Char) (width : Nat) : List Char :=
  match separator with
  | none => List.replicate (width - n.digits.length) '0' ++ n.digits
  | some mark =>
    (groups mark n.groupSize (n.digits.length + width + 1) width n.digits.reverse).reverse

/-- Lays a number out. -/
def Layout.numeral (l : Layout) (room : Nat) (n : Numeral) : Except LayoutError (List Char) := do
  let width ← l.widthWithin room
  let sign := if n.negative then ['-'] else match l.sign with
    | some '+' => ['+']
    | some ' ' => [' ']
    | _ => []
  let fill := l.fill.getD ' '
  let align := l.align.getD '>'
  let head := sign ++ n.mark
  let digitsWidth :=
    if fill = '0' ∧ align = '=' then width - (head.length + n.rest.length) else 0
  let ds := if n.digits.isEmpty then List.replicate digitsWidth '0'
    else n.grouped l.separator digitsWidth
  let gap := width - (head.length + ds.length + n.rest.length)
  if align = '=' then return head ++ List.replicate gap fill ++ ds ++ n.rest
  else
    let (before, after) := padding align gap
    return List.replicate before fill ++ head ++ ds ++ n.rest ++ List.replicate after fill

/-- How many digits a double has where the layout does not say. -/
def usualPrecision : Nat := 6

/-- The largest precision. -/
def precisionLimit : Nat := twoTo 31 - 1

/-- A double as a number to lay out: `scale` is what it is multiplied by, and `tail` what is put
behind it. -/
def Layout.doubleNumeral (l : Layout) (room : Nat) (style : Binary64.Spelling) (scale : Int)
    (tail : List Char) (n : Int) : Except LayoutError Numeral :=
  let precision := l.precision.getD usualPrecision
  if precisionLimit < precision then .error .largePrecision
  else if room < precision then .error .noRoom
  else
    let x := Binary64.mul (Binary64.ofInt n) (Binary64.ofInt scale)
    let t := x.spell style l.alternate precision
    .ok ⟨x.isNegative, [], t.takeWhile Char.isDigit, 3, t.dropWhile Char.isDigit ++ tail⟩

/-- An integer in a base as a number to lay out. -/
def Layout.baseNumeral (l : Layout) (base groupSize : Nat) (mark : List Char) (n : Int) :
    Except LayoutError Numeral := do
  if l.precision.isSome then throw .integerPrecision
  if l.unsignedZero then throw .integerNegativeZero
  return ⟨decide (n < 0), if l.alternate then mark else [], Nat.toDigits base n.natAbs, groupSize, []⟩

/-- The character of an integer as a number to lay out. -/
def Layout.characterNumeral (l : Layout) (n : Int) : Except LayoutError Numeral := do
  if l.precision.isSome then throw .integerPrecision
  if l.unsignedZero then throw .integerNegativeZero
  if l.sign.isSome then throw .characterSign
  if l.alternate then throw .characterAlternate
  if 0 ≤ n ∧ n.toNat.isValidChar then return ⟨false, [], [], 3, [Char.ofNat n.toNat]⟩
  else throw .noCharacter

def Numeral.capitals (n : Numeral) : Numeral :=
  { n with mark := n.mark.map Char.toUpper, digits := n.digits.map Char.toUpper,
           rest := n.rest.map Char.toUpper }

/-- Lays an integer out. -/
def Layout.integer (l : Layout) (room : Nat) (n : Int) : Except LayoutError (List Char) := do
  let numeral ← match l.letter.getD 'd' with
    | 'd' | 'n' => l.baseNumeral 10 3 [] n
    | 'b' => l.baseNumeral 2 4 ['0', 'b'] n
    | 'o' => l.baseNumeral 8 4 ['0', 'o'] n
    | 'x' => l.baseNumeral 16 4 ['0', 'x'] n
    | 'X' => Numeral.capitals <$> l.baseNumeral 16 4 ['0', 'x'] n
    | 'c' => l.characterNumeral n
    | 'e' => l.doubleNumeral room .scientific 1 [] n
    | 'f' => l.doubleNumeral room .positional 1 [] n
    | 'g' => l.doubleNumeral room .general 1 [] n
    | 'E' => Numeral.capitals <$> l.doubleNumeral room .scientific 1 [] n
    | 'F' => Numeral.capitals <$> l.doubleNumeral room .positional 1 [] n
    | 'G' => Numeral.capitals <$> l.doubleNumeral room .general 1 [] n
    | '%' => l.doubleNumeral room .positional 100 ['%'] n
    | letter => throw (.unknownLetter letter .integer)
  l.numeral room numeral

/-- A text laid out as directed; without directions it stays as it is. -/
def layOutText (room : Nat) (directions t : List Char) : Except LayoutError (List Char) := do
  if directions.isEmpty then return t else (← readLayout .text directions).text room t

/-- An integer laid out as directed. -/
def layOutInteger (room : Nat) (directions : List Char) (n : Int) :
    Except LayoutError (List Char) := do
  (← readLayout .integer directions).integer room n

end Interop.Text
