import Interop.Fault
import Interop.Number.Rounded

/-!
# Slots

A slot of a message is a percent sign, flags, a width, a precision and a letter.  The letter says
what becomes of a value: `%s` takes its plain text, `%r` and `%a` its quoted text, `%d` an integer,
`%o` and `%x` an integer in another base, `%e`, `%f` and `%g` a double, `%c` one character.  The
rest says how that is laid out.

A value that does not suit the letter has no text, and neither has one that would be too long.
-/

set_option autoImplicit false

namespace Interop.Log

/-- How a slot lays out its value. -/
structure SlotLayout where
  left : Bool
  plus : Bool
  blank : Bool
  alternate : Bool
  zeros : Bool
  width : Nat
  precision : Option Nat
deriving DecidableEq, Repr

namespace SlotLayout

/-- A text at the width of a slot. -/
def pad (l : SlotLayout) (t : List Char) : List Char :=
  let gap := List.replicate (l.width - t.length) ' '
  if l.left then t ++ gap else gap ++ t

/-- A text in a slot, cut at its precision. -/
def text (l : SlotLayout) (t : List Char) : List Char :=
  l.pad (match l.precision with
    | some n => t.take n
    | none => t)

/-- A number in a slot: its sign, what marks its base, and its digits.  If a flag asks, zeros
behind the sign and the mark fill up the slot. -/
def signed (l : SlotLayout) (negative : Bool) (mark digits : List Char) : List Char :=
  let sign := if negative then ['-'] else if l.plus then ['+'] else if l.blank then [' '] else []
  let head := sign ++ mark
  let zeros :=
    if l.zeros && !l.left then List.replicate (l.width - (head.length + digits.length)) '0' else []
  l.pad (head ++ zeros ++ digits)

/-- An integer in a slot, with zeros up to its precision. -/
def integer (l : SlotLayout) (mark : List Char) (base : Nat) (n : Int) : List Char :=
  let ds := Nat.toDigits base n.natAbs
  let zeros := List.replicate (l.precision.getD 0 - ds.length) '0'
  l.signed (decide (n < 0)) (if l.alternate then mark else []) (zeros ++ ds)

/-- How many digits a double has in a slot that does not say. -/
def usualPrecision : Nat := 6

/-- A double in a slot. -/
def double (l : SlotLayout) (style : Binary64.Spelling) (x : Binary64) : List Char :=
  l.signed x.isNegative [] (x.spell style l.alternate (l.precision.getD usualPrecision))

end SlotLayout

/-! ## Values -/

/-- The integer that a number stands for. -/
def slotInteger? : Value → Option Int
  | .bool b => some (if b then 1 else 0)
  | .number n => n.truncate.toOption
  | _ => none

/-- The same where a fraction is refused. -/
def exactInteger? : Value → Option Int
  | .number (.double _) => none
  | v => slotInteger? v

/-- The same where the decimal digits are asked for, which a very long integer does not have. -/
def decimalInteger? (v : Value) : Option Int :=
  (slotInteger? v).filter fun n => (Number.intText n).isOk

/-- The double that a number stands for. -/
def slotDouble? : Value → Option Binary64
  | .bool b => some (Binary64.ofInt (if b then 1 else 0))
  | .number n => n.toDouble.toOption
  | _ => none

/-- The character that a value stands for: a text of one, or the code of one. -/
def slotChar? : Value → Option Char
  | .text s =>
    match s.toList with
    | [c] => some c
    | _ => none
  | v => (exactInteger? v).bind fun n =>
    if 0 ≤ n ∧ n.toNat.isValidChar then some (Char.ofNat n.toNat) else none

/-- The layout, if there is room for its digits. -/
def SlotLayout.within? (l : SlotLayout) (room : Nat) : Option SlotLayout :=
  if l.precision.getD 0 ≤ room then some l else none

/-- A letter as one of the small ones, and whether it asks for capitals. -/
def slotLetter (letter : Char) : Char × Bool :=
  if "EFGX".toList.contains letter then (letter.toLower, true) else (letter, false)

/-- A value in a slot with a small letter. -/
def slotValue? (room : Nat) (l : SlotLayout) (letter : Char) (v : Value) : Option (List Char) :=
  match letter with
  | 's' => v.plainText.toOption.map l.text
  | 'r' => v.quotedText.toOption.map l.text
  | 'a' => v.quotedText.toOption.map fun t => l.text (t.flatMap fun c =>
      if c.toNat < 0x80 then [c] else ((Text.quotedAscii [c]).drop 1).dropLast)
  | 'd' | 'i' | 'u' => do return (← l.within? room).integer [] 10 (← decimalInteger? v)
  | 'o' => do return (← l.within? room).integer ['0', 'o'] 8 (← exactInteger? v)
  | 'x' => do return (← l.within? room).integer ['0', 'x'] 16 (← exactInteger? v)
  | 'e' => do return (← l.within? room).double .scientific (← slotDouble? v)
  | 'f' => do return (← l.within? room).double .positional (← slotDouble? v)
  | 'g' => do return (← l.within? room).double .general (← slotDouble? v)
  | 'c' => (slotChar? v).map fun c => l.pad [c]
  | _ => none

/-- A value in a slot, where `room` is the longest text that there is room for. -/
def slotText? (room : Nat) (l : SlotLayout) (letter : Char) (v : Value) : Option (List Char) :=
  if room < l.width then none
  else
    let (letter, capitals) := slotLetter letter
    let t := slotValue? room l letter v
    if capitals then t.map (·.map Char.toUpper) else t

end Interop.Log
