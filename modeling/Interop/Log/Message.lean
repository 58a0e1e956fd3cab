import Interop.Log.Slot
import Interop.Text.Ascii

/-!
# Messages with slots

A message is a text with slots that values fill in order.  A slot may name its value by a key in
parentheses, if the message has a table for it, and may take its width or its precision from the
values, where an asterisk stands for it.  Two percent signs in a row stand for one.

A message without values is taken as it is.  There is no result if the slots and the values do not
fit.
-/

set_option autoImplicit false

namespace Interop.Log

/-! ## Reading slots -/

/-- A width or a precision as a slot gives it. -/
inductive SlotCount
  | absent
  | given (n : Nat)
  /-- The next value says. -/
  | taken
deriving DecidableEq, Repr

/-- A slot as it is written. -/
structure Slot where
  key : Option (List Char)
  /-- The layout as far as the flags say. -/
  flags : SlotLayout
  width : SlotCount
  precision : SlotCount
  letter : Char
deriving DecidableEq, Repr

def SlotLayout.plain : SlotLayout := ⟨false, false, false, false, false, 0, none⟩

def slotFlags (l : SlotLayout) : List Char → SlotLayout × List Char
  | '-' :: rest => slotFlags { l with left := true } rest
  | '+' :: rest => slotFlags { l with plus := true } rest
  | ' ' :: rest => slotFlags { l with blank := true } rest
  | '#' :: rest => slotFlags { l with alternate := true } rest
  | '0' :: rest => slotFlags { l with zeros := true } rest
  | rest => (l, rest)

/-- A count at the start of a text, which has to stay below a limit, and what follows it. -/
def slotCount (limit : Nat) (t : List Char) : Option (SlotCount × List Char) :=
  match t with
  | '*' :: rest => some (.taken, rest)
  | t =>
    match t.takeWhile Text.isAsciiDigit with
    | [] => some (.absent, t)
    | ds =>
      let n := Number.digitsValue ds
      if n < limit then some (.given n, t.drop ds.length) else none

/-- No width is as large as this. -/
def widthLimit : Nat := twoTo 63

/-- No precision is as large as this. -/
def precisionLimit : Nat := twoTo 31

/-- A precision behind its point; a point alone stands for zero. -/
def slotPrecision : List Char → Option (SlotCount × List Char)
  | '.' :: rest => do
    match ← slotCount precisionLimit rest with
    | (.absent, rest) => return (.given 0, rest)
    | found => return found
  | rest => some (.absent, rest)

/-- A mark of size, which means nothing. -/
def dropSizeMark : List Char → List Char
  | 'h' :: rest | 'l' :: rest | 'L' :: rest => rest
  | rest => rest

/-- A key in parentheses, which may contain others. -/
def slotKey : Nat → List Char → Option (List Char × List Char)
  | _, [] => none
  | 0, ')' :: rest => some ([], rest)
  | depth + 1, ')' :: rest => (slotKey depth rest).map fun (key, left) => (')' :: key, left)
  | depth, '(' :: rest => (slotKey (depth + 1) rest).map fun (key, left) => ('(' :: key, left)
  | depth, c :: rest => (slotKey depth rest).map fun (key, left) => (c :: key, left)

/-- The key of a slot, if it has one, and what follows it. -/
def slotName : List Char → Option (Option (List Char) × List Char)
  | '(' :: rest => (slotKey 0 rest).map fun (key, rest) => (some key, rest)
  | rest => some (none, rest)

/-- A slot behind its percent sign, and what follows it. -/
def readSlot (t : List Char) : Option (Slot × List Char) := do
  let (key, t) ← slotName t
  let (flags, t) := slotFlags .plain t
  let (width, t) ← slotCount widthLimit t
  let (precision, t) ← slotPrecision t
  match dropSizeMark t with
  | [] => none
  | letter :: rest => return ({ key, flags, width, precision, letter }, rest)

/-! ## Filling slots -/

/-- The values of a message that are left: items in order, or a table to look them up in.  A table
has at most one value in hand: itself before anything was looked up, then what was looked up
last. -/
inductive SlotValues
  | items (vs : List Value)
  | table (entries : Value.Entries) (inHand : Option Value)
deriving Repr

namespace SlotValues

/-- The values as a slot with or without a key finds them. -/
def lookUp? (key : Option (List Char)) (vs : SlotValues) : Option SlotValues :=
  match key, vs with
  | none, vs => some vs
  | some _, items _ => none
  | some key, table entries _ =>
    (Value.lookup (String.ofList key) entries).map fun v => table entries (some v)

/-- The next value, and the values that are left. -/
def next? : SlotValues → Option (Value × SlotValues)
  | items (v :: vs) => some (v, items vs)
  | items [] => none
  | table entries (some v) => some (v, table entries none)
  | table _ none => none

/-- Whether all values were used; a table need not be. -/
def allUsed : SlotValues → Bool
  | items vs => vs.isEmpty
  | table .. => true

end SlotValues

/-- The number that a count stands for. -/
def SlotCount.resolve? (vs : SlotValues) : SlotCount → Option (Option Int × SlotValues)
  | absent => some (none, vs)
  | given n => some (some n, vs)
  | taken => do
    let (v, vs) ← vs.next?
    return (some (← exactInteger? v), vs)

/-- Whether an integer lies from `-limit` up to `limit`, which itself is too large. -/
def withinLimit (limit : Nat) (n : Int) : Bool := -(limit : Int) ≤ n && n < limit

/-- A layout with a width.  A negative one stands for its magnitude and puts the value on the
left; the least one of all has no magnitude to stand for. -/
def SlotLayout.withWidth? (l : SlotLayout) : Option Int → Option SlotLayout
  | none => some l
  | some n =>
    if !withinLimit widthLimit n then none
    else if n = -(widthLimit : Int) then some { l with left := true }
    else some { l with left := l.left || n < 0, width := n.natAbs }

/-- A layout with a precision.  A negative one stands for zero. -/
def SlotLayout.withPrecision? (l : SlotLayout) : Option Int → Option SlotLayout
  | none => some l
  | some n => if withinLimit precisionLimit n then some { l with precision := some n.toNat } else none

/-- The text of a slot, and the values that it leaves. -/
def Slot.fill? (room : Nat) (s : Slot) (vs : SlotValues) : Option (List Char × SlotValues) := do
  let vs ← vs.lookUp? s.key
  let (width, vs) ← s.width.resolve? vs
  let l ← s.flags.withWidth? width
  let (precision, vs) ← s.precision.resolve? vs
  let l ← l.withPrecision? precision
  let (v, vs) ← vs.next?
  return (← slotText? room l s.letter v, vs)

/-- Fills the slots of a text.  Each character takes a step. -/
def fillSlots (room : Nat) : Nat → List Char → SlotValues → Option (List Char)
  | 0, _, _ => none
  | _, [], vs => if vs.allUsed then some [] else none
  | steps + 1, '%' :: '%' :: rest, vs => do return '%' :: (← fillSlots room steps rest vs)
  | steps + 1, '%' :: rest, vs => do
    let (slot, rest) ← readSlot rest
    let (t, vs) ← slot.fill? room vs
    return t ++ (← fillSlots room steps rest vs)
  | steps + 1, c :: rest, vs => do return c :: (← fillSlots room steps rest vs)

/-- The text of a message and its values.  A single table that is not empty gives its entries by
key. -/
def message? (room : Nat) (t : List Char) (values : List Value) : Option (List Char) :=
  match values with
  | [] => some t
  | [.table (e :: entries)] =>
    let whole := e :: entries
    fillSlots room (t.length + 1) t (.table whole (some (.table whole)))
  | values => fillSlots room (t.length + 1) t (.items values)

end Interop.Log
