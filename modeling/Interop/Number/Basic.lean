import Interop.Number.Shortest

/-!
# Numbers of a document

A document holds integers of any size and doubles, and keeps the two apart: `4` and `4.0` are
equal and print differently.  Arithmetic on two integers is exact; as soon as a double takes part
both operands become doubles, which an integer of `2 ^ 1024` and more cannot.

The text of a number is decimal.  Integers of more than `digitLimit` digits are neither read nor
written.  A double has the fewest digits that read back, in positional notation when its first
digit stands for `10 ^ -4` up to `10 ^ 15`, and always with a point or an exponent.
-/

set_option autoImplicit false

namespace Interop

inductive Number
  | int (n : Int)
  | double (x : Binary64)
deriving DecidableEq, Repr, Inhabited

/-- Why a computation on numbers has no result. -/
inductive NumberFault
  /-- The text of an integer has this many digits, more than the limit. -/
  | tooManyDigitsToRead (count : Nat)
  /-- An integer has more digits than the limit. -/
  | tooManyDigitsToWrite
  /-- An integer too large for a double. -/
  | tooLargeForDouble
  /-- An integer was asked of an infinity. -/
  | infiniteToInteger
  /-- An integer was asked of what is not a number. -/
  | nanToInteger
deriving DecidableEq, Repr

namespace NumberFault

def message : NumberFault → String
  | tooManyDigitsToRead count =>
    "Exceeds the limit (4300 digits) for integer string conversion: value has "
      ++ Nat.repr count ++ " digits; use sys.set_int_max_str_digits() to increase the limit"
  | tooManyDigitsToWrite =>
    "Exceeds the limit (4300 digits) for integer string conversion; "
      ++ "use sys.set_int_max_str_digits() to increase the limit"
  | tooLargeForDouble => "int too large to convert to float"
  | infiniteToInteger => "cannot convert float infinity to integer"
  | nanToInteger => "cannot convert float NaN to integer"

end NumberFault

namespace Number

instance : OfNat Number 0 := ⟨.int 0⟩

/-! ## Arithmetic -/

/-- The number as a double. -/
def toDouble : Number → Except NumberFault Binary64
  | .double x => .ok x
  | .int n =>
    match Binary64.ofInt n with
    | .infinite _ => .error .tooLargeForDouble
    | x => .ok x

/-- An operation that is exact on integers and is done on doubles as soon as one takes part. -/
def lift (onInts : Int → Int → Int) (onDoubles : Binary64 → Binary64 → Binary64) :
    Number → Number → Except NumberFault Number
  | .int a, .int b => .ok (.int (onInts a b))
  | a, b => do return .double (onDoubles (← a.toDouble) (← b.toDouble))

def add : Number → Number → Except NumberFault Number := lift (· + ·) Binary64.add

def mul : Number → Number → Except NumberFault Number := lift (· * ·) Binary64.mul

/-- The quotient rounded down, for a divisor other than zero. -/
def floorDiv : Number → Number → Except NumberFault Number := lift Int.fdiv Binary64.floorDiv

/-- The sum of a list, from the left. -/
def sum : List Number → Except NumberFault Number :=
  List.foldlM add 0

/-- The integer next to the number in the direction of zero. -/
def truncate : Number → Except NumberFault Int
  | .int n => .ok n
  | .double .nan => .error .nanToInteger
  | .double (.infinite _) => .error .infiniteToInteger
  | .double x@(.finite ..) => .ok (x.truncate?.getD 0)

/-! ## Order -/

/-- How two numbers compare by value, without rounding either. -/
def compare? : Number → Number → Option Ordering
  | .int a, .int b => some (compare a b)
  | .double x, .int b => x.compareRatio b 1
  | .int a, .double y => (y.compareRatio a 1).map Ordering.swap
  | .double x, .double y => x.compare? y

/-- Equality by value: `4` equals `4.0`, and what is not a number equals nothing. -/
def equal (a b : Number) : Bool := a.compare? b == some .eq

def less (a b : Number) : Bool := a.compare? b == some .lt

def lessOrEqual (a b : Number) : Bool :=
  match a.compare? b with
  | some .lt | some .eq => true
  | _ => false

def isZero : Number → Bool
  | .int n => n == 0
  | .double x => x.isZero

/-- Whether the value is a whole number, in either form. -/
def isWhole : Number → Bool
  | .int _ => true
  | .double x => x.isWhole

/-! ## Text -/

/-- The most digits an integer may have to be read or written. -/
def digitLimit : Nat := 4300

/-- The digits of a natural number. -/
def natDigits (n : Nat) : List Char := Nat.toDigits 10 n

/-- The decimal text of an integer. -/
def intText (n : Int) : Except NumberFault (List Char) :=
  if tenTo digitLimit ≤ n.natAbs then .error .tooManyDigitsToWrite
  else .ok (if n < 0 then '-' :: natDigits n.natAbs else natDigits n.natAbs)

/-- The value of a run of ASCII digits. -/
def digitsValue (ds : List Char) : Nat :=
  ds.foldl (fun acc d => 10 * acc + (d.toNat - '0'.toNat)) 0

/-- Reads a run of ASCII digits of at most the permitted length. -/
def readDigits (ds : List Char) : Except NumberFault Nat :=
  if digitLimit < ds.length then .error (.tooManyDigitsToRead ds.length)
  else .ok (digitsValue ds)

/-- The digits of a number, with zeros in front of them up to a count. -/
def digitsIn (count n : Nat) : List Char :=
  let ds := natDigits n
  List.replicate (count - ds.length) '0' ++ ds

/-- An exponent behind its mark, of two digits or more. -/
def exponentText (exponent : Int) : List Char :=
  'e' :: (if exponent < 0 then '-' else '+') :: digitsIn 2 exponent.natAbs

/-- The layout of a decimal: positional for exponents from `-4` to `15`. -/
def decimalText (d : Binary64.Decimal) : List Char :=
  let ds := digitsIn d.count d.digits
  if -4 < d.point ∧ d.point ≤ 16 then
    if d.point ≤ 0 then '0' :: '.' :: (List.replicate (-d.point).toNat '0' ++ ds)
    else
      let whole := d.point.toNat
      if d.count ≤ whole then ds ++ List.replicate (whole - d.count) '0' ++ ['.', '0']
      else ds.take whole ++ '.' :: ds.drop whole
  else
    let mantissa := match ds with
      | [] => []
      | [x] => [x]
      | x :: rest => x :: '.' :: rest
    mantissa ++ exponentText (d.point - 1)

/-- The text of a double. -/
def doubleText : Binary64 → List Char
  | .nan => "nan".toList
  | .infinite negative => if negative then "-inf".toList else "inf".toList
  | .finite negative m e =>
    let body := if m = 0 then ['0', '.', '0'] else decimalText (Binary64.shortest m e)
    if negative then '-' :: body else body

/-- The text of a number. -/
def text : Number → Except NumberFault (List Char)
  | .int n => intText n
  | .double x => .ok (doubleText x)

end Number

end Interop
