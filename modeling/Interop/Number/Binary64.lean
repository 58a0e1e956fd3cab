/-!
# Doubles as exact numbers

A finite double is a sign, a significand and a power of two, held as such: nothing here rests on
the arithmetic of the machine.  Every operation computes its exact result as a quotient of
integers and rounds it once, to the nearest double and on a tie to the even significand
(`ofRatio`).  Comparisons are made on exact values and never round.
-/

set_option autoImplicit false

namespace Interop

/-- A power of two. -/
def twoTo (k : Nat) : Nat := Nat.pow 2 k

/-- A power of ten. -/
def tenTo (k : Nat) : Nat := Nat.pow 10 k

/-- A double: not a number, an infinity, or `± significand · 2 ^ exponent`.  Values built by
`ofRatio` have a significand below `2 ^ 53` and an exponent of at least `-1074`, with the
significand at least `2 ^ 52` unless the exponent is `-1074`. -/
inductive Binary64
  | nan
  | infinite (negative : Bool)
  | finite (negative : Bool) (significand : Nat) (exponent : Int)
deriving DecidableEq, Repr, Inhabited

namespace Binary64

/-! ## Rounding -/

/-- A zero of either sign. -/
def zero (negative : Bool) : Binary64 := .finite negative 0 (-1074)

/-- The greatest `k` with `2 ^ k ≤ num / den`, for positive arguments. -/
def floorLog2 (num den : Nat) : Int :=
  let k : Int := (num.log2 : Int) - den.log2
  if num * twoTo (-k).toNat < den * twoTo k.toNat then k - 1 else k

/-- The whole number nearest to `num / den`; a half goes to the even neighbour. -/
def roundDiv (num den : Nat) : Nat :=
  let q := num / den
  let r := num % den
  if 2 * r < den ∨ (2 * r = den ∧ q % 2 = 0) then q else q + 1

/-- The double nearest to `± num / den`.  A magnitude of `2 ^ 1024 - 2 ^ 970` or more is an
infinity. -/
def ofRatio (negative : Bool) (num den : Nat) : Binary64 :=
  if num = 0 ∨ den = 0 then zero negative
  else
    let e := max (floorLog2 num den - 52) (-1074)
    let m := roundDiv (num * twoTo (-e).toNat) (den * twoTo e.toNat)
    let (m, e) := if m = twoTo 53 then (twoTo 52, e + 1) else (m, e)
    if e > 971 then .infinite negative else .finite negative m e

/-- The double nearest to `n`. -/
def ofInt (n : Int) : Binary64 := ofRatio (decide (n < 0)) n.natAbs 1

/-- The double nearest to `± digits · 10 ^ exponent`. -/
def ofDecimal (negative : Bool) (digits : Nat) (exponent : Int) : Binary64 :=
  -- Beyond these bounds the answer is settled, and the powers need not be computed.
  if digits = 0 then zero negative
  else if exponent > 400 then .infinite negative
  else if exponent < -400 - (digits.log2 : Int) then zero negative
  else ofRatio negative (digits * tenTo exponent.toNat) (tenTo (-exponent).toNat)

/-! ## Exact values -/

/-- The value of a finite double as an integer over a positive integer. -/
def toRatio? : Binary64 → Option (Int × Nat)
  | .finite negative m e =>
    let num : Int := ((m * twoTo e.toNat : Nat) : Int)
    some (if negative then -num else num, twoTo (-e).toNat)
  | _ => none

/-- The sign bit; a number that is not one counts as positive. -/
def isNegative : Binary64 → Bool
  | .nan => false
  | .infinite negative | .finite negative _ _ => negative

def isZero : Binary64 → Bool
  | .finite _ m _ => m == 0
  | _ => false

/-- Whether the value is a whole number. -/
def isWhole (x : Binary64) : Bool :=
  match x.toRatio? with
  | some (num, den) => num % den == 0
  | none => false

/-- The whole number next to the value in the direction of zero. -/
def truncate? (x : Binary64) : Option Int :=
  x.toRatio?.map fun (num, den) => num.tdiv den

/-! ## Arithmetic -/

def neg : Binary64 → Binary64
  | .nan => .nan
  | .infinite s => .infinite !s
  | .finite s m e => .finite (!s) m e

/-- The rounded value of `num / den`; an exact zero takes the sign given. -/
def ofSigned (zeroSign : Bool) (num : Int) (den : Nat) : Binary64 :=
  if num = 0 then zero zeroSign else ofRatio (decide (num < 0)) num.natAbs den

def add : Binary64 → Binary64 → Binary64
  | .nan, _ | _, .nan => .nan
  | .infinite s, .infinite t => if s = t then .infinite s else .nan
  | .infinite s, _ | _, .infinite s => .infinite s
  | x@(.finite s _ _), y@(.finite t _ _) =>
    match x.toRatio?, y.toRatio? with
    | some (a, b), some (c, d) => ofSigned (s && t) (a * d + c * b) (b * d)
    | _, _ => .nan

def sub (x y : Binary64) : Binary64 := x.add y.neg

def mul : Binary64 → Binary64 → Binary64
  | .nan, _ | _, .nan => .nan
  | .infinite s, y => if y.isZero then .nan else .infinite (xor s y.isNegative)
  | x, .infinite t => if x.isZero then .nan else .infinite (xor x.isNegative t)
  | x@(.finite s _ _), y@(.finite t _ _) =>
    match x.toRatio?, y.toRatio? with
    | some (a, b), some (c, d) => ofSigned (xor s t) (a * c) (b * d)
    | _, _ => .nan

/-- The quotient for a divisor other than zero. -/
def div : Binary64 → Binary64 → Binary64
  | .nan, _ | _, .nan => .nan
  | .infinite _, .infinite _ => .nan
  | .infinite s, y => .infinite (xor s y.isNegative)
  | x, .infinite t => zero (xor x.isNegative t)
  | x@(.finite s _ _), y@(.finite t _ _) =>
    match x.toRatio?, y.toRatio? with
    | some (a, b), some (c, d) =>
      if c = 0 then .nan
      else ofSigned (xor s t) (a * d * c.sign) (b * c.natAbs)
    | _, _ => .nan

/-- The remainder of the division that rounds toward zero; it is exact and has the sign of the
dividend. -/
def remainder : Binary64 → Binary64 → Binary64
  | .nan, _ | _, .nan => .nan
  | .infinite _, _ => .nan
  | x, .infinite _ => x
  | x@(.finite s _ _), y =>
    match x.toRatio?, y.toRatio? with
    | some (a, b), some (c, d) =>
      if c = 0 then .nan else ofSigned s ((a * d).tmod (c * b)) (b * d)
    | _, _ => .nan

/-- The greatest whole number not above the value. -/
def floor (x : Binary64) : Binary64 :=
  match x.toRatio? with
  | some (num, den) => ofSigned x.isNegative (num / (den : Int)) 1
  | none => x

/-- The quotient rounded down, for a divisor other than zero.  It is taken from the exact
remainder, so that it is a whole number even where the rounded quotient is not; a zero has the
sign of the true quotient. -/
def floorDiv (x y : Binary64) : Binary64 :=
  let r := remainder x y
  let q := div (sub x r) y
  let q := if r != .nan && !r.isZero && (xor r.isNegative y.isNegative) then sub q (ofInt 1) else q
  if q.isZero then zero (div x y).isNegative
  else
    let f := q.floor
    match (sub q f).toRatio? with
    | some (num, den) => if num * 2 > den then add f (ofInt 1) else f
    | none => f

/-! ## Order -/

/-- How a double compares with `num / den`; nothing compares with what is not a number. -/
def compareRatio (x : Binary64) (num : Int) (den : Nat) : Option Ordering :=
  match x with
  | .nan => none
  | .infinite negative => some (if negative then .lt else .gt)
  | .finite .. => x.toRatio?.map fun (a, b) => compare (a * den) (num * b)

/-- How two doubles compare. -/
def compare? (x y : Binary64) : Option Ordering :=
  match y with
  | .nan => none
  | .infinite negative =>
    match x with
    | .nan => none
    | .infinite s => some (if s = negative then .eq else if s then .lt else .gt)
    | .finite .. => some (if negative then .gt else .lt)
  | .finite .. => y.toRatio?.bind fun (num, den) => x.compareRatio num den

end Binary64

end Interop
