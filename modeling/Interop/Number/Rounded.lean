import Interop.Number.Basic

/-!
# Doubles with a given number of digits

Where it is said how many digits to show, a double is rounded once, from its exact value, and a
half goes to the even neighbour.  The digits can stand around the point (`positional`), behind one
digit and in front of an exponent (`scientific`), or in whichever of the two suits the size and
without zeros at the end (`general`).
-/

set_option autoImplicit false

namespace Interop.Binary64

/-- How a double is spelled with a given precision. -/
inductive Spelling
  /-- The precision counts the digits after the point. -/
  | positional
  /-- The precision counts the digits after the first one. -/
  | scientific
  /-- The precision counts all digits. -/
  | general
deriving DecidableEq, Repr

/-- The parts of a spelled magnitude. -/
structure Spelled where
  whole : List Char
  fraction : List Char
  exponent : Option Int
deriving DecidableEq, Repr

/-- No double has more digits than this, before and after the point taken together: further ones
are zeros. -/
def exactDigits : Nat := 1100

/-- Digits with zeros behind them up to a count. -/
def extend (count : Nat) (ds : List Char) : List Char :=
  ds ++ List.replicate (count - ds.length) '0'

/-- The decimal of `count` digits that is nearest to `num / den`, under the condition of
`decimalPoint`. -/
def nearestDecimal (count num den : Nat) : Decimal :=
  if num = 0 then ⟨0, count, 1⟩
  else
    let point := decimalPoint num den
    let scale := point - count
    let d := roundDiv (num * tenTo (-scale).toNat) (den * tenTo scale.toNat)
    if d = tenTo count then ⟨tenTo (count - 1), count, point + 1⟩ else ⟨d, count, point⟩

def positionalParts (precision num den : Nat) : Spelled :=
  let places := min precision exactDigits
  let ds := Number.digitsIn (places + 1) (roundDiv (num * tenTo places) den)
  let count := ds.length - places
  ⟨ds.take count, extend precision (ds.drop count), none⟩

def scientificParts (precision num den : Nat) : Spelled :=
  let d := nearestDecimal (min precision exactDigits + 1) num den
  let ds := Number.digitsIn d.count d.digits
  ⟨ds.take 1, extend precision (ds.drop 1), some (d.point - 1)⟩

/-- The exponent is written from `10 ^ -5` down, and where the digits do not reach the point.
Without `keepZeros` the zeros at the end are dropped. -/
def generalParts (keepZeros : Bool) (precision num den : Nat) : Spelled :=
  let precision := max precision 1
  let d := nearestDecimal (min precision exactDigits) num den
  let ds := Number.digitsIn d.count d.digits
  let ds := if keepZeros then extend precision ds else (ds.reverse.dropWhile (· == '0')).reverse
  if d.point ≤ -4 ∨ (precision : Int) < d.point then
    ⟨ds.take 1, ds.drop 1, some (d.point - 1)⟩
  else if d.point ≤ 0 then ⟨['0'], List.replicate (-d.point).toNat '0' ++ ds, none⟩
  else ⟨extend d.point.toNat (ds.take d.point.toNat), ds.drop d.point.toNat, none⟩

/-- The text of a magnitude.  A point without digits behind it stands only if it is to be kept. -/
def Spelled.text (keepPoint : Bool) (s : Spelled) : List Char :=
  s.whole ++ (if s.fraction.isEmpty && !keepPoint then [] else '.' :: s.fraction)
    ++ match s.exponent with
      | none => []
      | some e => Number.exponentText e

/-- The magnitude of a double with a precision.  With `full`, the point and all digits are kept. -/
def spell (style : Spelling) (full : Bool) (precision : Nat) (x : Binary64) : List Char :=
  match x.toRatio? with
  | none => if x = .nan then "nan".toList else "inf".toList
  | some (num, den) =>
    (match style with
      | .positional => positionalParts precision num.natAbs den
      | .scientific => scientificParts precision num.natAbs den
      | .general => generalParts full precision num.natAbs den).text full

end Interop.Binary64
