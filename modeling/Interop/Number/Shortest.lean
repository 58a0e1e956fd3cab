import Interop.Number.Binary64

/-!
# The fewest digits that read back

A positive double stands for every real number that rounds to it.  Among the decimal numbers in
that interval `shortest` takes one with the fewest digits, and of those the nearest to the value.
On each grid of `n` digits only the two grid points around the value need a look: if any point of
the grid lies in the interval, one of these two does.
-/

set_option autoImplicit false

namespace Interop.Binary64

/-- A decimal significand `0.d₁d₂… · 10 ^ point`, with the digits as one number. -/
structure Decimal where
  digits : Nat
  count : Nat
  point : Int
deriving DecidableEq, Repr

/-- The number of decimal digits of a positive integer. -/
def digitCount (n : Nat) : Nat := (Nat.toDigits 10 n).length

/-- The `p` with `10 ^ (p - 1) ≤ num / den < 10 ^ p`, for a positive quotient whose denominator
is one or is not a power of ten times the numerator. -/
def decimalPoint (num den : Nat) : Int :=
  if den ≤ num then digitCount (num / den) else 1 - (digitCount (den / num) : Int)

/-- The interval of the positive numbers that round to `m · 2 ^ e`, in units of `2 ^ (e - 2)`.
The gap below a power of two is half as wide as the gap above it. -/
def interval (m : Nat) (e : Int) : Nat × Nat :=
  (if m = twoTo 52 ∧ -1074 < e then 4 * m - 1 else 4 * m - 2, 4 * m + 2)

/-- The point nearest to the value on the grid of `n` digits, if it rounds to the value.  All
magnitudes are `x · num / den`, where `x` counts units of `2 ^ (e - 2)`. -/
def onGrid? (m : Nat) (e : Int) (point : Int) (n : Nat) : Option Nat :=
  let scale := point - n
  -- `value / 10 ^ scale` is `4 * m * up / down`.
  let up := twoTo (e - 2).toNat * tenTo (-scale).toNat
  let down := twoTo (2 - e).toNat * tenTo scale.toNat
  let (low, high) := interval m e
  let inside (d : Nat) : Bool :=
    if m % 2 = 0 then decide (low * up ≤ d * down ∧ d * down ≤ high * up)
    else decide (low * up < d * down ∧ d * down < high * up)
  let value := 4 * m * up
  let below := value / down
  let gapBelow := value - below * down
  let gapAbove := (below + 1) * down - value
  let nearest :=
    if gapBelow < gapAbove ∨ (gapBelow = gapAbove ∧ below % 2 = 0) then below else below + 1
  let other := if nearest = below then below + 1 else below
  if inside nearest then some nearest else if inside other then some other else none

/-- The first grid from `n` digits on that has a point in the interval. -/
def firstGrid (m : Nat) (e : Int) (point : Int) : Nat → Nat → Nat × Nat
  | n, 0 => ((onGrid? m e point n).getD 0, n)
  | n, fuel + 1 =>
    match onGrid? m e point n with
    | some d => (d, n)
    | none => firstGrid m e point (n + 1) fuel

/-- The shortest decimal that rounds to `m · 2 ^ e`, for a positive significand.  Seventeen
digits are always enough. -/
def shortest (m : Nat) (e : Int) : Decimal :=
  let point := decimalPoint (m * twoTo e.toNat) (twoTo (-e).toNat)
  let (d, n) := firstGrid m e point 1 16
  -- A value rounded up to the next power of ten has one digit more than its grid.
  if d = tenTo n then ⟨1, 1, point + 1⟩ else ⟨d, n, point⟩

end Interop.Binary64
