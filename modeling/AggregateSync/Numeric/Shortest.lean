import AggregateSync.Numeric.Binary

/-!
# The shortest decimal that reads back

The decimals that round to a finite float form an interval around it, whose ends
belong to it exactly when the significand is even.  For one, two, ... seventeen
digits, `Binary.shortest` tests the two neighbours of the float on the grid of
that many digits; the first grid with a neighbour inside the interval gives the
fewest digits, and of two such neighbours the nearer is taken.  All comparisons
are exact.
-/

namespace AggregateSync

/-- The decimal `digits * 10 ^ exponent`. -/
structure Decimal where
  digits : Nat
  exponent : Int
  deriving DecidableEq, Repr

namespace Decimal

def length (n : Nat) : Nat := (Nat.toDigits 10 n).length

/-- The same decimal without zeros at the end of its digits, as far as `fuel`
divisions go. -/
def trim : Nat → Decimal → Decimal
  | 0, d => d
  | fuel + 1, d =>
    if d.digits ≠ 0 ∧ d.digits % 10 = 0 then trim fuel ⟨d.digits / 10, d.exponent + 1⟩
    else d

/-- The greatest exponent whose power of ten is at most the given ratio. -/
def leadingExponent (numerator denominator : Nat) : Int :=
  let guess : Int := (length numerator : Int) - length denominator
  let reached :=
    if 0 ≤ guess then decide (denominator * Nat.pow 10 guess.toNat ≤ numerator)
    else decide (denominator ≤ numerator * Nat.pow 10 (-guess).toNat)
  if reached then guess else guess - 1

end Decimal

/-- Which of two equally near decimals is taken. -/
inductive Tie where
  | toEven
  | up
  deriving DecidableEq, Repr

/-- The values that round to one float, as numerators over one denominator. -/
structure RoundingInterval where
  low : Nat
  value : Nat
  high : Nat
  denominator : Nat
  closed : Bool
  deriving Repr

namespace RoundingInterval

/-- The interval of a finite float that is not zero.  The gap below a power of
two is half the gap above it. -/
def ofBinary {format : BinaryFormat} (x : Binary format) : RoundingInterval :=
  let significand := x.significand
  let narrow :=
    decide (significand = Nat.pow 2 format.fractionBits) && decide (format.leastScale < x.scale)
  let unit := x.scale - 2
  let factor := if 0 ≤ unit then Nat.pow 2 unit.toNat else 1
  { low := (4 * significand - (if narrow then 1 else 2)) * factor
    value := 4 * significand * factor
    high := (4 * significand + 2) * factor
    denominator := if 0 ≤ unit then 1 else Nat.pow 2 (-unit).toNat
    closed := decide (significand % 2 = 0) }

/-- The neighbour of the float on the grid of `10 ^ exponent` that lies in the
interval, the nearer one if both do. -/
def neighbour? (tie : Tie) (interval : RoundingInterval) (exponent : Int) : Option Nat :=
  let step := (if 0 ≤ exponent then Nat.pow 10 exponent.toNat else 1) * interval.denominator
  let factor := if 0 ≤ exponent then 1 else Nat.pow 10 (-exponent).toNat
  let inside (candidate : Nat) : Bool :=
    let point := candidate * step
    if interval.closed then
      decide (interval.low * factor ≤ point) && decide (point ≤ interval.high * factor)
    else
      decide (interval.low * factor < point) && decide (point < interval.high * factor)
  let value := interval.value * factor
  let lower := value / step
  let upper := lower + 1
  if inside lower then
    if inside upper then
      let middle := (2 * lower + 1) * step
      if 2 * value < middle then some lower
      else if middle < 2 * value then some upper
      else match tie with
        | .toEven => some (lower + lower % 2)
        | .up => some upper
    else some lower
  else if inside upper then some upper
  else none

end RoundingInterval

/-- The decimal with the fewest digits that rounds to a finite float which is not
zero, and among those the nearest. -/
def Binary.shortest {format : BinaryFormat} (tie : Tie) (x : Binary format) : Decimal :=
  let interval := RoundingInterval.ofBinary x
  let leading := Decimal.leadingExponent interval.value interval.denominator
  let found := (List.range 17).findSome? fun (extra : Nat) =>
    let exponent := leading - extra
    (interval.neighbour? tie exponent).map (⟨·, exponent⟩)
  Decimal.trim 17 (found.getD ⟨0, 0⟩)

end AggregateSync
