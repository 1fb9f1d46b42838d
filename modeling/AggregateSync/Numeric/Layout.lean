import AggregateSync.Numeric.Shortest

/-!
# Writing floats

A `Layout` holds the decisions that a format takes once the digits are known:
which magnitudes are written positionally, what follows a whole number, and which
way a tie between two shortest decimals goes.  Positional text has no exponent;
the other form has one digit before the point and a signed exponent.
-/

namespace AggregateSync

/-- The decisions of one way of writing finite floats. -/
structure Layout where
  /-- Which of two equally near shortest decimals is written. -/
  tie : Tie
  /-- The exponents of the leading digit that are written positionally, both ends
  included; every exponent if there is no range. -/
  positional : Option (Int × Int)
  /-- What follows the digits of a whole number. -/
  wholeMark : String
  deriving Repr

namespace Layout

/-- The digits of a decimal with a point where it belongs and as many zeros as
that takes. -/
def positionalText (wholeMark : String) (d : Decimal) : String :=
  let digits := Nat.toDigits 10 d.digits
  if 0 ≤ d.exponent then
    String.ofList (digits ++ List.replicate d.exponent.toNat '0') ++ wholeMark
  else
    let places := (-d.exponent).toNat
    let padded := List.replicate (places + 1 - digits.length) '0' ++ digits
    let whole := padded.length - places
    String.ofList (padded.take whole) ++ "." ++ String.ofList (padded.drop whole)

/-- One digit before the point, the others after it, and the exponent of the
leading digit with its sign. -/
def exponentText (d : Decimal) : String :=
  let digits := Nat.toDigits 10 d.digits
  let leading := d.exponent + digits.length - 1
  let fraction := digits.drop 1
  let point := if fraction.isEmpty then "" else "."
  let sign := if leading < 0 then "-" else "+"
  String.ofList (digits.take 1) ++ point ++ String.ofList fraction ++
    "e" ++ sign ++ toString leading.natAbs

def decimalText (layout : Layout) (d : Decimal) : String :=
  let leading := d.exponent + Decimal.length d.digits - 1
  match layout.positional with
  | none => positionalText layout.wholeMark d
  | some (least, greatest) =>
    if least ≤ leading ∧ leading ≤ greatest then positionalText layout.wholeMark d
    else exponentText d

def text {format : BinaryFormat} (layout : Layout) (x : Binary format) : String :=
  let sign := if x.negative then "-" else ""
  if x.isZero then sign ++ "0" ++ layout.wholeMark
  else sign ++ layout.decimalText (x.shortest layout.tie)

end Layout

end AggregateSync
