import AggregateSync.Json.Syntax

/-!
# The value of a JSON text

A number with neither point nor exponent is a whole number if 64 bits hold it.
Every other number is a float: its digits are gathered while 64 bits hold them and
the rest only shift the point, then the gathered digits are multiplied or divided
by one power of ten, each step rounded.  A result beyond the finite floats, half a
surrogate pair and more than 127 nested containers have no value.
-/

namespace AggregateSync

namespace NumberLiteral

/-- The largest number that unsigned 64 bits hold. -/
def gatherLimit : Nat := Nat.pow 2 64 - 1

/-- Appends digits to a number while it stays within the limit, and gives the
digits that are left. -/
def gather : Nat → List Nat → Nat × List Nat
  | total, [] => (total, [])
  | total, digit :: rest =>
    if total * 10 + digit ≤ gatherLimit then gather (total * 10 + digit) rest
    else (total, digit :: rest)

def powerOfTen (exponent : Nat) : Double := .ofRatio false (Nat.pow 10 exponent) 1

/-- A gathered number times a power of ten, rounded after each step.  Below the
smallest tabulated power the number is first divided by `1e308`; dividing twice
leaves zero. -/
def scaled (digits : Nat) (exponent : Int) : Double :=
  let start : Double := .ofInt digits
  if digits = 0 then start
  else if 308 < exponent then .infinite false
  else if 0 ≤ exponent then start.mulMagnitude (powerOfTen exponent.toNat)
  else if -308 ≤ exponent then start.divMagnitude (powerOfTen (-exponent).toNat)
  else if -616 ≤ exponent then
    (start.divMagnitude (powerOfTen 308)).divMagnitude (powerOfTen (-exponent - 308).toNat)
  else .zero false

/-- The float that a number is read as, if it is finite. -/
def float? (literal : NumberLiteral) : Option Double :=
  let (whole, wholeRest) := gather 0 literal.whole
  let (digits, fractionRest) := gather whole literal.fraction
  let places : Int := literal.fraction.length - fractionRest.length
  let magnitude := scaled digits (wholeRest.length - places + literal.exponent.getD 0)
  if magnitude.isInfinite then none
  else some (if literal.negative then magnitude.negate else magnitude)

/-- The number that a literal denotes.  Minus zero is a float. -/
def number? (literal : NumberLiteral) : Option JsonNumber :=
  let (whole, wholeRest) := gather 0 literal.whole
  if literal.fraction.isEmpty && literal.exponent.isNone && wholeRest.isEmpty &&
      (!literal.negative || (whole != 0 && decide (whole ≤ Nat.pow 2 63))) then
    some (.integer (if literal.negative then -(whole : Int) else whole))
  else literal.float?.map .float

end NumberLiteral

namespace Json

mutual

/-- The value of a document whose containers are nested at most `depth` deep. -/
def ofSyntax? (depth : Nat) : JsonSyntax → Option Json
  | .null => some null
  | .bool b => some (bool b)
  | .number literal => literal.number?.map number
  | .string content => content.map string
  | .array items =>
    match depth with
    | 0 => none
    | inner + 1 => (ofItems? inner items).map array
  | .object members =>
    match depth with
    | 0 => none
    | inner + 1 => (ofMembers? inner members).map ofMembers

def ofItems? (depth : Nat) : List JsonSyntax → Option (List Json)
  | [] => some []
  | item :: rest => do
    let first ← ofSyntax? depth item
    let others ← ofItems? depth rest
    return first :: others

def ofMembers? (depth : Nat) :
    List (Option String × JsonSyntax) → Option (List (String × Json))
  | [] => some []
  | (name?, member) :: rest => do
    let name ← name?
    let first ← ofSyntax? depth member
    let others ← ofMembers? depth rest
    return (name, first) :: others

end

def nestingLimit : Nat := 127

def parse? (text : String) : Option Json :=
  (JsonSyntax.parse? text).bind (ofSyntax? nestingLimit)

end Json

end AggregateSync
