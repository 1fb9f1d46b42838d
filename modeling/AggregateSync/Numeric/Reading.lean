import AggregateSync.Numeric.Binary

/-!
# Reading decimal text as a float

The accepted texts are an optional sign followed by `inf`, `infinity` or `nan` in
any case, or by digits with at most one point and an optional exponent; at least
one digit stands before or after the point and in the exponent.  The value is the
float nearest to the decimal, so text of any length is rounded once.
-/

namespace AggregateSync

namespace DecimalReading

def natOfDigits (digits : List Char) : Nat :=
  digits.foldl (fun total digit => total * 10 + (digit.toNat - '0'.toNat)) 0

/-- An optional sign; `true` stands for minus. -/
def splitSign : List Char → Bool × List Char
  | '-' :: rest => (true, rest)
  | '+' :: rest => (false, rest)
  | chars => (false, chars)

/-- The exponent after the digits: none at all, or `e` with a signed number. -/
def exponent? : List Char → Option Int
  | [] => some 0
  | mark :: rest =>
    if mark = 'e' ∨ mark = 'E' then
      let (negative, digits) := splitSign rest
      if digits.isEmpty || !digits.all Char.isDigit then none
      else some (if negative then -(natOfDigits digits : Int) else natOfDigits digits)
    else none

/-- The float nearest to `digits * 10 ^ exponent`.  Beyond four hundred places the
answer is infinite or zero whatever the digits are. -/
def nearest (negative : Bool) (digits : Nat) (exponent : Int) : Double :=
  if digits = 0 then .zero negative
  else
    let places := exponent + (Nat.toDigits 10 digits).length
    if 400 < places then .infinite negative
    else if places < -400 then .zero negative
    else if 0 ≤ exponent then .ofRatio negative (digits * Nat.pow 10 exponent.toNat) 1
    else .ofRatio negative digits (Nat.pow 10 (-exponent).toNat)

/-- Digits with at most one point, and an exponent. -/
def number? (negative : Bool) (chars : List Char) : Option Double :=
  let whole := chars.takeWhile Char.isDigit
  let afterWhole := chars.dropWhile Char.isDigit
  let (fraction, rest) := match afterWhole with
    | '.' :: tail => (tail.takeWhile Char.isDigit, tail.dropWhile Char.isDigit)
    | _ => ([], afterWhole)
  if whole.isEmpty && fraction.isEmpty then none
  else (exponent? rest).map fun exponent =>
    nearest negative (natOfDigits (whole ++ fraction)) (exponent - fraction.length)

/-- The names of the values that are not finite, in lower case. -/
def named? (negative : Bool) (name : String) : Option Double :=
  if name = "inf" ∨ name = "infinity" then some (.infinite negative)
  else if name = "nan" then some (.nan negative)
  else none

end DecimalReading

def Binary.read? (text : String) : Option Double :=
  let (negative, chars) := DecimalReading.splitSign text.toList
  (DecimalReading.number? negative chars).orElse fun _ =>
    DecimalReading.named? negative (String.ofList (chars.map Char.toLower))

end AggregateSync
