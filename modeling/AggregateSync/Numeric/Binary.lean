/-!
# Binary interchange floats

A float is kept as its sign and the pattern of its magnitude, so that equality,
hashing and rounding can be reasoned about exactly.  A finite pattern stands for
`significand * 2 ^ scale`.  Every operation works on that pair in natural numbers
and rounds once, to the nearest representable value, a tie going to the even
significand; because consecutive patterns stand for consecutive magnitudes, a
carry out of the significand lands in the exponent by itself.
-/

namespace AggregateSync

/-- The widths of the fraction and exponent fields of an interchange format. -/
structure BinaryFormat where
  fractionBits : Nat
  exponentBits : Nat
  deriving DecidableEq, Repr

namespace BinaryFormat

def single : BinaryFormat := ⟨23, 8⟩

def double : BinaryFormat := ⟨52, 11⟩

/-- The number of bits of a pattern without its sign. -/
def magnitudeBits (format : BinaryFormat) : Nat :=
  format.exponentBits + format.fractionBits

/-- The pattern of infinity: every exponent bit is set and no fraction bit. -/
def infinity (format : BinaryFormat) : Nat :=
  (Nat.pow 2 format.exponentBits - 1) * Nat.pow 2 format.fractionBits

/-- The power of two that the last bit of the smallest magnitudes stands for. -/
def leastScale (format : BinaryFormat) : Int :=
  2 - (Nat.pow 2 (format.exponentBits - 1) : Nat) - format.fractionBits

end BinaryFormat

/-- A float of one format: its sign and the pattern of its magnitude. -/
structure Binary (format : BinaryFormat) where
  negative : Bool
  magnitude : Fin (Nat.pow 2 format.magnitudeBits)
  deriving DecidableEq, Repr

abbrev Single := Binary .single

abbrev Double := Binary .double

/-- `numerator / denominator` rounded to a whole number, a tie to the even one. -/
def roundHalfEven (numerator denominator : Nat) : Nat :=
  let quotient := numerator / denominator
  let twice := 2 * (numerator % denominator)
  if twice < denominator then quotient
  else if denominator < twice then quotient + 1
  else quotient + quotient % 2

namespace Binary

variable {format : BinaryFormat}

/-- The float with a given magnitude pattern; higher bits are dropped. -/
def ofMagnitude (negative : Bool) (pattern : Nat) : Binary format :=
  ⟨negative, ⟨pattern % Nat.pow 2 format.magnitudeBits,
    Nat.mod_lt _ (Nat.two_pow_pos _)⟩⟩

/-- The float of a whole bit pattern, whose top bit is the sign. -/
def ofBits (pattern : Nat) : Binary format :=
  ofMagnitude (pattern / Nat.pow 2 format.magnitudeBits % 2 == 1) pattern

def toBits (x : Binary format) : Nat :=
  (if x.negative then Nat.pow 2 format.magnitudeBits else 0) + x.magnitude.val

def zero (negative : Bool) : Binary format := ofMagnitude negative 0

def infinite (negative : Bool) : Binary format := ofMagnitude negative format.infinity

/-- The quiet NaN of a given sign with no further fraction bits. -/
def nan (negative : Bool) : Binary format :=
  ofMagnitude negative (format.infinity + Nat.pow 2 (format.fractionBits - 1))

/-- Beyond infinity lie the patterns that are no number. -/
def isNaN (x : Binary format) : Bool := decide (format.infinity < x.magnitude.val)

def isInfinite (x : Binary format) : Bool := x.magnitude.val == format.infinity

def isFinite (x : Binary format) : Bool := decide (x.magnitude.val < format.infinity)

def isZero (x : Binary format) : Bool := x.magnitude.val == 0

def negate (x : Binary format) : Binary format := { x with negative := !x.negative }

/-- Numeric equality: NaN differs from everything and the two zeros are equal. -/
def equal (x y : Binary format) : Bool :=
  !x.isNaN && !y.isNaN && (decide (x = y) || (x.isZero && y.isZero))

/-- The whole number that a finite pattern multiplies by a power of two. -/
def significand (x : Binary format) : Nat :=
  let fraction := x.magnitude.val % Nat.pow 2 format.fractionBits
  if x.magnitude.val / Nat.pow 2 format.fractionBits = 0 then fraction
  else Nat.pow 2 format.fractionBits + fraction

def scale (x : Binary format) : Int :=
  format.leastScale + ((x.magnitude.val / Nat.pow 2 format.fractionBits - 1 : Nat) : Int)

def ratio (x : Binary format) : Nat × Nat :=
  if 0 ≤ x.scale then (x.significand * Nat.pow 2 x.scale.toNat, 1)
  else (x.significand, Nat.pow 2 (-x.scale).toNat)

/-- The greatest exponent whose power of two is at most the given ratio. -/
def leadingExponent (numerator denominator : Nat) : Int :=
  let guess : Int := (numerator.log2 : Int) - denominator.log2
  let reached :=
    if 0 ≤ guess then decide (denominator * Nat.pow 2 guess.toNat ≤ numerator)
    else decide (denominator ≤ numerator * Nat.pow 2 (-guess).toNat)
  if reached then guess else guess - 1

/-- The float nearest to a signed ratio.  What rounds beyond the largest finite
value is infinite. -/
def ofRatio (negative : Bool) (numerator denominator : Nat) : Binary format :=
  if numerator = 0 then zero negative
  else
    let scale := max format.leastScale
      (leadingExponent numerator denominator - format.fractionBits)
    let significand :=
      if 0 ≤ scale then roundHalfEven numerator (denominator * Nat.pow 2 scale.toNat)
      else roundHalfEven (numerator * Nat.pow 2 (-scale).toNat) denominator
    ofMagnitude negative
      (min format.infinity
        ((scale - format.leastScale).toNat * Nat.pow 2 format.fractionBits + significand))

def ofInt (n : Int) : Binary format := ofRatio (decide (n < 0)) n.natAbs 1

/-- The nearest float of another format; infinities and NaN keep their kind. -/
def convert {target : BinaryFormat} (x : Binary format) : Binary target :=
  if x.isNaN then nan x.negative
  else if x.isInfinite then infinite x.negative
  else ofRatio x.negative x.ratio.1 x.ratio.2

def mulMagnitude (x y : Binary format) : Binary format :=
  ofRatio false (x.ratio.1 * y.ratio.1) (x.ratio.2 * y.ratio.2)

/-- The rounded quotient of two finite magnitudes, the second not zero. -/
def divMagnitude (x y : Binary format) : Binary format :=
  ofRatio false (x.ratio.1 * y.ratio.2) (x.ratio.2 * y.ratio.1)

/-- Numbers that are equal and not zero have one pattern. -/
theorem eq_of_equal {x y : Binary format} (hequal : x.equal y = true)
    (hzero : x.isZero = false) : x = y := by
  simp only [equal, Bool.and_eq_true, Bool.or_eq_true, decide_eq_true_eq] at hequal
  obtain ⟨_, hsame | ⟨hzeroLeft, _⟩⟩ := hequal
  · exact hsame
  · simp [hzero] at hzeroLeft

theorem equal_self {x : Binary format} (hnan : x.isNaN = false) : x.equal x = true := by
  simp [equal, hnan]

theorem equal_comm (x y : Binary format) : x.equal y = y.equal x := by
  have hdecide : decide (x = y) = decide (y = x) := by simp [eq_comm]
  unfold equal
  rw [hdecide, Bool.and_comm (!x.isNaN) (!y.isNaN), Bool.and_comm x.isZero y.isZero]

end Binary

end AggregateSync
