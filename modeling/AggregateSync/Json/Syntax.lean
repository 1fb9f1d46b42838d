import AggregateSync.Json.Basic
import AggregateSync.Numeric.Reading

/-!
# JSON text as written

`JsonSyntax` keeps a document as its text gives it: members in order with repeated
names, numbers as their digits, and strings that may hold an escape which denotes
no character.  What a number or string means is decided when a value is taken from
the syntax, so parts of a document that are skipped need only be well formed.
-/

namespace AggregateSync

/-- The parts of a number: `fraction` holds the digits after the point and is
empty if there is no point. -/
structure NumberLiteral where
  negative : Bool
  whole : List Nat
  fraction : List Nat
  exponent : Option Int
  deriving DecidableEq, Repr

/-- A document as written.  A string is `none` when one of its escapes is half of
a surrogate pair. -/
inductive JsonSyntax where
  | null
  | bool (b : Bool)
  | number (literal : NumberLiteral)
  | string (content : Option String)
  | array (items : List JsonSyntax)
  | object (members : List (Option String × JsonSyntax))
  deriving Repr

namespace JsonSyntax

/-- The four characters that may stand between tokens. -/
def isBlank (c : Char) : Bool := c == ' ' || c == '\n' || c == '\t' || c == '\r'

def skipBlanks (chars : List Char) : List Char := chars.dropWhile isBlank

def hexValue? (c : Char) : Option Nat :=
  if c.isDigit then some (c.toNat - '0'.toNat)
  else if 'a' ≤ c ∧ c ≤ 'f' then some (c.toNat - 'a'.toNat + 10)
  else if 'A' ≤ c ∧ c ≤ 'F' then some (c.toNat - 'A'.toNat + 10)
  else none

def codeUnit? (a b c d : Char) : Option Nat := do
  let first ← hexValue? a
  let second ← hexValue? b
  let third ← hexValue? c
  let fourth ← hexValue? d
  return ((first * 16 + second) * 16 + third) * 16 + fourth

/-- The character that a letter after a backslash stands for. -/
def shortEscape? (c : Char) : Option Char :=
  if c = '"' ∨ c = '\\' ∨ c = '/' then some c
  else if c = 'b' then some '\x08'
  else if c = 'f' then some '\x0c'
  else if c = 'n' then some '\n'
  else if c = 'r' then some '\r'
  else if c = 't' then some '\t'
  else none

/-- One unit of a string: a character, or a code unit written in hexadecimal. -/
inductive StringUnit where
  | char (c : Char)
  | code (n : Nat)
  deriving DecidableEq, Repr

/-- The units of a string up to its closing quote, and what follows it. -/
def stringUnits : List Char → Option (List StringUnit × List Char)
  | '"' :: rest => some ([], rest)
  | '\\' :: 'u' :: a :: b :: c :: d :: rest => do
    let n ← codeUnit? a b c d
    let (units, tail) ← stringUnits rest
    return (.code n :: units, tail)
  | '\\' :: letter :: rest => do
    let c ← shortEscape? letter
    let (units, tail) ← stringUnits rest
    return (.char c :: units, tail)
  | c :: rest => do
    if c = '\\' ∨ c.toNat < 32 then failure
    let (units, tail) ← stringUnits rest
    return (.char c :: units, tail)
  | [] => none

/-- The characters that units stand for: two code units of a surrogate pair make
one character, and half a pair makes none. -/
def characters? : List StringUnit → Option (List Char)
  | [] => some []
  | .char c :: rest => (characters? rest).map (c :: ·)
  | .code high :: .code low :: rest =>
    if 0xD800 ≤ high ∧ high ≤ 0xDBFF then
      if 0xDC00 ≤ low ∧ low ≤ 0xDFFF then
        (characters? rest).map
          (Char.ofNat ((high - 0xD800) * 0x400 + (low - 0xDC00) + 0x10000) :: ·)
      else none
    else if 0xDC00 ≤ high ∧ high ≤ 0xDFFF then none
    else (characters? (.code low :: rest)).map (Char.ofNat high :: ·)
  | .code n :: rest =>
    if 0xD800 ≤ n ∧ n ≤ 0xDFFF then none
    else (characters? rest).map (Char.ofNat n :: ·)

def stringContent (units : List StringUnit) : Option String :=
  (characters? units).map String.ofList

def digits (chars : List Char) : List Nat × List Char :=
  ((chars.takeWhile Char.isDigit).map fun c => c.toNat - '0'.toNat,
    chars.dropWhile Char.isDigit)

/-- An exponent after its mark: an optional sign and at least one digit. -/
def exponent? (chars : List Char) : Option (Int × List Char) :=
  let (negative, rest) := DecimalReading.splitSign chars
  let run := rest.takeWhile Char.isDigit
  if run.isEmpty then none
  else
    let size : Int := DecimalReading.natOfDigits run
    some (if negative then -size else size, rest.dropWhile Char.isDigit)

/-- A number without its sign: digits that begin with zero only if they are a
single zero, an optional point with digits, and an optional exponent. -/
def number? (negative : Bool) (chars : List Char) :
    Option (NumberLiteral × List Char) := do
  let (whole, afterWhole) := digits chars
  if whole.isEmpty || (whole.head? == some 0 && whole.length != 1) then failure
  let (fraction, afterFraction) ← match afterWhole with
    | '.' :: tail =>
      let (places, rest) := digits tail
      if places.isEmpty then none else some (places, rest)
    | _ => some ([], afterWhole)
  match afterFraction with
  | mark :: tail =>
    if mark = 'e' ∨ mark = 'E' then
      let (exponent, rest) ← exponent? tail
      return (⟨negative, whole, fraction, some exponent⟩, rest)
    else return (⟨negative, whole, fraction, none⟩, afterFraction)
  | [] => return (⟨negative, whole, fraction, none⟩, [])

mutual

/-- One value after blanks.  Every nested value consumes a character, so twice the
length of the text is `fuel` enough. -/
def value? : Nat → List Char → Option (JsonSyntax × List Char)
  | 0, _ => none
  | fuel + 1, chars =>
    match skipBlanks chars with
    | 'n' :: 'u' :: 'l' :: 'l' :: rest => some (.null, rest)
    | 't' :: 'r' :: 'u' :: 'e' :: rest => some (.bool true, rest)
    | 'f' :: 'a' :: 'l' :: 's' :: 'e' :: rest => some (.bool false, rest)
    | '"' :: rest => (stringUnits rest).map fun (units, tail) =>
      (.string (stringContent units), tail)
    | '[' :: rest =>
      match skipBlanks rest with
      | ']' :: tail => some (.array [], tail)
      | first => (items? fuel first).map fun (items, tail) => (.array items, tail)
    | '{' :: rest =>
      match skipBlanks rest with
      | '}' :: tail => some (.object [], tail)
      | first => (members? fuel first).map fun (members, tail) => (.object members, tail)
    | '-' :: rest => (number? true rest).map fun (literal, tail) => (.number literal, tail)
    | rest => (number? false rest).map fun (literal, tail) => (.number literal, tail)

def items? : Nat → List Char → Option (List JsonSyntax × List Char)
  | 0, _ => none
  | fuel + 1, chars =>
    match value? fuel chars with
    | none => none
    | some (item, rest) =>
      match skipBlanks rest with
      | ']' :: tail => some ([item], tail)
      | ',' :: tail => (items? fuel tail).map fun (items, after) => (item :: items, after)
      | _ => none

def members? : Nat → List Char → Option (List (Option String × JsonSyntax) × List Char)
  | 0, _ => none
  | fuel + 1, chars =>
    match skipBlanks chars with
    | '"' :: quoted =>
      match stringUnits quoted with
      | none => none
      | some (units, afterName) =>
        match skipBlanks afterName with
        | ':' :: body =>
          match value? fuel body with
          | none => none
          | some (member, rest) =>
            match skipBlanks rest with
            | '}' :: tail => some ([(stringContent units, member)], tail)
            | ',' :: tail => (members? fuel tail).map fun (members, after) =>
              ((stringContent units, member) :: members, after)
            | _ => none
        | _ => none
    | _ => none

end

def parse? (text : String) : Option JsonSyntax :=
  match value? (2 * text.length + 2) text.toList with
  | some (document, rest) => if (skipBlanks rest).isEmpty then some document else none
  | none => none

end JsonSyntax

end AggregateSync
