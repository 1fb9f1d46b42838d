import AggregateSync.Value.Basic
import AggregateSync.Value.Hex

/-!
# The text of a value

How values read in messages: strings stand in single quotes, byte strings show
their length only, dates and times show their number, and floats are written in
full with the fewest digits.
-/

namespace AggregateSync

namespace Value

/-- Floats in messages never have an exponent and whole ones no point; of two
equally near shortest decimals the larger is written. -/
def floatLayout : Layout := ⟨.up, none, ""⟩

def floatText {format : BinaryFormat} (x : Binary format) : String :=
  if x.isNaN then "NaN"
  else if x.isInfinite then if x.negative then "-inf" else "inf"
  else floatLayout.text x

mutual

def display : Value → String
  | null => "NULL"
  | bool b => if b then "true" else "false"
  | tinyInt n => toString n.toInt
  | smallInt n => toString n.toInt
  | int n => toString n.toInt
  | bigInt n => toString n.toInt
  | float x => floatText x
  | double x => floatText x
  | decimal digits => digits
  | text s => "'" ++ s ++ "'"
  | bytes data => "<" ++ toString data.length ++ " bytes>"
  | date days => "date(" ++ toString days.toInt ++ ")"
  | time micros => "time(" ++ toString micros.toInt ++ ")"
  | timestamp micros => "timestamp(" ++ toString micros.toInt ++ ")"
  | uuid u => hexText u.bytes
  | json document => document.text
  | array items => "[" ++ displayItems items ++ "]"
  | default => "DEFAULT"

def displayItems : List Value → String
  | [] => ""
  | [item] => display item
  | item :: rest => display item ++ ", " ++ displayItems rest

end

end Value

end AggregateSync
