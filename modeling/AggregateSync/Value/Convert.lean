import AggregateSync.Json.Reading
import AggregateSync.Value.Basic

/-!
# Conversions

A value converts to a typed one when no information that the type asks for is
missing: integers of any width convert to every width that holds them, numbers to
floats, decimals are read as floats, and text is read as bytes or as JSON.  A
`FieldType` is the type of a stored property; `FieldType.read` gives the value
that the property then shows.
-/

namespace AggregateSync

/-- A value that does not convert: what was asked for, what was found, and the
column or property it was found in. -/
structure ConversionError where
  expected : String
  actual : String
  column : Option String
  deriving DecidableEq, Repr

namespace ConversionError

def inColumn (column : String) (e : ConversionError) : ConversionError :=
  { e with column := some column }

end ConversionError

namespace Value

def mismatch (expected : String) (value : Value) : ConversionError :=
  ⟨expected, value.typeName, none⟩

/-- The truth value that a boolean or an integer stands for. -/
def asBool? : Value → Option Bool
  | bool b => some b
  | value => if value.isInteger then value.asInteger?.map (decide <| · ≠ 0) else none

/-- The float that a number stands for, or that a decimal reads as. -/
def asDouble? : Value → Option Double
  | float x => some x.convert
  | double x => some x
  | decimal digits => Binary.read? digits
  | value => if value.isInteger then value.asInteger?.map Binary.ofInt else none

/-- The characters of text or of a decimal. -/
def asText? : Value → Option String
  | text s => some s
  | decimal digits => some digits
  | _ => none

def toBool (value : Value) : Except ConversionError Bool :=
  match value.asBool? with
  | some b => .ok b
  | none => .error (value.mismatch "bool")

/-- Conversion to a whole number from `low` to `high`. -/
def toInteger (expected : String) (low high : Int) (value : Value) :
    Except ConversionError Int :=
  match value.asInteger? with
  | none => .error (value.mismatch expected)
  | some n =>
    if low ≤ n ∧ n ≤ high then .ok n
    else .error ⟨expected, toString n ++ " out of range", none⟩

def toSigned (bits : Nat) (value : Value) : Except ConversionError Int :=
  value.toInteger ("i" ++ toString bits) (-Int.pow 2 (bits - 1)) (Int.pow 2 (bits - 1) - 1)

def toUnsigned (bits : Nat) (value : Value) : Except ConversionError Int :=
  value.toInteger ("u" ++ toString bits) 0 (Int.pow 2 bits - 1)

/-- Conversion to a 32-bit float, which is rounded from 64 bits unless the value
has 32 bits already. -/
def toSingle : Value → Except ConversionError Single
  | float x => .ok x
  | value =>
    match value.asDouble? with
    | some x => .ok x.convert
    | none => .error (value.mismatch "f32")

def toDouble (value : Value) : Except ConversionError Double :=
  match value.asDouble? with
  | some x => .ok x
  | none => .error (value.mismatch "f64")

def toText (value : Value) : Except ConversionError String :=
  match value.asText? with
  | some s => .ok s
  | none => .error (value.mismatch "text")

def toBytes : Value → Except ConversionError (List UInt8)
  | bytes data => .ok data
  | text s => .ok s.toUTF8.toList
  | value => .error (value.mismatch "bytes")

def toUuid : Value → Except ConversionError Uuid
  | uuid u => .ok u
  | value => .error (value.mismatch "uuid")

/-- Conversion to a JSON document; text is parsed. -/
def toJson : Value → Except ConversionError Json
  | json document => .ok document
  | text s =>
    match Json.parse? s with
    | some document => .ok document
    | none => .error ⟨"json", "malformed json", none⟩
  | value => .error (value.mismatch "json")

end Value

inductive FieldType where
  | bool
  | tinyInt
  | smallInt
  | int
  | bigInt
  | float
  | double
  | text
  | bytes
  | uuid
  | json
  | dynamic
  | optional (inner : FieldType)
  deriving DecidableEq, Repr

namespace FieldType

/-- What a property of the type shows after a value is written to it. -/
def read : FieldType → Value → Except ConversionError Value
  | bool, value => value.toBool.map .bool
  | tinyInt, value => (value.toSigned 8).map fun n => .tinyInt (Int8.ofInt n)
  | smallInt, value => (value.toSigned 16).map fun n => .smallInt (Int16.ofInt n)
  | int, value => (value.toSigned 32).map fun n => .int (Int32.ofInt n)
  | bigInt, value => (value.toSigned 64).map fun n => .bigInt (Int64.ofInt n)
  | float, value => value.toSingle.map .float
  | double, value => value.toDouble.map .double
  | text, value => value.toText.map .text
  | bytes, value => value.toBytes.map .bytes
  | uuid, value => value.toUuid.map .uuid
  | json, value => value.toJson.map .json
  | dynamic, value => .ok value
  | optional inner, value => if value.isNull then .ok .null else inner.read value

/-- Is the value one that a property of the type shows? -/
def holds : FieldType → Value → Bool
  | bool, .bool _ => true
  | tinyInt, .tinyInt _ => true
  | smallInt, .smallInt _ => true
  | int, .int _ => true
  | bigInt, .bigInt _ => true
  | float, .float _ => true
  | double, .double _ => true
  | text, .text _ => true
  | bytes, .bytes _ => true
  | uuid, .uuid _ => true
  | json, .json _ => true
  | dynamic, _ => true
  | optional inner, value => value.isNull || inner.holds value
  | _, _ => false

/-- What a property of the type shows before anything is written to it. -/
def initial : FieldType → Value
  | bool => .bool false
  | tinyInt => .tinyInt 0
  | smallInt => .smallInt 0
  | int => .int 0
  | bigInt => .bigInt 0
  | float => .float (.zero false)
  | double => .double (.zero false)
  | text => .text ""
  | bytes => .bytes []
  | uuid => .uuid ⟨List.replicate 16 0, rfl⟩
  | json => .json .null
  | dynamic => .null
  | optional _ => .null

theorem holds_initial (type : FieldType) : type.holds type.initial = true := by
  cases type <;> simp [holds, initial, Value.isNull]

theorem holds_of_read {type : FieldType} {value shown : Value}
    (hread : type.read value = .ok shown) : type.holds shown = true := by
  induction type with
  | optional inner ih =>
    simp only [read] at hread
    split at hread
    · cases hread
      rfl
    · simp [holds, ih hread]
  | dynamic => simp [holds]
  | _ =>
    simp only [read, Except.map] at hread
    split at hread
    · cases hread
    · cases hread
      simp [holds]

end FieldType

end AggregateSync
