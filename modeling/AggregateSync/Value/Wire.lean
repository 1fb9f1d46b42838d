import AggregateSync.Json.Decode
import AggregateSync.Value.Basic

/-!
# Values as JSON

The stored form of a value is an object with one member, named for the variant;
NULL and DEFAULT are plain strings.  Bytes are lists of numbers, documents are
embedded as they are, and floats that are not finite are written as `null`, which
does not read back.
-/

namespace AggregateSync

namespace Value

/-- Short floats are positional from `0.000001` to below `1e13`, long ones as in
any document. -/
def singleLayout : Layout := ⟨.toEven, some (-6, 12), ".0"⟩

/-- A float in a document, or `null` if it is not finite. -/
def wireFloat {format : BinaryFormat} (layout : Layout) (x : Binary format) : String :=
  if x.isFinite then layout.text x else "null"

/-- The object with a single member. -/
def tagged (name : String) (content : String) : String :=
  "\x7b" ++ Json.quote name ++ ":" ++ content ++ "\x7d"

def wireBytes (data : List UInt8) : String :=
  "[" ++ ",".intercalate (data.map fun byte => toString byte.toNat) ++ "]"

mutual

def wireText : Value → String
  | null => Json.quote "Null"
  | bool b => tagged "Bool" (if b then "true" else "false")
  | tinyInt n => tagged "TinyInt" (toString n.toInt)
  | smallInt n => tagged "SmallInt" (toString n.toInt)
  | int n => tagged "Int" (toString n.toInt)
  | bigInt n => tagged "BigInt" (toString n.toInt)
  | float x => tagged "Float" (wireFloat singleLayout x)
  | double x => tagged "Double" (wireFloat JsonNumber.layout x)
  | decimal digits => tagged "Decimal" (Json.quote digits)
  | text s => tagged "Text" (Json.quote s)
  | bytes data => tagged "Bytes" (wireBytes data)
  | date days => tagged "Date" (toString days.toInt)
  | time micros => tagged "Time" (toString micros.toInt)
  | timestamp micros => tagged "Timestamp" (toString micros.toInt)
  | uuid u => tagged "Uuid" (wireBytes u.bytes)
  | json document => tagged "Json" document.text
  | array items => tagged "Array" ("[" ++ wireItems items ++ "]")
  | default => Json.quote "Default"

def wireItems : List Value → String
  | [] => ""
  | [item] => wireText item
  | item :: rest => wireText item ++ "," ++ wireItems rest

end

/-- A signed number of some width. -/
def signed? (bits : Nat) (document : JsonSyntax) : Option Int :=
  document.integer? (-Int.pow 2 (bits - 1)) (Int.pow 2 (bits - 1) - 1)

/-- A number as a float, rounded once if it is whole. -/
def float? {format : BinaryFormat} : JsonSyntax → Option (Binary format)
  | .number literal =>
    match literal.number? with
    | some (.integer n) => some (.ofInt n)
    | some (.float x) => some x.convert
    | none => none
  | _ => none

/-- A string whose escapes all denote characters. -/
def string? : JsonSyntax → Option String
  | .string content => content
  | _ => none

/-- A list of numbers below 256, nested no deeper than allowed. -/
def bytes? (depth : Nat) : JsonSyntax → Option (List UInt8)
  | .array items =>
    if depth = 0 then none
    else items.mapM fun item => (item.integer? 0 255).map fun n => UInt8.ofNat n.toNat
  | _ => none

def uuid? (depth : Nat) (document : JsonSyntax) : Option Uuid :=
  match bytes? depth document with
  | some data => if hlength : data.length = 16 then some ⟨data, hlength⟩ else none
  | none => none

/-- A value whose content holds no other value. -/
def leaf? (depth : Nat) (name : String) (content : JsonSyntax) : Option Value :=
  match name with
  | "Null" => match content with
    | .null => some null
    | _ => none
  | "Default" => match content with
    | .null => some default
    | _ => none
  | "Bool" => match content with
    | .bool b => some (bool b)
    | _ => none
  | "TinyInt" => (signed? 8 content).map fun n => tinyInt (Int8.ofInt n)
  | "SmallInt" => (signed? 16 content).map fun n => smallInt (Int16.ofInt n)
  | "Int" => (signed? 32 content).map fun n => int (Int32.ofInt n)
  | "BigInt" => (signed? 64 content).map fun n => bigInt (Int64.ofInt n)
  | "Float" => (float? content).map float
  | "Double" => (float? content).map double
  | "Decimal" => (string? content).map decimal
  | "Text" => (string? content).map text
  | "Bytes" => (bytes? depth content).map bytes
  | "Date" => (signed? 32 content).map fun n => date (Int32.ofInt n)
  | "Time" => (signed? 64 content).map fun n => time (Int64.ofInt n)
  | "Timestamp" => (signed? 64 content).map fun n => timestamp (Int64.ofInt n)
  | "Uuid" => (uuid? depth content).map uuid
  | "Json" => (Json.ofSyntax? depth content).map json
  | _ => none

mutual

/-- The value of a stored form whose containers are nested at most `depth` deep. -/
def ofSyntax? (depth : Nat) : JsonSyntax → Option Value
  | .string (some "Null") => some null
  | .string (some "Default") => some default
  | .object [(some "Array", .array items)] =>
    if depth < 2 then none else (ofItems? (depth - 2) items).map array
  | .object [(some name, content)] =>
    if depth = 0 then none else leaf? (depth - 1) name content
  | _ => none

def ofItems? (depth : Nat) : List JsonSyntax → Option (List Value)
  | [] => some []
  | item :: rest => do
    let first ← ofSyntax? depth item
    let others ← ofItems? depth rest
    return first :: others

end

/-- The value that a JSON text is the stored form of. -/
def ofWire? (source : String) : Option Value :=
  (JsonSyntax.parse? source).bind (ofSyntax? Json.nestingLimit)

end Value

end AggregateSync
