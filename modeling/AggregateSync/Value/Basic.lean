import AggregateSync.Json.Basic

/-!
# SQL values

A `Value` is what a property holds, what a statement binds and what a column of a
row returns.  Values of different variants are never equal, whatever they hold;
where a key is compared, `Value.keyForm` first gives all integer widths one
variant, because a database may answer with another width than the one stored.
-/

namespace AggregateSync

/-- Sixteen bytes. -/
structure Uuid where
  bytes : List UInt8
  length_bytes : bytes.length = 16
  deriving DecidableEq

/-- A dynamically typed SQL value. -/
inductive Value where
  | null
  | bool (b : Bool)
  | tinyInt (n : Int8)
  | smallInt (n : Int16)
  | int (n : Int32)
  | bigInt (n : Int64)
  | float (x : Single)
  | double (x : Double)
  | decimal (digits : String)
  | text (s : String)
  | bytes (data : List UInt8)
  | date (days : Int32)
  | time (micros : Int64)
  | timestamp (micros : Int64)
  | uuid (u : Uuid)
  | json (document : Json)
  | array (items : List Value)
  | default

instance : Inhabited Value := ⟨.null⟩

namespace Value

mutual

/-- Equality of values, variant by variant; floats are compared numerically, so
NaN differs from itself and the zeros are equal. -/
def equal : Value → Value → Bool
  | null, null => true
  | bool a, bool b => a == b
  | tinyInt m, tinyInt n => decide (m = n)
  | smallInt m, smallInt n => decide (m = n)
  | int m, int n => decide (m = n)
  | bigInt m, bigInt n => decide (m = n)
  | float x, float y => x.equal y
  | double x, double y => x.equal y
  | decimal s, decimal t => s == t
  | text s, text t => s == t
  | bytes a, bytes b => a == b
  | date m, date n => decide (m = n)
  | time m, time n => decide (m = n)
  | timestamp m, timestamp n => decide (m = n)
  | uuid u, uuid v => decide (u = v)
  | json a, json b => a.equal b
  | array items, array others => equalItems items others
  | default, default => true
  | _, _ => false

def equalItems : List Value → List Value → Bool
  | [], [] => true
  | a :: items, b :: others => equal a b && equalItems items others
  | _, _ => false

end

def isNull : Value → Bool
  | null => true
  | _ => false

def isInteger : Value → Bool
  | tinyInt _ | smallInt _ | int _ | bigInt _ => true
  | _ => false

def typeName : Value → String
  | null => "NULL"
  | bool _ => "BOOLEAN"
  | tinyInt _ => "TINYINT"
  | smallInt _ => "SMALLINT"
  | int _ => "INTEGER"
  | bigInt _ => "BIGINT"
  | float _ => "REAL"
  | double _ => "DOUBLE"
  | decimal _ => "DECIMAL"
  | text _ => "TEXT"
  | bytes _ => "BLOB"
  | date _ => "DATE"
  | time _ => "TIME"
  | timestamp _ => "TIMESTAMP"
  | uuid _ => "UUID"
  | json _ => "JSON"
  | array _ => "ARRAY"
  | default => "DEFAULT"

/-- The whole number that an integer or a truth value stands for. -/
def asInteger? : Value → Option Int
  | bool b => some (if b then 1 else 0)
  | tinyInt n => some n.toInt
  | smallInt n => some n.toInt
  | int n => some n.toInt
  | bigInt n => some n.toInt
  | _ => none

/-- The value as it is compared in keys: integers become 64 bits wide. -/
def keyForm : Value → Value
  | tinyInt n => bigInt (Int64.ofInt n.toInt)
  | smallInt n => bigInt (Int64.ofInt n.toInt)
  | int n => bigInt (Int64.ofInt n.toInt)
  | value => value

/-- Equality of two values as components of a key. -/
def keyEqual (a b : Value) : Bool := a.keyForm.equal b.keyForm

/-- A generated key with no row yet: NULL, or an integer zero. -/
def isUnsaved (value : Value) : Bool :=
  value.isNull || (value.isInteger && value.asInteger? == some 0)

@[simp]
theorem keyForm_keyForm (value : Value) : value.keyForm.keyForm = value.keyForm := by
  cases value <;> rfl

end Value

end AggregateSync
