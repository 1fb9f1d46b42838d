import AggregateSync.Entity
import AggregateSync.Error

/-!
# Properties

A property maps a field of a class to a column.  Its value is converted to the type
of the field when it is set, and a conversion error names the property.
-/

namespace AggregateSync

structure Property where
  name : String
  column : String
  field : Field
  /-- Is the property written and compared? -/
  writable : Bool
  /-- Does the database assign the value when a row is inserted? -/
  generated : Bool
  deriving DecidableEq

/-- The error of an entity that is not of the class whose part was used. -/
def accessError (expected actual : EntityType) : Error :=
  .configureBetween .typeMismatch expected.name actual.name
    ("accessor for " ++ expected.name ++ " received " ++ actual.name)

namespace Property

/-- A key supplied by the application, in the column of its name. -/
def key (name : String) (field : Field) : Property := ⟨name, name, field, true, false⟩

def generatedKey (name : String) (field : Field) : Property := ⟨name, name, field, true, true⟩

/-- A property that is written and compared. -/
def plain (name : String) (field : Field) : Property := ⟨name, name, field, true, false⟩

def readOnly (name : String) (field : Field) : Property := ⟨name, name, field, false, false⟩

def get (property : Property) (owner : EntityType) (e : Entity) : Result Value :=
  if e.type.same owner then .ok (e.read property.field)
  else .error (accessError owner e.type)

def set (property : Property) (owner : EntityType) (value : Value) (e : Entity) :
    Result Entity :=
  match property.field.type.read value with
  | .error fault => .error (.conversion (fault.inColumn property.name))
  | .ok converted =>
    if e.type.same owner then .ok (e.write property.field converted)
    else .error (accessError owner e.type)

end Property

end AggregateSync
