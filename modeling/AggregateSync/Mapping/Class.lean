import AggregateSync.Mapping.Identity
import AggregateSync.Mapping.Relation
import AggregateSync.Row

/-!
# Class mappings

A class mapping says in which table the entities of a class are stored, which of
their fields are keys and properties, and which relations they have.  A declaration
becomes a mapping only if it has a key, at most one key that the database assigns,
and only relations of its own class that hold something; a mapping carries the proof.
-/

namespace AggregateSync

/-- How a class is to be mapped, and what a new entity of it is like. -/
structure ClassDeclaration where
  type : EntityType
  table : String
  keys : List Property
  /-- The properties that are not keys, in declaration order. -/
  properties : List Property
  relations : List Relation
  initialFields : List (Field × Value)
  initialMembers : List (Slot × Entity)

namespace ClassDeclaration

def inColumn (declaration : ClassDeclaration) (name column : String) : ClassDeclaration :=
  let move (property : Property) : Property :=
    if property.name = name then { property with column := column } else property
  { declaration with
    keys := declaration.keys.map move
    properties := declaration.properties.map move }

def relationFault? (declaration : ClassDeclaration) (relation : Relation) : Option Error :=
  if relation.parent.same declaration.type then
    if relation.targets.isEmpty then
      some (.configureFor .invalidRelation declaration.type.name
        ("relation '" ++ relation.name ++ "' declares no child type"))
    else none
  else
    some (.configureFor .invalidRelation declaration.type.name
      ("relation '" ++ relation.name ++ "' is declared on " ++ relation.parent.name))

def fault? (declaration : ClassDeclaration) : Option Error :=
  if declaration.keys.isEmpty then
    some (.configureFor .missingKey declaration.type.name
      (declaration.type.name ++ " declares no key fields"))
  else if 1 < (declaration.keys.filter Property.generated).length then
    some (.configureFor .missingKey declaration.type.name
      "at most one key may be database generated")
  else declaration.relations.findSome? declaration.relationFault?

end ClassDeclaration

/-- A declaration with nothing wrong in it. -/
structure ClassMapping extends ClassDeclaration where
  sound : toClassDeclaration.fault? = none

namespace ClassMapping

def build (declaration : ClassDeclaration) : Result ClassMapping :=
  match hfault : declaration.fault? with
  | some e => .error e
  | none => .ok ⟨declaration, hfault⟩

/-- Every mapped property, keys first. -/
def columns (mapping : ClassMapping) : List Property := mapping.keys ++ mapping.properties

/-- The properties that are written and compared. -/
def writableProperties (mapping : ClassMapping) : List Property :=
  mapping.properties.filter Property.writable

def property? (mapping : ClassMapping) (name : String) : Option Property :=
  mapping.columns.find? fun property => property.name == name

def requireProperty (mapping : ClassMapping) (name : String) : Result Property :=
  match mapping.property? name with
  | some property => .ok property
  | none => .error (.configureFor .invalidRelation mapping.type.name
      ("no property named '" ++ name ++ "'"))

def propertyByColumn? (mapping : ClassMapping) (column : String) : Option Property :=
  mapping.columns.find? fun property => property.column == column

def generatedKey? (mapping : ClassMapping) : Option Property :=
  mapping.keys.find? Property.generated

def relationAt (mapping : ClassMapping) (index : Nat) : Result Relation :=
  match mapping.relations[index]? with
  | some relation => .ok relation
  | none => .error (.configureFor .invalidRelation mapping.type.name
      ("no relation at index " ++ toString index))

def instantiate (mapping : ClassMapping) : Entity :=
  .mk mapping.type mapping.initialFields mapping.initialMembers

def get (mapping : ClassMapping) (property : Property) (e : Entity) : Result Value :=
  property.get mapping.type e

def set (mapping : ClassMapping) (property : Property) (value : Value) (e : Entity) :
    Result Entity :=
  property.set mapping.type value e

/-- Writes those properties whose columns a row has. -/
def fill (mapping : ClassMapping) (row : Row) : List Property → Entity → Result Entity
  | [], e => .ok e
  | property :: rest, e =>
    match row.value? property.column with
    | some value => do fill mapping row rest (← mapping.set property value e)
    | none => fill mapping row rest e

/-- The entity of a row.  Properties whose columns the row lacks keep what a new
entity has, and other columns are passed over. -/
def hydrate (mapping : ClassMapping) (row : Row) : Result Entity :=
  mapping.fill row mapping.columns mapping.instantiate

/-- Fails unless the entity is of the mapped class. -/
def checkType (mapping : ClassMapping) (e : Entity) : Result Unit :=
  if e.type.same mapping.type then .ok ()
  else .error (.configureBetween .typeMismatch mapping.type.name e.type.name
    ("mapping for " ++ mapping.type.name ++ " applied to " ++ e.type.name))

def keyValues (mapping : ClassMapping) (e : Entity) : Result (List Value) := do
  mapping.checkType e
  mapping.keys.mapM fun key => mapping.get key e

/-- The identity of an entity.  It has none while a key is NULL or the database has
not yet assigned the key that it generates. -/
def identityKey (mapping : ClassMapping) (e : Entity) : Result (Option IdentityKey) := do
  let values ← mapping.keyValues e
  if values.any Value.isNull then return none
  let unsaved ← match mapping.generatedKey? with
    | some key => do
      let value ← mapping.get key e
      pure value.isUnsaved
    | none => pure false
  if unsaved then return none
  return some (IdentityKey.ofValues mapping.type values)

end ClassMapping

end AggregateSync
