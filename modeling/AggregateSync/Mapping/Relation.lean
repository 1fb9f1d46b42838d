import AggregateSync.Mapping.Property
import AggregateSync.Sql.Constraints

/-!
# Relations

A relation leads from an entity to children in one of its slots.  It holds a list of
one class, at most one entity of a class, or at most one entity whose class a
property of the parent selects.  The row of a child points back by a foreign key,
which carries a property of the parent and may or may not be a property of the child.
-/

namespace AggregateSync

/-- How the row of a child refers to its parent. -/
structure ForeignKey where
  /-- The column of the child's table. -/
  column : String
  /-- The property of the child in that column, if it has one. -/
  property : Option String
  /-- The property of the parent whose value the column carries. -/
  referenced : String
  deriving DecidableEq

/-- A constant that tells the rows of a relation from others in their table. -/
structure SubsetColumn where
  column : String
  value : Value

structure RelationOrder where
  column : String
  descending : Bool
  deriving DecidableEq

/-- A class that a value of the discriminator selects. -/
structure Variant where
  selector : Value
  type : EntityType
  foreignKey : Option ForeignKey

inductive RelationForm where
  | many (child : EntityType) (foreignKey : Option ForeignKey)
  | one (child : EntityType) (foreignKey : Option ForeignKey)
  | variant (discriminator : String) (variants : List Variant)

inductive Cardinality where
  | oneToOne
  | oneToMany
  deriving DecidableEq, Repr

/-- A class that a relation may hold, with the discriminator value that selects it. -/
structure Target where
  type : EntityType
  foreignKey : Option ForeignKey
  selector : Option Value

/-- A relation of the class `parent`, whose children stand in the slot at
`position`. -/
structure Relation where
  name : String
  parent : EntityType
  position : Nat
  form : RelationForm
  subset : Option SubsetColumn
  order : List RelationOrder

namespace Cardinality

def label : Cardinality → String
  | oneToOne => "OneToOne"
  | oneToMany => "OneToMany"

end Cardinality

namespace RelationOrder

def term (order : RelationOrder) : SortTerm := ⟨order.column, order.descending, none⟩

end RelationOrder

namespace Relation

def slot (relation : Relation) : Slot :=
  match relation.form with
  | .many child _ => .many child.id relation.position
  | .one child _ => .one child.id relation.position
  | .variant _ _ => .dynamic relation.position

def cardinality (relation : Relation) : Cardinality :=
  match relation.form with
  | .many _ _ => .oneToMany
  | .one _ _ | .variant _ _ => .oneToOne

/-- The classes that the relation may hold, in declaration order. -/
def targets (relation : Relation) : List Target :=
  match relation.form with
  | .many child foreignKey | .one child foreignKey => [⟨child, foreignKey, none⟩]
  | .variant _ variants =>
    variants.map fun variant => ⟨variant.type, variant.foreignKey, some variant.selector⟩

/-- The property of the parent that selects the class of the child. -/
def discriminator (relation : Relation) : Option String :=
  match relation.form with
  | .variant discriminator _ => some discriminator
  | .many _ _ | .one _ _ => none

/-- The first target of a class. -/
def target? (relation : Relation) (type : EntityType) : Option Target :=
  relation.targets.find? fun target => target.type.same type

def foreignKey? (relation : Relation) (type : EntityType) : Option ForeignKey :=
  (relation.target? type).bind Target.foreignKey

def targetFor? (relation : Relation) (value : Value) : Option Target :=
  relation.targets.find? fun target =>
    match target.selector with
    | some selector => selector.keyEqual value
    | none => false

def checkParent (relation : Relation) (e : Entity) : Result Unit :=
  if e.type.same relation.parent then .ok () else .error (accessError relation.parent e.type)

/-- The children in the slot, whatever their class. -/
def held (relation : Relation) (parent : Entity) : Result (List Entity) :=
  (relation.checkParent parent).map fun _ => parent.children relation.slot

/-- The error of a child whose class the relation does not declare. -/
def strangerError (relation : Relation) (child : EntityType) : Error :=
  .configureBetween .invalidRelation relation.parent.name child.name
    ("relation '" ++ relation.name ++ "' holds a " ++ child.name ++
      " which is not a declared target")

/-- The children, each of a class that the relation declares. -/
def children (relation : Relation) (parent : Entity) : Result (List Entity) := do
  let found ← relation.held parent
  match found.find? fun child => (relation.target? child.type).isNone with
  | some stranger => .error (relation.strangerError stranger.type)
  | none => .ok found

def checkChild (relation : Relation) (child : Entity) : Result Unit :=
  match relation.form with
  | .many expected _ | .one expected _ =>
    if child.type.same expected then .ok ()
    else .error (.configuration ⟨.typeMismatch,
      "cannot attach " ++ child.type.name ++ " where " ++ expected.name ++ " is expected",
      none, some child.type.name⟩)
  | .variant _ _ => .ok ()

def attach (relation : Relation) (parent child : Entity) : Result Entity := do
  relation.checkChild child
  relation.checkParent parent
  return parent.attach relation.slot child

def clear (relation : Relation) (parent : Entity) : Result Entity := do
  relation.checkParent parent
  return parent.clear relation.slot

/-- Takes all children out and attaches what `arrange` makes of them. -/
def rearrange (relation : Relation) (arrange : List Entity → List Entity) (parent : Entity) :
    Result Entity := do
  let children ← relation.held parent
  (arrange children).foldlM relation.attach (← relation.clear parent)

end Relation

end AggregateSync
