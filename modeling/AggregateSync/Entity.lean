import AggregateSync.Value.Convert
import AggregateSync.Value.Text

/-!
# Entities

An entity is an owned tree: it has a class, a value for each of its fields, and
children that stand in slots.  A slot holds a list of one class, at most one entity
of a class, or at most one entity of any class.  Because a tree owns its children,
the place of an entity in the tree identifies it.

A field that was never written shows the initial value of its type, and it never
shows a value of another type.
-/

namespace AggregateSync

structure Field where
  position : Nat
  label : String
  type : FieldType
  deriving DecidableEq

/-- A class of entities.  Classes are told apart by their number. -/
structure EntityType where
  id : Nat
  name : String
  fields : List Field

/-- A place of an entity that holds children.  A list and a single child name the
class they hold. -/
inductive Slot where
  | many (child : Nat) (position : Nat)
  | one (child : Nat) (position : Nat)
  | dynamic (position : Nat)
  deriving DecidableEq, Repr

inductive Entity where
  | mk (type : EntityType) (fields : List (Field × Value)) (members : List (Slot × Entity))

namespace EntityType

/-- The characters before the first `::`. -/
def beforeSeparator : List Char → List Char
  | ':' :: ':' :: _ => []
  | c :: rest => c :: beforeSeparator rest
  | [] => []

/-- The name of the class without the modules it lies in. -/
def shortName (type : EntityType) : String :=
  String.ofList (beforeSeparator type.name.toList.reverse).reverse

def same (type other : EntityType) : Bool := type.id == other.id

end EntityType

namespace Slot

def isMany : Slot → Bool
  | many _ _ => true
  | _ => false

end Slot

/-- Puts a value under a name, in the place of an earlier one. -/
def put {κ α : Type} [DecidableEq κ] (key : κ) (value : α) : List (κ × α) → List (κ × α)
  | [] => [(key, value)]
  | (other, old) :: rest =>
    if other = key then (key, value) :: rest else (other, old) :: put key value rest

namespace Entity

def type : Entity → EntityType
  | mk type _ _ => type

/-- The fields that were written. -/
def fields : Entity → List (Field × Value)
  | mk _ fields _ => fields

/-- All children with their slots. -/
def members : Entity → List (Slot × Entity)
  | mk _ _ members => members

/-- The value that a field shows. -/
def read (field : Field) (e : Entity) : Value :=
  match e.fields.lookup field with
  | some value => if field.type.holds value then value else field.type.initial
  | none => field.type.initial

def write (field : Field) (value : Value) : Entity → Entity
  | mk type fields members => mk type (put field value fields) members

def inSlot {α : Type} (slot : Slot) (members : List (Slot × α)) : List α :=
  let all := (members.filter fun member => decide (member.1 = slot)).map Prod.snd
  if slot.isMany then all else all.take 1

def children (slot : Slot) (e : Entity) : List Entity := inSlot slot e.members

def clear (slot : Slot) : Entity → Entity
  | mk type fields members =>
    mk type fields (members.filter fun member => decide (member.1 ≠ slot))

/-- Adds a child to a list, or puts it in the place of the single child. -/
def attach (e : Entity) (slot : Slot) (child : Entity) : Entity :=
  let emptied := if slot.isMany then e else e.clear slot
  mk emptied.type emptied.fields (emptied.members ++ [(slot, child)])

/-- Replaces the member of a slot that stands at an index among its kind. -/
def replaceMember (slot : Slot) (child : Entity) :
    Nat → List (Slot × Entity) → List (Slot × Entity)
  | _, [] => []
  | index, (other, old) :: rest =>
    if other = slot then
      match index with
      | 0 => (slot, child) :: rest
      | earlier + 1 => (other, old) :: replaceMember slot child earlier rest
    else (other, old) :: replaceMember slot child index rest

def replaceChild (e : Entity) (slot : Slot) (index : Nat) (child : Entity) : Entity :=
  mk e.type e.fields (replaceMember slot child index e.members)

/-- The entity without its children, for messages: its class, and its fields in the
order of the class. -/
def describe (e : Entity) : String :=
  e.type.shortName ++ " \x7b " ++
    ", ".intercalate (e.type.fields.map fun field =>
      field.label ++ ": " ++ (e.read field).display) ++ " \x7d"

theorem holds_read (field : Field) (e : Entity) :
    field.type.holds (e.read field) = true := by
  rw [read]
  split
  · split
    case isTrue hholds => exact hholds
    case isFalse => exact FieldType.holds_initial field.type
  · exact FieldType.holds_initial field.type

/-- A field shows what was written to it, if that is of its type. -/
theorem read_write {field : Field} {value : Value} {e : Entity}
    (hholds : field.type.holds value = true) : (e.write field value).read field = value := by
  obtain ⟨type, fields, members⟩ := e
  have hlookup : (put field value fields).lookup field = some value := by
    induction fields with
    | nil => simp [put]
    | cons entry rest ih =>
      obtain ⟨other, old⟩ := entry
      by_cases hsame : other = field
      · simp [put, hsame]
      · have hdiffer : ¬ field = other := fun h => hsame h.symm
        simp [put, hsame, List.lookup_cons, beq_eq_false_iff_ne.2 hdiffer, ih]
  simp [write, read, Entity.fields, hlookup, hholds]

theorem read_write_of_ne {field other : Field} {value : Value} {e : Entity}
    (hdiffer : other ≠ field) : (e.write field value).read other = e.read other := by
  obtain ⟨type, fields, members⟩ := e
  have hlookup : (put field value fields).lookup other = fields.lookup other := by
    induction fields with
    | nil => simp [put, List.lookup_cons, beq_eq_false_iff_ne.2 hdiffer]
    | cons entry rest ih =>
      obtain ⟨key, old⟩ := entry
      by_cases hsame : key = field
      · subst hsame
        simp [put, List.lookup_cons, beq_eq_false_iff_ne.2 hdiffer]
      · simp only [put, if_neg hsame, List.lookup_cons, ih]
  simp [write, read, Entity.fields, hlookup]

end Entity

end AggregateSync
