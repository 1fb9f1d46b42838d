import AggregateSync.Connection.Interaction
import AggregateSync.Graph.Diff
import AggregateSync.Sql.Statement

/-!
# Writing changes

Changes are written in an order that respects foreign keys: added members from the
root down, then removed members from the leaves up, then modified members.  Before a
member is written, its foreign key takes the value that its parent has at that
moment, either in the property of the member or as a further column.  A key that the
database assigns is written into the current graph at once, so the members below
refer to it.  The snapshot is only read.
-/

namespace AggregateSync

/-- The statements that were issued. -/
structure WriteCounts where
  inserted : Nat
  updated : Nat
  deleted : Nat
  deriving DecidableEq, Repr

/-- How foreign keys take part in deletes and updates. -/
structure PersistOptions where
  /-- Deletes also name the parent. -/
  onDelete : Bool
  /-- Updates refresh the foreign key from the parent. -/
  onUpdate : Bool
  deriving DecidableEq, Repr

/-- The value that a foreign key carries. -/
structure ForeignKeyValue where
  column : String
  property : Option String
  value : Value

/-- What the row of a member says about its parent. -/
structure ParentLink where
  foreignKey : Option ForeignKeyValue
  subset : Option SubsetColumn

/-- A statement for one member, and what is needed to report that it failed. -/
structure PreparedWrite where
  statement : Statement
  type : EntityType
  /-- The member in words. -/
  entity : String
  /-- Does the database assign the key of the new row? -/
  assignsKey : Bool

namespace WriteCounts

def total (counts : WriteCounts) : Nat := counts.inserted + counts.updated + counts.deleted

end WriteCounts

namespace PersistOptions

/-- Foreign keys take part in both. -/
def standard : PersistOptions := ⟨true, true⟩

end PersistOptions

namespace PreparedWrite

def failure (write : PreparedWrite) (source : Error) : Error :=
  .statement write.statement.sql write.statement.params (some write.type.name)
    (some write.entity) source

end PreparedWrite

def missingGraph (change : Change) (side : Side) : Error :=
  .configure .invalidArgument
    (change.state.label ++ " " ++ change.type.name ++ " needs the " ++ side.label ++
      " graph, which was not given")

/-- The value that the foreign key of a member of class `child` takes from its
parent.  NULL and a key that the database has not yet assigned are no value. -/
def ClassMapping.foreignKeyValue (mapping : ClassMapping) (relation : Relation)
    (child : EntityType) (parent : Entity) : Result ForeignKeyValue := do
  let foreignKey ← match relation.foreignKey? child with
    | some foreignKey => pure foreignKey
    | none => .error (.configureBetween .missingForeignKey mapping.type.name child.name
        ("relation '" ++ relation.name ++ "' has no foreign key for " ++ child.name))
  let referenced ← mapping.requireProperty foreignKey.referenced
  let value ← mapping.get referenced parent
  if value.isNull || (referenced.generated && value.isUnsaved) then
    .error (.configureBetween .keyGeneration mapping.type.name child.name
      (mapping.type.name ++ " has no value for '" ++ foreignKey.referenced ++
        "' to give " ++ child.name))
  else return ⟨foreignKey.column, foreignKey.property, value⟩

/-- What the row of a changed member says about its parent, the foreign key only if
it is to be propagated.  The parent is read in the graph of the member. -/
def parentLink (registry : Registry) (change : Change) (snapshot current : Option Entity)
    (propagate : Bool) : Result ParentLink :=
  match Path.parent? change.path, change.relation with
  | some parentPath, some index => do
    let graph := match change.side with
      | .current => current
      | .snapshot => snapshot
    let root ← match graph with
      | some root => pure root
      | none => .error (missingGraph change change.side)
    let parent ← registry.resolve root parentPath
    let mapping ← registry.mappingFor parent
    let relation ← mapping.relationAt index
    if propagate then
      let value ← mapping.foreignKeyValue relation change.type parent
      return ⟨some value, relation.subset⟩
    else return ⟨none, relation.subset⟩
  | _, _ => .ok ⟨none, none⟩

/-- Gives a member its foreign key: in its property, or as a further column. -/
def applyForeignKey (mapping : ClassMapping) (e : Entity) :
    Option ForeignKeyValue → Result (Entity × Option (String × Value))
  | none => .ok (e, none)
  | some foreignKey =>
    match foreignKey.property with
    | none => .ok (e, some (foreignKey.column, foreignKey.value))
    | some name => do
      let property ← mapping.requireProperty name
      let written ← mapping.set property foreignKey.value e
      return (written, none)

def ClassMapping.valuesOf (mapping : ClassMapping) (e : Entity) (properties : List Property) :
    Result (List (Property × Value)) :=
  properties.mapM fun property => do return (property, ← mapping.get property e)

def keyFilter (mapping : ClassMapping) (e : Entity) : Result Expr := do
  let keys ← mapping.valuesOf e mapping.keys
  match Expr.all? (keys.map fun entry => Expr.columnIs entry.1.column entry.2) with
  | some condition => return condition
  | none => .error (.configureFor .missingKey mapping.type.name
      "no key columns to address the row")

def SubsetColumn.condition (subset : SubsetColumn) : Expr :=
  Expr.columnIs subset.column subset.value

def awaitsKey (entry : Property × Value) : Bool := entry.1.generated && entry.2.isUnsaved

/-- The row of a new member: its keys except one that the database assigns, its
written properties, and what it says about its parent. -/
def newRow (mapping : ClassMapping) (keys properties : List (Property × Value))
    (extra : Option (String × Value)) (subset : Option SubsetColumn) : Insert :=
  let own := (keys.filter fun entry => !awaitsKey entry) ++ properties
  let row := own.foldl (fun insert entry => insert.value entry.1.column entry.2)
    (Insert.intoTable mapping.table)
  let linked := extra.elim row fun entry => row.value entry.1 entry.2
  subset.elim linked fun constant => linked.value constant.column constant.value

/-- The INSERT of an added member, and the current graph with its foreign key set. -/
def prepareInsert (registry : Registry) (dialect : Dialect) (snapshot : Option Entity)
    (change : Change) (current : Entity) : Result (Entity × PreparedWrite) := do
  let link ← parentLink registry change snapshot (some current) true
  let mapping ← registry.mappingById change.type.id
  let place ← registry.locate current change.path
  let (e, extra) ← applyForeignKey mapping place.entity link.foreignKey
  let keys ← mapping.valuesOf e mapping.keys
  let properties ← mapping.valuesOf e mapping.writableProperties
  let insert := newRow mapping keys properties extra link.subset
  return (place.replace e,
    ⟨insert.build dialect, mapping.type, e.describe, keys.any awaitsKey⟩)

/-- The DELETE of a removed member.  Its parent is named unless the foreign key is
part of the key already. -/
def prepareDelete (registry : Registry) (dialect : Dialect) (snapshot current : Option Entity)
    (propagate : Bool) (change : Change) : Result PreparedWrite := do
  let link ← parentLink registry change snapshot current propagate
  let mapping ← registry.mappingById change.type.id
  let root ← match snapshot with
    | some root => pure root
    | none => .error (missingGraph change .snapshot)
  let e ← registry.resolve root change.path
  let addressed := (Delete.fromTable mapping.table).withFilter (← keyFilter mapping e)
  let narrowed := link.foreignKey.elim addressed fun foreignKey =>
    if mapping.keys.any fun key => key.column == foreignKey.column then addressed
    else addressed.withFilter (Expr.columnIs foreignKey.column foreignKey.value)
  let delete := link.subset.elim narrowed fun subset => narrowed.withFilter subset.condition
  return ⟨delete.build dialect, mapping.type, e.describe, false⟩

/-- The UPDATE of a modified member, if there is anything to assign, and the current
graph with its foreign key set. -/
def prepareUpdate (registry : Registry) (dialect : Dialect) (snapshot : Option Entity)
    (propagate : Bool) (change : Change) (current : Entity) :
    Result (Entity × Option PreparedWrite) := do
  let link ← parentLink registry change snapshot (some current) propagate
  let mapping ← registry.mappingById change.type.id
  let place ← registry.locate current change.path
  let (e, extra) ← applyForeignKey mapping place.entity link.foreignKey
  let properties ← mapping.valuesOf e mapping.writableProperties
  let assigned := properties.foldl (fun update entry => update.set entry.1.column entry.2)
    (Update.ofTable mapping.table)
  let linked := extra.elim assigned fun entry => assigned.set entry.1 entry.2
  if linked.isEmpty then return (place.replace e, none)
  let addressed := linked.withFilter (← keyFilter mapping e)
  let update := link.subset.elim addressed fun subset =>
    addressed.withFilter subset.condition
  return (place.replace e, some ⟨update.build dialect, mapping.type, e.describe, false⟩)

/-- The current graph with the key that the database assigned to a new row. -/
def writeBack (registry : Registry) (change : Change) (assigned : Int) (current : Entity) :
    Result Entity := do
  let mapping ← registry.mappingById change.type.id
  match mapping.generatedKey? with
  | none => return current
  | some key => do
    let place ← registry.locate current change.path
    let saved ← mapping.set key (.bigInt (Int64.ofInt assigned)) place.entity
    return place.replace saved

namespace Task

def currentGraph (change : Change) : Task (Option Entity) Entity := do
  match ← state with
  | some root => return root
  | none => ofResult (.error (missingGraph change .current))

def execute (channel : Channel) (write : PreparedWrite) : Task (Option Entity) Unit := do
  let _ ← request (.execute channel write.statement) write.failure
  return ()

def insertMember (registry : Registry) (dialect : Dialect) (channel : Channel)
    (snapshot : Option Entity) (change : Change) : Task (Option Entity) Bool := do
  checkCancelled
  let root ← currentGraph change
  let (linked, write) ← ofResult (prepareInsert registry dialect snapshot change root)
  setState (some linked)
  if write.assignsKey then
    let assigned ← request (.insert channel write.statement) write.failure
    let saved ← ofResult (writeBack registry change assigned linked)
    setState (some saved)
  else execute channel write
  return true

def deleteMember (registry : Registry) (dialect : Dialect) (channel : Channel)
    (snapshot : Option Entity) (options : PersistOptions) (change : Change) :
    Task (Option Entity) Bool := do
  checkCancelled
  let current ← state
  let write ← ofResult
    (prepareDelete registry dialect snapshot current options.onDelete change)
  execute channel write
  return true

def updateMember (registry : Registry) (dialect : Dialect) (channel : Channel)
    (snapshot : Option Entity) (options : PersistOptions) (change : Change) :
    Task (Option Entity) Bool := do
  checkCancelled
  let root ← currentGraph change
  let (linked, write?) ← ofResult
    (prepareUpdate registry dialect snapshot options.onUpdate change root)
  setState (some linked)
  match write? with
  | some write => do
    execute channel write
    return true
  | none => return false

/-- Carries out a task for each item in turn and counts those that did something. -/
def countEach {σ β : Type} (task : β → Task σ Bool) : List β → Task σ Nat
  | [] => pure 0
  | item :: rest => do
    let issued ← task item
    let others ← countEach task rest
    return (if issued then 1 else 0) + others

end Task

def changesIn (changes : List Change) (state : ChangeState) : List Change :=
  changes.filter fun change => change.state == state

/-- Writes changes; the state of the task is the current graph. -/
def persist (registry : Registry) (dialect : Dialect) (channel : Channel)
    (changes : List Change) (snapshot : Option Entity) (options : PersistOptions) :
    Task (Option Entity) WriteCounts := do
  let inserted ← Task.countEach (Task.insertMember registry dialect channel snapshot)
    (byDepth Change.depth (changesIn changes .added))
  let deleted ← Task.countEach (Task.deleteMember registry dialect channel snapshot options)
    (byDepthDescending Change.depth (changesIn changes .removed))
  let updated ← Task.countEach (Task.updateMember registry dialect channel snapshot options)
    (changesIn changes .modified)
  return ⟨inserted, updated, deleted⟩

end AggregateSync
