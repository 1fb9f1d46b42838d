import AggregateSync.Connection.Interaction
import AggregateSync.Graph.Assembly
import AggregateSync.Sql.Statement

/-!
# Loading

One query reads the roots.  Below them, each level takes one query per parent class,
relation and child class: it asks for the rows whose foreign key is among the values
of all parents of the level, and every row goes to the parents that have its value.
When all levels are loaded, the entities are assembled.

Rows may lead round in a circle; loading therefore has a budget of levels, and says
when it was not enough.
-/

namespace AggregateSync

/-- A query for the children of a relation. -/
structure Fetch where
  relation : Relation
  /-- The index of the relation in the mapping of the parent. -/
  index : Nat
  child : EntityType
  foreignKeyColumn : String
  statement : Statement
  /-- The values of the parents, each with the numbers of those that have it. -/
  owners : List (Value × List Nat)

/-- Adds an item to the group of its key, or to a new group at the end. -/
def addToGroup {κ α : Type} (same : κ → κ → Bool) (key : κ) (item : α) :
    List (κ × List α) → List (κ × List α)
  | [] => [(key, [item])]
  | (other, items) :: rest =>
    if same other key then (other, items ++ [item]) :: rest
    else (other, items) :: addToGroup same key item rest

/-- Items in groups of equal keys, groups and items in the order they came. -/
def grouped {κ α : Type} (same : κ → κ → Bool) (entries : List (κ × α)) :
    List (κ × List α) :=
  entries.foldl (fun groups entry => addToGroup same entry.1 entry.2 groups) []

/-- The entities of a level with the numbers of their nodes. -/
abbrev Numbered := List (Nat × Entity)

def numbered (nodes : List LoadedNode) (level : List Nat) : Result Numbered :=
  level.mapM fun number => do
    let (_, e) ← occupied nodes number
    return (number, e)

/-- The values that parents give to the foreign keys of their children, without
NULL. -/
def referencedValues (mapping : ClassMapping) (referenced : Property) :
    Numbered → Result (List (Value × Nat))
  | [] => .ok []
  | (number, parent) :: rest => do
    let value ← mapping.get referenced parent
    let others ← referencedValues mapping referenced rest
    return if value.isNull then others else (value, number) :: others

/-- The query for the children that some parents have through a relation, unless none
of the parents has a value to refer to. -/
def planRelation (registry : Registry) (dialect : Dialect) (relation : Relation)
    (index : Nat) (target : Target) (parents : Numbered) : Result (Option Fetch) := do
  let foreignKey ← match target.foreignKey with
    | some foreignKey => pure foreignKey
    | none => .error (.configureBetween .missingForeignKey relation.parent.name
        target.type.name ("relation '" ++ relation.name ++ "' declares no foreign key"))
  let mapping ← registry.mappingById relation.parent.id
  let referenced ← mapping.requireProperty foreignKey.referenced
  let owners := grouped Value.sameEntry (← referencedValues mapping referenced parents)
  if owners.isEmpty then return none
  let child ← registry.mappingById target.type.id
  let own := child.columns.map Property.column
  let columns :=
    if own.contains foreignKey.column then own else own ++ [foreignKey.column]
  let values := owners.map fun group => Expr.literal group.1
  let rows := ((Select.ofTable child.table).withColumns columns).withFilter
    (.isIn (Expr.named foreignKey.column) values false)
  let restricted := relation.subset.elim rows fun subset =>
    rows.withFilter (Expr.columnIs subset.column subset.value)
  let sorted := relation.order.foldl (fun select order => select.withOrder order.term)
    restricted
  return some ⟨relation, index, target.type, foreignKey.column, sorted.build dialect, owners⟩

/-- The targets that the discriminators of parents select.  NULL selects none. -/
def selectedTargets (mapping : ClassMapping) (relation : Relation) (discriminator : String)
    (property : Property) : Numbered → Result (List (Target × (Nat × Entity)))
  | [] => .ok []
  | parent :: rest => do
    let value ← mapping.get property parent.2
    if value.isNull then selectedTargets mapping relation discriminator property rest
    else
      match relation.targetFor? value with
      | none => .error (.configureFor .invalidDiscriminator mapping.type.name
          (discriminator ++ " = " ++ value.display ++ " selects no variant of relation '" ++
            relation.name ++ "'"))
      | some target => do
        let others ← selectedTargets mapping relation discriminator property rest
        return (target, parent) :: others

def planParents (registry : Registry) (dialect : Dialect) (mapping : ClassMapping)
    (relation : Relation) (index : Nat) (parents : Numbered) : Result (List Fetch) :=
  match relation.form with
  | .many child foreignKey | .one child foreignKey => do
    let fetch ← planRelation registry dialect relation index ⟨child, foreignKey, none⟩ parents
    return fetch.toList
  | .variant discriminator _ => do
    let property ← mapping.requireProperty discriminator
    let selected ← selectedTargets mapping relation discriminator property parents
    let groups := grouped (fun (target other : Target) => target.type.same other.type) selected
    let fetches ← groups.mapM fun group =>
      planRelation registry dialect relation index group.1 group.2
    return fetches.filterMap id

def planRelations (registry : Registry) (dialect : Dialect) (mapping : ClassMapping)
    (parents : Numbered) : Nat → List Relation → Result (List Fetch)
  | _, [] => .ok []
  | index, relation :: rest => do
    let fetches ← planParents registry dialect mapping relation index parents
    let others ← planRelations registry dialect mapping parents (index + 1) rest
    return fetches ++ others

def planClasses (registry : Registry) (dialect : Dialect) :
    List (EntityType × Numbered) → Result (List Fetch)
  | [] => .ok []
  | (type, parents) :: rest => do
    let mapping ← registry.mappingById type.id
    let fetches ← planRelations registry dialect mapping parents 0 mapping.relations
    let others ← planClasses registry dialect rest
    return fetches ++ others

/-- The queries for the children of a level, by class in the order they came. -/
def planLevel (registry : Registry) (dialect : Dialect) (level : Numbered) :
    Result (List Fetch) :=
  planClasses registry dialect
    (grouped EntityType.same (level.map fun entry => (entry.2.type, entry)))

/-- The foreign key of a row.  A row without the column has NULL. -/
def Fetch.foreignKeyOf (fetch : Fetch) (row : Row) : Value :=
  (row.value? fetch.foreignKeyColumn).getD .null

def Fetch.rowError (fetch : Fetch) (fault : IntegrityFault) (value : Value) : Error :=
  .integrity ⟨fault, fetch.relation.parent.name, fetch.child.name, some fetch.relation.name,
    value⟩

/-- Gives a row to each of its owners.  A single child may not be given twice. -/
def giveRow (mapping : ClassMapping) (fetch : Fetch) (row : Row) (value : Value) :
    List Nat → List Nat → Result (List Nat × List LoadedNode)
  | filled, [] => .ok (filled, [])
  | filled, owner :: rest => do
    if fetch.relation.cardinality = .oneToOne ∧ owner ∈ filled then
      throw (fetch.rowError .duplicateOneToOne value)
    let e ← mapping.hydrate row
    let (after, others) ← giveRow mapping fetch row value (owner :: filled) rest
    return (after, ⟨some e, some owner, fetch.index⟩ :: others)

/-- Gives rows to the parents whose value their foreign key has. -/
def giveRows (mapping : ClassMapping) (fetch : Fetch) :
    List Nat → List Row → Result (List LoadedNode)
  | _, [] => .ok []
  | filled, row :: rest => do
    let value := fetch.foreignKeyOf row
    match fetch.owners.find? fun group => group.1.sameEntry value with
    | none => .error (fetch.rowError .unmatchedForeignKey value)
    | some group => do
      let (after, given) ← giveRow mapping fetch row value filled group.2
      let others ← giveRows mapping fetch after rest
      return given ++ others

/-- The nodes of the children that the rows of a query are. -/
def routeRows (registry : Registry) (fetch : Fetch) (rows : List Row) :
    Result (List LoadedNode) := do
  let mapping ← registry.mappingById fetch.child.id
  giveRows mapping fetch [] rows

namespace Task

def queryRows (type : EntityType) (statement : Statement) : Task Unit (List Row) :=
  request (.query .connection statement)
    (.statement statement.sql statement.params (some type.name) none)

def loadFetches (registry : Registry) :
    List Fetch → List LoadedNode → Task Unit (List LoadedNode)
  | [], nodes => pure nodes
  | fetch :: rest, nodes => do
    let rows ← queryRows fetch.child fetch.statement
    let routed ← ofResult (routeRows registry fetch rows)
    loadFetches registry rest (nodes ++ routed)

/-- Loads the levels below a level: gives all nodes and the numbers of every further
level, unless there are more levels than the budget. -/
def loadBelow (registry : Registry) (dialect : Dialect) (budget : Nat)
    (nodes : List LoadedNode) (level : List Nat) :
    Task Unit (Option (List LoadedNode × List (List Nat))) :=
  if level.isEmpty then pure (some (nodes, []))
  else
    match budget with
    | 0 => pure none
    | further + 1 => do
      let parents ← ofResult (numbered nodes level)
      let fetches ← ofResult (planLevel registry dialect parents)
      if fetches.isEmpty then return some (nodes, [])
      let all ← loadFetches registry fetches nodes
      let next := List.range' nodes.length (all.length - nodes.length)
      match ← loadBelow registry dialect further all next with
      | none => return none
      | some (complete, below) => return some (complete, next :: below)

end Task

def rootQuery (mapping : ClassMapping) (constraints : Constraints) : Select :=
  ((Select.ofTable mapping.table).withColumns (mapping.columns.map Property.column)).constrain
    constraints

def LoadedNode.root (e : Entity) : LoadedNode := ⟨some e, none, 0⟩

/-- The entities of a class that satisfy constraints, in the order of their rows, with
everything below them if `withChildren`.  The answer is `none` if there are more
levels than the budget. -/
def load (registry : Registry) (dialect : Dialect) (budget : Nat) (root : EntityType)
    (constraints : Constraints) (withChildren : Bool) :
    Task Unit (Option (List Entity)) := do
  let mapping ← Task.ofResult (registry.mappingById root.id)
  let rows ← Task.queryRows mapping.type ((rootQuery mapping constraints).build dialect)
  let roots ← Task.ofResult (rows.mapM mapping.hydrate)
  let nodes := roots.map LoadedNode.root
  let level := List.range roots.length
  let loaded ← if withChildren then Task.loadBelow registry dialect budget nodes level
    else pure (some (nodes, []))
  match loaded with
  | none => return none
  | some (all, below) => do
    let complete ← Task.ofResult (assemble registry all (level :: below))
    return some complete

/-- A loaded root, which has to be of the class that was asked for. -/
def rootAs (type : EntityType) (e : Entity) : Result Entity :=
  if e.type.same type then .ok e
  else .error (.configureBetween .typeMismatch type.name e.type.name
    ("loaded " ++ e.type.name ++ " where " ++ type.name ++ " was requested"))

/-- The entities of a class that satisfy constraints, each checked to be of the class. -/
def loadGraph (registry : Registry) (dialect : Dialect) (budget : Nat) (root : EntityType)
    (constraints : Constraints) (withChildren : Bool) :
    Task Unit (Option (List Entity)) := do
  match ← load registry dialect budget root constraints withChildren with
  | none => return none
  | some roots => return some (← Task.ofResult (roots.mapM (rootAs root)))

/-- The constraints that a key imposes, which must have a value for each key field. -/
def keyConstraints (registry : Registry) (type : EntityType) (key : List Value) :
    Result Constraints := do
  let mapping ← registry.mappingOf type
  if key.length = mapping.keys.length then
    return Constraints.byKey (mapping.keys.map Property.column) key
  else
    .error (.configure .invalidArgument
      (mapping.type.name ++ " has " ++ toString mapping.keys.length ++ " key fields but " ++
        toString key.length ++ " values were given"))

/-- The entity of a class with a key.  It is an error if there is none. -/
def fetchByKey (registry : Registry) (dialect : Dialect) (budget : Nat) (type : EntityType)
    (key : List Value) (withChildren : Bool) : Task Unit (Option Entity) := do
  let constraints ← Task.ofResult (keyConstraints registry type key)
  match ← loadGraph registry dialect budget type constraints withChildren with
  | none => return none
  | some (found :: _) => return some found
  | some [] => Task.ofResult (.error (.notFound type.name key))

end AggregateSync
