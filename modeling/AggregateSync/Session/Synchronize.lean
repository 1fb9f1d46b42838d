import AggregateSync.Session.Load
import AggregateSync.Session.Persist

/-!
# Synchronizing

Synchronizing compares a graph with its snapshot and writes the difference in one
transaction.  The transaction is committed if every change was written and rolled
back otherwise; what the operation then reports is what stopped it, whatever becomes
of the rollback.
-/

namespace AggregateSync

structure SyncConfig where
  repropagateOnDelete : Bool
  repropagateOnUpdate : Bool
  /-- The properties that are compared, all of them if there is no filter. -/
  propertyFilter : Option PropertyFilter
  loadChildren : Bool

structure ChangeSummary where
  /-- What became of the root. -/
  root : Option ChangeState
  added : Nat
  removed : Nat
  modified : Nat
  unmodified : Nat
  statements : WriteCounts
  deriving DecidableEq, Repr

namespace SyncConfig

/-- Foreign keys take part everywhere, all properties are compared, and children are
loaded. -/
def standard : SyncConfig := ⟨true, true, none, true⟩

def persistOptions (config : SyncConfig) : PersistOptions :=
  ⟨config.repropagateOnDelete, config.repropagateOnUpdate⟩

/-- The filter, or one that accepts everything. -/
def filter (config : SyncConfig) : PropertyFilter :=
  config.propertyFilter.getD fun _ _ => true

end SyncConfig

namespace ChangeSummary

def ofChanges (changes : List Change) (statements : WriteCounts) : ChangeSummary :=
  let currentRoot := changes.find? fun change => change.isRoot && change.side == .current
  { root := (currentRoot.or (changes.find? Change.isRoot)).map Change.state
    added := countState changes .added
    removed := countState changes .removed
    modified := countState changes .modified
    unmodified := countState changes .unmodified
    statements }

def hasChanges (summary : ChangeSummary) : Bool := decide (0 < summary.statements.total)

end ChangeSummary

/-- Carries out a task in a transaction: commits after success and rolls back after
anything else. -/
def inTransaction {σ α : Type} (task : Task σ α) : Task σ α := fun before =>
  .ask .begin fun
    | .ok () => (task before).andThen fun
      | (.ok a, after) => .ask .commit fun answer => .done (answer.map fun _ => a, after)
      | (failure, after) => .ask .rollback fun _ => .done (failure, after)
    | .err e => .done (.err e, before)
    | .cancelled reason => .done (.cancelled reason, before)
    | .panicked detail => .done (.panicked detail, before)

/-- Writes what leads from a snapshot to the current graph, which is the state of the
task. -/
def synchronize (registry : Registry) (dialect : Dialect) (config : SyncConfig)
    (snapshot : Option Entity) : Task (Option Entity) ChangeSummary := do
  let current ← Task.state
  let changes ← Task.ofResult (registry.compare snapshot current config.filter)
  let statements ← inTransaction
    (persist registry dialect .transaction changes snapshot config.persistOptions)
  return ChangeSummary.ofChanges changes statements

end AggregateSync
