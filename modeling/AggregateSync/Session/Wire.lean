import AggregateSync.Json.Decode
import AggregateSync.Session.Synchronize

/-!
# Settings and summaries as JSON

The stored forms of what sessions are configured with and report: names for
enumerations, and records with their fields in a fixed order.
-/

namespace AggregateSync

/-- The name of a value in a table of names. -/
def nameOf {α : Type} [BEq α] (names : List (String × α)) (a : α) : String :=
  ((names.find? fun entry => entry.2 == a).map Prod.fst).getD ""

/-- The stored form of a name that a document holds. -/
def nameText? {α : Type} [BEq α] (names : List (String × α)) (document : JsonSyntax) :
    Option String :=
  (document.oneOf? names).map fun a => Json.quote (nameOf names a)

namespace Dialect

def names : List (String × Dialect) :=
  [postgres, sqlite, mysql].map fun dialect => (dialect.label, dialect)

end Dialect

namespace Cardinality

def names : List (String × Cardinality) :=
  [oneToOne, oneToMany].map fun cardinality => (cardinality.label, cardinality)

end Cardinality

namespace ChangeState

def names : List (String × ChangeState) :=
  [added, removed, modified, unmodified].map fun state => (state.label, state)

end ChangeState

namespace Side

def names : List (String × Side) := [snapshot, current].map fun side => (side.label, side)

end Side

/-- A record with its fields in order, each already written. -/
def recordText (fields : List (String × String)) : String :=
  "\x7b" ++ ",".intercalate (fields.map fun field =>
    Json.quote field.1 ++ ":" ++ field.2) ++ "\x7d"

namespace WriteCounts

def wireText (counts : WriteCounts) : String :=
  recordText [("inserted", toString counts.inserted), ("updated", toString counts.updated),
    ("deleted", toString counts.deleted)]

def ofSyntax? (document : JsonSyntax) : Option WriteCounts := do
  match ← document.fields? ["inserted", "updated", "deleted"] with
  | [some inserted, some updated, some deleted] =>
    return ⟨← inserted.count?, ← updated.count?, ← deleted.count?⟩
  | _ => none

end WriteCounts

namespace ChangeSummary

def wireText (summary : ChangeSummary) : String :=
  recordText
    [("root", summary.root.elim "null" fun state => Json.quote state.label),
      ("added", toString summary.added), ("removed", toString summary.removed),
      ("modified", toString summary.modified), ("unmodified", toString summary.unmodified),
      ("statements", summary.statements.wireText)]

/-- The state of a root, `null` standing for none. -/
def rootState? : JsonSyntax → Option (Option ChangeState)
  | .null => some none
  | document => (document.oneOf? ChangeState.names).map some

/-- The summary of a record, which may lack the state of the root. -/
def ofSyntax? (document : JsonSyntax) : Option ChangeSummary := do
  match ← document.fields?
      ["root", "added", "removed", "modified", "unmodified", "statements"] with
  | [root, some added, some removed, some modified, some unmodified, some statements] =>
    return ⟨← rootState? (root.getD .null), ← added.count?, ← removed.count?,
      ← modified.count?, ← unmodified.count?, ← WriteCounts.ofSyntax? statements⟩
  | _ => none

end ChangeSummary

end AggregateSync
