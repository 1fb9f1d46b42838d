import AggregateSync.Sql.Statement

/-!
# Statements built by calls

A statement starts with its table and is built by calls, each of which takes the statement so far
and gives the next.  Here the calls are data, so that a statement can be followed through any
sequence of them.
-/

namespace AggregateSync

namespace Select

/-- A call that changes a query. -/
inductive Call where
  | columns (names : List String)
  | filter (condition : Expr)
  | order (term : SortTerm)
  | limit (n : Nat)
  | offset (n : Nat)
  | constrain (constraints : Constraints)

/-- The query after a call. -/
def call (select : Select) : Call → Select
  | .columns names => select.withColumns names
  | .filter condition => select.withFilter condition
  | .order term => select.withOrder term
  | .limit n => select.withLimit n
  | .offset n => select.withOffset n
  | .constrain constraints => select.constrain constraints

/-- The query after several calls. -/
def built (table : String) (calls : List Call) : Select := calls.foldl call (ofTable table)

end Select

namespace Insert

/-- The new row after several assignments. -/
def built (table : String) (calls : List (String × Value)) : Insert :=
  calls.foldl (fun insert call => insert.value call.1 call.2) (intoTable table)

end Insert

namespace Update

/-- A call that adds to a change of rows. -/
inductive Call where
  | set (column : String) (value : Value)
  | filter (condition : Expr)

/-- The change after a call. -/
def call (update : Update) : Call → Update
  | .set column value => update.set column value
  | .filter condition => update.withFilter condition

/-- The change after several calls. -/
def built (table : String) (calls : List Call) : Update := calls.foldl call (ofTable table)

end Update

namespace Delete

/-- The removal after several conditions. -/
def built (table : String) (conditions : List Expr) : Delete :=
  conditions.foldl withFilter (fromTable table)

end Delete

end AggregateSync
