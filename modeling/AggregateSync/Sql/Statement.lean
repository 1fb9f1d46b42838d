import AggregateSync.Sql.Constraints

/-!
# Statements

The four statements that read and write a table.  Conditions given one after the
other must all hold.  A column is assigned once: a later value for it takes the
place of the earlier one, so INSERT and UPDATE never name a column twice.
Parameters are numbered in the order of the text, assigned values first.
-/

namespace AggregateSync

/-- Gives a column a value, in its place if it has one already. -/
def assign (column : String) (value : Value) :
    List (String × Value) → List (String × Value)
  | [] => [(column, value)]
  | (other, old) :: rest =>
    if other = column then (other, value) :: rest
    else (other, old) :: assign column value rest

structure Select where
  table : String
  /-- The columns read, all of them if the list is empty. -/
  columns : List String
  filter : Option Expr
  order : List SortTerm
  limit : Option Nat
  offset : Option Nat

structure Insert where
  table : String
  assignments : List (String × Value)

structure Update where
  table : String
  assignments : List (String × Value)
  filter : Option Expr

structure Delete where
  table : String
  filter : Option Expr

def namePieces (names : List String) : List Piece :=
  Piece.joined ", " (names.map fun name => [.name name])

/-- The condition of a statement and its pieces, the first parameter numbered
`next`. -/
def filterPieces (next : Nat) : Option Expr → List Piece
  | some condition => .word " WHERE " :: condition.pieces next
  | none => []

def filterParams : Option Expr → List Value
  | some condition => condition.params
  | none => []

namespace Select

/-- All columns and rows of a table. -/
def ofTable (table : String) : Select := ⟨table, [], none, [], none, none⟩

def withColumns (select : Select) (columns : List String) : Select :=
  { select with columns := columns }

def withFilter (select : Select) (condition : Expr) : Select :=
  { select with filter := some (Expr.conjoin select.filter condition) }

def withOrder (select : Select) (term : SortTerm) : Select :=
  { select with order := select.order ++ [term] }

def withLimit (select : Select) (n : Nat) : Select := { select with limit := some n }

def withOffset (select : Select) (n : Nat) : Select := { select with offset := some n }

/-- Applies constraints.  Their filter stands in parentheses, so that no part of it
escapes the conditions there are. -/
def constrain (select : Select) (constraints : Constraints) : Select :=
  let filtered := match constraints.filter with
    | some condition => select.withFilter condition.paren
    | none => select
  { filtered with
    order := filtered.order ++ constraints.order
    limit := constraints.limit.or filtered.limit
    offset := constraints.offset.or filtered.offset }

def pieces (select : Select) : List Piece :=
  .word "SELECT " ::
    ((if select.columns.isEmpty then [.word "*"] else namePieces select.columns) ++
      ([.word " FROM ", .name select.table] ++ filterPieces 1 select.filter ++
        (if select.order.isEmpty then []
          else .word " ORDER BY " :: Piece.joined ", " (select.order.map SortTerm.pieces)) ++
        (match select.limit with
          | some n => [.word (" LIMIT " ++ toString n)]
          | none => []) ++
        (match select.offset with
          | some n => [.word (" OFFSET " ++ toString n)]
          | none => [])))

def build (select : Select) (dialect : Dialect) : Statement :=
  ⟨dialect.piecesText select.pieces, filterParams select.filter⟩

end Select

namespace Insert

/-- A row with nothing assigned. -/
def intoTable (table : String) : Insert := ⟨table, []⟩

def value (insert : Insert) (column : String) (v : Value) : Insert :=
  { insert with assignments := assign column v insert.assignments }

def columns (insert : Insert) : List String := insert.assignments.map Prod.fst

def hasColumn (insert : Insert) (column : String) : Bool :=
  insert.columns.contains column

/-- The pieces of the statement.  A row of defaults is spelled per dialect. -/
def pieces (insert : Insert) (dialect : Dialect) : List Piece :=
  [.word "INSERT INTO ", .name insert.table] ++
    if insert.assignments.isEmpty then
      match dialect with
      | .mysql => [.word " () VALUES ()"]
      | .postgres | .sqlite => [.word " DEFAULT VALUES"]
    else
      .word " (" :: (namePieces insert.columns ++
        .word ") VALUES (" ::
          (Piece.joined ", "
            ((List.range' 1 insert.assignments.length).map fun number => [.place number]) ++
            [.word ")"]))

def build (insert : Insert) (dialect : Dialect) : Statement :=
  ⟨dialect.piecesText (insert.pieces dialect), insert.assignments.map Prod.snd⟩

end Insert

namespace Update

/-- A change that assigns nothing and concerns every row. -/
def ofTable (table : String) : Update := ⟨table, [], none⟩

def set (update : Update) (column : String) (v : Value) : Update :=
  { update with assignments := assign column v update.assignments }

def withFilter (update : Update) (condition : Expr) : Update :=
  { update with filter := some (Expr.conjoin update.filter condition) }

def isEmpty (update : Update) : Bool := update.assignments.isEmpty

/-- The pieces of assignments, the first parameter numbered `next`. -/
def assignmentPieces (next : Nat) : List (String × Value) → List (List Piece)
  | [] => []
  | (column, _) :: rest =>
    [.name column, .word " = ", .place next] :: assignmentPieces (next + 1) rest

def pieces (update : Update) : List Piece :=
  [.word "UPDATE ", .name update.table, .word " SET "] ++
    Piece.joined ", " (assignmentPieces 1 update.assignments) ++
    filterPieces (update.assignments.length + 1) update.filter

def build (update : Update) (dialect : Dialect) : Statement :=
  ⟨dialect.piecesText update.pieces,
    update.assignments.map Prod.snd ++ filterParams update.filter⟩

end Update

namespace Delete

/-- A removal that concerns every row. -/
def fromTable (table : String) : Delete := ⟨table, none⟩

def withFilter (delete : Delete) (condition : Expr) : Delete :=
  { delete with filter := some (Expr.conjoin delete.filter condition) }

def pieces (delete : Delete) : List Piece :=
  [.word "DELETE FROM ", .name delete.table] ++ filterPieces 1 delete.filter

def build (delete : Delete) (dialect : Dialect) : Statement :=
  ⟨dialect.piecesText delete.pieces, filterParams delete.filter⟩

end Delete

end AggregateSync
