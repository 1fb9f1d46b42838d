import AggregateSync.Sql.Expr

/-!
# Constraints

What a load asks of its root rows: a filter, an order and a range.  Rows below the
roots are never restricted by it.
-/

namespace AggregateSync

inductive NullsPlacement where
  | first
  | last
  deriving DecidableEq, Repr

structure SortTerm where
  column : String
  descending : Bool
  nulls : Option NullsPlacement
  deriving DecidableEq, Repr

/-- What is asked of the root rows. -/
structure Constraints where
  filter : Option Expr
  order : List SortTerm
  limit : Option Nat
  offset : Option Nat

namespace SortTerm

def pieces (term : SortTerm) : List Piece :=
  [.name term.column,
    .word ((if term.descending then " DESC" else " ASC") ++
      match term.nulls with
      | some .first => " NULLS FIRST"
      | some .last => " NULLS LAST"
      | none => "")]

def text (dialect : Dialect) (term : SortTerm) : String := dialect.piecesText term.pieces

end SortTerm

namespace Constraints

def none : Constraints := ⟨.none, [], .none, .none⟩

def withFilter (constraints : Constraints) (condition : Expr) : Constraints :=
  { constraints with filter := some (Expr.conjoin constraints.filter condition) }

/-- One more column to sort by, after those before. -/
def withOrder (constraints : Constraints) (term : SortTerm) : Constraints :=
  { constraints with order := constraints.order ++ [term] }

def withLimit (constraints : Constraints) (n : Nat) : Constraints :=
  { constraints with limit := some n }

def withOffset (constraints : Constraints) (n : Nat) : Constraints :=
  { constraints with offset := some n }

/-- The row whose key columns have the given values. -/
def byKey (columns : List String) (values : List Value) : Constraints :=
  { none with filter := Expr.all? (List.zipWith Expr.columnIs columns values) }

end Constraints

end AggregateSync
