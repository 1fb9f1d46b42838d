import AggregateSync.Value.Basic

/-!
# Dialects

SQL text is assembled from pieces: text that is the same in every dialect, names
that are quoted, and places for parameters.  A dialect decides how the last two
are written.  Because a quoted name doubles the quote character wherever it occurs
in the name, the closing quote is the first one that stands alone.
-/

namespace AggregateSync

inductive Dialect where
  | postgres
  | sqlite
  | mysql
  deriving DecidableEq, Repr

/-- A statement as text, and the values of its parameters in order. -/
structure Statement where
  sql : String
  params : List Value

/-- A piece of SQL text. -/
inductive Piece where
  /-- Text that stands as it is. -/
  | word (s : String)
  /-- The name of a table or column. -/
  | name (s : String)
  /-- The place of a parameter, numbered from one. -/
  | place (number : Nat)
  deriving DecidableEq, Repr

namespace Dialect

def label : Dialect → String
  | postgres => "Postgres"
  | sqlite => "Sqlite"
  | mysql => "Mysql"

def quoteMark : Dialect → Char
  | postgres | sqlite => '"'
  | mysql => '\x60'

/-- The characters of a name inside quotes: the quote character is doubled. -/
def escapeName (mark : Char) (name : List Char) : List Char :=
  name.flatMap fun c => if c = mark then [mark, mark] else [c]

def quoteName (dialect : Dialect) (name : String) : String :=
  let mark := dialect.quoteMark
  String.ofList (mark :: (escapeName mark name.toList ++ [mark]))

def placeholder (dialect : Dialect) (number : Nat) : String :=
  match dialect with
  | postgres => "$" ++ toString number
  | sqlite => "?" ++ toString number
  | mysql => "?"

def pieceText (dialect : Dialect) : Piece → String
  | .word s => s
  | .name s => dialect.quoteName s
  | .place number => dialect.placeholder number

def piecesText (dialect : Dialect) (pieces : List Piece) : String :=
  String.join (pieces.map dialect.pieceText)

end Dialect

namespace Piece

/-- Several runs of pieces with a separator between them. -/
def joined (separator : String) : List (List Piece) → List Piece
  | [] => []
  | [run] => run
  | run :: rest => run ++ word separator :: joined separator rest

/-- The numbers of the parameters that have a place, in order. -/
def places (pieces : List Piece) : List Nat :=
  pieces.filterMap fun
    | place number => some number
    | _ => none

end Piece

end AggregateSync
