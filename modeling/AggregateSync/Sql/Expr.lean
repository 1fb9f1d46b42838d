import AggregateSync.Sql.Dialect

/-!
# Expressions

Conditions over columns and values.  A literal is never written into the text: it
becomes a parameter, and the text holds its place.  The parameters of an expression
are its literals from left to right, so their places can be numbered from the count
of what stands further left.  DEFAULT is a word of the language and stays in the
text; membership in an empty list has a constant answer and leaves no trace of its
operand.
-/

namespace AggregateSync

inductive BinaryOp where
  | eq
  | ne
  | lt
  | le
  | gt
  | ge
  | and
  | or
  deriving DecidableEq, Repr

inductive Expr where
  | column (table : Option String) (name : String)
  | literal (value : Value)
  | binary (left : Expr) (op : BinaryOp) (right : Expr)
  | not (operand : Expr)
  | isIn (operand : Expr) (items : List Expr) (negated : Bool)
  | isNull (operand : Expr) (negated : Bool)
  | paren (inner : Expr)
  /-- A fragment of the caller's own. -/
  | raw (sql : String)

namespace BinaryOp

def text : BinaryOp → String
  | eq => "="
  | ne => "<>"
  | lt => "<"
  | le => "<="
  | gt => ">"
  | ge => ">="
  | and => "AND"
  | or => "OR"

end BinaryOp

namespace Expr

/-- A column of the table at hand. -/
def named (name : String) : Expr := column none name

/-- The condition that a column has a value. -/
def columnIs (name : String) (value : Value) : Expr :=
  binary (named name) .eq (literal value)

def and (left right : Expr) : Expr := binary left .and right

def or (left right : Expr) : Expr := binary left .or right

/-- All of the conditions, if there are any. -/
def all? : List Expr → Option Expr
  | [] => none
  | first :: rest => some (rest.foldl Expr.and first)

def conjoin (present : Option Expr) (condition : Expr) : Expr :=
  match present with
  | some existing => existing.and condition
  | none => condition

mutual

/-- The values that an expression binds, from left to right. -/
def params : Expr → List Value
  | column _ _ => []
  | literal .default => []
  | literal value => [value]
  | binary left _ right => params left ++ params right
  | not operand => params operand
  | isIn _ [] _ => []
  | isIn operand (item :: items) _ => params operand ++ (params item ++ paramsOfItems items)
  | isNull operand _ => params operand
  | paren inner => params inner
  | raw _ => []

def paramsOfItems : List Expr → List Value
  | [] => []
  | item :: rest => params item ++ paramsOfItems rest

end

mutual

/-- The pieces of an expression whose first parameter has the given number. -/
def pieces (next : Nat) : Expr → List Piece
  | column (some table) name => [.name table, .word ".", .name name]
  | column none name => [.name name]
  | literal .default => [.word "DEFAULT"]
  | literal _ => [.place next]
  | binary left op right =>
    pieces next left ++ .word (" " ++ op.text ++ " ") ::
      pieces (next + (params left).length) right
  | not operand => .word "NOT " :: pieces next operand
  | isIn _ [] negated => [.word (if negated then "1 = 1" else "1 = 0")]
  | isIn operand (item :: items) negated =>
    let afterOperand := next + (params operand).length
    pieces next operand ++ .word (if negated then " NOT IN (" else " IN (") ::
      (pieces afterOperand item ++
        (piecesOfItems (afterOperand + (params item).length) items ++ [.word ")"]))
  | isNull operand negated =>
    pieces next operand ++ [.word (if negated then " IS NOT NULL" else " IS NULL")]
  | paren inner => .word "(" :: (pieces next inner ++ [.word ")"])
  | raw sql => [.word sql]

/-- The pieces of further list items, a comma before each. -/
def piecesOfItems (next : Nat) : List Expr → List Piece
  | [] => []
  | item :: rest =>
    .word ", " :: (pieces next item ++ piecesOfItems (next + (params item).length) rest)

end

/-- The text of an expression that stands after `offset` other parameters. -/
def text (dialect : Dialect) (offset : Nat) (e : Expr) : String :=
  dialect.piecesText (e.pieces (offset + 1))

end Expr

end AggregateSync
