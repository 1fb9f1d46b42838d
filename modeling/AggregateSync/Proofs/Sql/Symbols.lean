import AggregateSync.Sql.Statement

/-!
# Statements as symbols

A statement is written from left to right, and what it binds becomes a place of its text and one
of its parameters at the same time.  Here each statement is listed as one sequence of symbols in
which a bound value stands where its place will be.  The text numbers the places of the sequence
and the parameters are its values, so the two cannot get out of step; what is left to show of
each statement is that it is written from such a sequence.
-/

namespace AggregateSync

/-- The words of conditions. -/
inductive Word where
  | operator (op : BinaryOp)
  | not
  | isIn (negated : Bool)
  | isNull (negated : Bool)
  | opening
  | closing
  | comma
  | default
  /-- What is left of membership in an empty list. -/
  | constant (truth : Bool)
  deriving DecidableEq

/-- What statements are written of. -/
inductive Symbol where
  | column (table : Option String) (name : String)
  | word (w : Word)
  | bound (value : Value)
  /-- A fragment of a condition, or text around conditions. -/
  | text (s : String)

/-- The statement gets the value as a parameter.  DEFAULT is a word of its text. -/
def Value.isBound : Value → Bool
  | default => false
  | _ => true

/-- A word as it is written. -/
def Word.text : Word → String
  | operator op => " " ++ op.text ++ " "
  | not => "NOT "
  | isIn negated => if negated then " NOT IN (" else " IN ("
  | isNull negated => if negated then " IS NOT NULL" else " IS NULL"
  | opening => "("
  | closing => ")"
  | comma => ", "
  | default => "DEFAULT"
  | constant truth => if truth then "1 = 1" else "1 = 0"

namespace Symbol

/-- The value that a symbol binds, if it binds one. -/
def values : Symbol → List Value
  | bound value => [value]
  | _ => []

/-- The pieces of a symbol, its place having the given number. -/
def pieces (next : Nat) : Symbol → List Piece
  | column (some table) name => [.name table, .word ".", .name name]
  | column none name => [.name name]
  | word w => [.word w.text]
  | bound _ => [.place next]
  | text s => [.word s]

/-- The values of symbols, from left to right. -/
def params (symbols : List Symbol) : List Value := symbols.flatMap values

/-- The pieces of symbols, their places numbered from `next` on. -/
def piecesFrom (next : Nat) : List Symbol → List Piece
  | [] => []
  | symbol :: rest => symbol.pieces next ++ piecesFrom (next + symbol.values.length) rest

/-- Several runs of symbols with a comma between them. -/
def listed : List (List Symbol) → List Symbol
  | [] => []
  | [run] => run
  | run :: rest => run ++ word .comma :: listed rest

/-- The pieces of several runs, their places numbered through. -/
def runPieces (next : Nat) : List (List Symbol) → List (List Piece)
  | [] => []
  | run :: rest => piecesFrom next run :: runPieces (next + (params run).length) rest

@[simp]
theorem params_nil : params [] = [] := rfl

@[simp]
theorem params_cons (symbol : Symbol) (rest : List Symbol) :
    params (symbol :: rest) = symbol.values ++ params rest := rfl

@[simp]
theorem params_append (symbols others : List Symbol) :
    params (symbols ++ others) = params symbols ++ params others :=
  List.flatMap_append

theorem piecesFrom_append (next : Nat) (symbols others : List Symbol) :
    piecesFrom next (symbols ++ others) =
      piecesFrom next symbols ++ piecesFrom (next + (params symbols).length) others := by
  induction symbols generalizing next with
  | nil => rfl
  | cons symbol rest ih =>
      rw [List.cons_append, piecesFrom, piecesFrom, ih, params_cons, List.length_append,
        Nat.add_assoc, List.append_assoc]

theorem piecesFrom_listed (next : Nat) (runs : List (List Symbol)) :
    piecesFrom next (listed runs) = Piece.joined ", " (runPieces next runs) := by
  induction runs generalizing next with
  | nil => rfl
  | cons run rest ih =>
      cases rest with
      | nil => rfl
      | cons following rest =>
          rw [listed, piecesFrom_append, piecesFrom, ih]
          · rfl
          · simp

/-- The places of the text of symbols are numbered one after the other, and there are as many as
values. -/
theorem places_piecesFrom (next : Nat) (symbols : List Symbol) :
    Piece.places (piecesFrom next symbols) = List.range' next (params symbols).length := by
  induction symbols generalizing next with
  | nil => rfl
  | cons symbol rest ih =>
      rw [piecesFrom, Piece.places, List.filterMap_append, ← Piece.places, ← Piece.places, ih]
      cases symbol with
      | column table name => cases table <;> rfl
      | word w => rfl
      | bound value =>
          rw [params_cons, List.length_append, values, List.length_singleton,
            Nat.add_comm 1 (params rest).length, List.range'_succ]
          rfl
      | text s => rfl

end Symbol

/-! ## Expressions -/

namespace Expr

mutual

/-- The symbols of an expression. -/
def symbols : Expr → List Symbol
  | column table name => [.column table name]
  | literal value => [if value.isBound then .bound value else .word .default]
  | binary left op right => symbols left ++ .word (.operator op) :: symbols right
  | not operand => .word .not :: symbols operand
  | isIn _ [] negated => [.word (.constant negated)]
  | isIn operand (item :: items) negated =>
    symbols operand ++ .word (.isIn negated) ::
      (symbols item ++ (symbolsOfItems items ++ [.word .closing]))
  | isNull operand negated => symbols operand ++ [.word (.isNull negated)]
  | paren inner => .word .opening :: (symbols inner ++ [.word .closing])
  | raw sql => [.text sql]

/-- The symbols of further list items, a comma before each. -/
def symbolsOfItems : List Expr → List Symbol
  | [] => []
  | item :: rest => .word .comma :: (symbols item ++ symbolsOfItems rest)

end

mutual

/-- The literals of an expression from left to right.  Membership in an empty list is answered
without its operand and has none. -/
def literals : Expr → List Value
  | column _ _ => []
  | literal value => [value]
  | binary left _ right => literals left ++ literals right
  | not operand => literals operand
  | isIn _ [] _ => []
  | isIn operand (item :: items) _ =>
    literals operand ++ (literals item ++ literalsOfItems items)
  | isNull operand _ => literals operand
  | paren inner => literals inner
  | raw _ => []

/-- The literals of several expressions. -/
def literalsOfItems : List Expr → List Value
  | [] => []
  | item :: rest => literals item ++ literalsOfItems rest

end

mutual

/-- Is the expression free of fragments of the caller's own? -/
def isRawFree : Expr → Bool
  | column _ _ => true
  | literal _ => true
  | binary left _ right => isRawFree left && isRawFree right
  | not operand => isRawFree operand
  | isIn operand items _ => isRawFree operand && areRawFree items
  | isNull operand _ => isRawFree operand
  | paren inner => isRawFree inner
  | raw _ => false

/-- Are all of the expressions free of such fragments? -/
def areRawFree : List Expr → Bool
  | [] => true
  | item :: rest => isRawFree item && areRawFree rest

end

theorem params_literal (value : Value) :
    (literal value).params = [value].filter Value.isBound := by
  cases value <;> rfl

mutual

/-- An expression binds its literals, DEFAULT aside. -/
theorem params_eq_filter (e : Expr) : e.params = e.literals.filter Value.isBound := by
  cases e with
  | literal value => exact params_literal value
  | binary left op right =>
      rw [params, literals, List.filter_append, params_eq_filter left, params_eq_filter right]
  | not operand => exact params_eq_filter operand
  | isIn operand items negated =>
      cases items with
      | nil => rfl
      | cons item rest =>
          rw [params, literals, List.filter_append, List.filter_append, params_eq_filter operand,
            params_eq_filter item, paramsOfItems_eq_filter rest]
  | isNull operand negated => exact params_eq_filter operand
  | paren inner => exact params_eq_filter inner
  | column table name => rfl
  | raw sql => rfl

theorem paramsOfItems_eq_filter (items : List Expr) :
    paramsOfItems items = (literalsOfItems items).filter Value.isBound := by
  cases items with
  | nil => rfl
  | cons item rest =>
      rw [paramsOfItems, literalsOfItems, List.filter_append, params_eq_filter item,
        paramsOfItems_eq_filter rest]

end

mutual

/-- The parameters of an expression are the values of its symbols. -/
theorem params_symbols (e : Expr) : Symbol.params e.symbols = e.params := by
  cases e with
  | column table name => rfl
  | literal value => cases value <;> rfl
  | binary left op right =>
      simp [symbols, params, Symbol.values, params_symbols left, params_symbols right]
  | not operand => exact params_symbols operand
  | isIn operand items negated =>
      cases items with
      | nil => rfl
      | cons item rest =>
          simp [symbols, params, Symbol.values, params_symbols operand, params_symbols item,
            params_symbolsOfItems rest]
  | isNull operand negated => simp [symbols, params, Symbol.values, params_symbols operand]
  | paren inner => simp [symbols, params, Symbol.values, params_symbols inner]
  | raw sql => rfl

theorem params_symbolsOfItems (items : List Expr) :
    Symbol.params (symbolsOfItems items) = paramsOfItems items := by
  cases items with
  | nil => rfl
  | cons item rest =>
      simp [symbolsOfItems, paramsOfItems, Symbol.values, params_symbols item,
        params_symbolsOfItems rest]

end

mutual

/-- The pieces of an expression are those of its symbols. -/
theorem piecesFrom_symbols (e : Expr) (next : Nat) :
    Symbol.piecesFrom next e.symbols = e.pieces next := by
  cases e with
  | column table name => cases table <;> rfl
  | literal value => cases value <;> rfl
  | binary left op right =>
      rw [symbols, pieces, Symbol.piecesFrom_append, piecesFrom_symbols left, Symbol.piecesFrom,
        piecesFrom_symbols right, params_symbols]
      rfl
  | not operand =>
      rw [symbols, pieces, Symbol.piecesFrom, piecesFrom_symbols operand]
      rfl
  | isIn operand items negated =>
      cases items with
      | nil => rfl
      | cons item rest =>
          rw [symbols, pieces, Symbol.piecesFrom_append, piecesFrom_symbols operand,
            Symbol.piecesFrom, Symbol.piecesFrom_append, piecesFrom_symbols item,
            Symbol.piecesFrom_append, piecesFrom_symbolsOfItems rest, params_symbols,
            params_symbols]
          rfl
  | isNull operand negated =>
      rw [symbols, pieces, Symbol.piecesFrom_append, piecesFrom_symbols operand]
      rfl
  | paren inner =>
      rw [symbols, pieces, Symbol.piecesFrom, Symbol.piecesFrom_append, piecesFrom_symbols inner]
      rfl
  | raw sql => rfl

theorem piecesFrom_symbolsOfItems (items : List Expr) (next : Nat) :
    Symbol.piecesFrom next (symbolsOfItems items) = piecesOfItems next items := by
  cases items with
  | nil => rfl
  | cons item rest =>
      rw [symbolsOfItems, piecesOfItems, Symbol.piecesFrom, Symbol.piecesFrom_append,
        piecesFrom_symbols item, piecesFrom_symbolsOfItems rest, params_symbols]
      rfl

end

end Expr

/-! ## Statements -/

/-- The statement written from symbols. -/
def Statement.written (dialect : Dialect) (symbols : List Symbol) : Statement :=
  ⟨dialect.piecesText (Symbol.piecesFrom 1 symbols), Symbol.params symbols⟩

/-- The symbols of a list of names. -/
def nameSymbols (names : List String) : List Symbol :=
  Symbol.listed (names.map fun name => [.column none name])

/-- The symbols of the condition of a statement. -/
def filterSymbols : Option Expr → List Symbol
  | some condition => .text " WHERE " :: condition.symbols
  | none => []

/-- The symbols of values in a list. -/
def valueSymbols (values : List Value) : List Symbol :=
  Symbol.listed (values.map fun value => [.bound value])

/-- The symbols of assignments. -/
def assignmentSymbols (assignments : List (String × Value)) : List Symbol :=
  Symbol.listed (assignments.map fun assignment =>
    [.column none assignment.1, .text " = ", .bound assignment.2])

/-- The symbols of one column to sort by. -/
def SortTerm.symbols (term : SortTerm) : List Symbol :=
  [.column none term.column,
    .text ((if term.descending then " DESC" else " ASC") ++
      match term.nulls with
      | some .first => " NULLS FIRST"
      | some .last => " NULLS LAST"
      | none => "")]

namespace Symbol

theorem piecesFrom_nameSymbols (next : Nat) (names : List String) :
    piecesFrom next (nameSymbols names) = namePieces names := by
  have hruns : ∀ next, runPieces next (names.map fun name => [column none name]) =
      names.map fun name => [.name name] := by
    induction names with
    | nil => exact fun _ => rfl
    | cons name rest ih => exact fun next => congrArg _ (ih _)
  rw [nameSymbols, piecesFrom_listed, hruns, namePieces]

theorem params_listed (runs : List (List Symbol)) :
    params (listed runs) = runs.flatMap params := by
  induction runs with
  | nil => rfl
  | cons run rest ih =>
      cases rest with
      | nil => simp [listed]
      | cons following rest =>
          rw [listed, params_append, params_cons, ih]
          · rfl
          · simp

theorem params_nameSymbols (names : List String) : params (nameSymbols names) = [] := by
  rw [nameSymbols, params_listed, List.flatMap_map]
  exact List.flatMap_eq_nil_iff.2 fun _ _ => rfl

theorem params_valueSymbols (values : List Value) : params (valueSymbols values) = values := by
  rw [valueSymbols, params_listed, List.flatMap_map]
  exact List.flatMap_singleton' values

theorem params_assignmentSymbols (assignments : List (String × Value)) :
    params (assignmentSymbols assignments) = assignments.map Prod.snd := by
  rw [assignmentSymbols, params_listed, List.flatMap_map, List.map_eq_flatMap]
  rfl

theorem params_filterSymbols (filter : Option Expr) :
    params (filterSymbols filter) = filterParams filter := by
  cases filter with
  | none => rfl
  | some condition => exact condition.params_symbols

theorem piecesFrom_filterSymbols (next : Nat) (filter : Option Expr) :
    piecesFrom next (filterSymbols filter) = filterPieces next filter := by
  cases filter with
  | none => rfl
  | some condition =>
      rw [filterSymbols, piecesFrom, Expr.piecesFrom_symbols]
      rfl

theorem piecesFrom_valueSymbols (next : Nat) (values : List Value) :
    piecesFrom next (valueSymbols values) =
      Piece.joined ", " ((List.range' next values.length).map fun number => [.place number]) := by
  have hruns : ∀ next, runPieces next (values.map fun value => [bound value]) =
      (List.range' next values.length).map fun number => [.place number] := by
    induction values with
    | nil => exact fun _ => rfl
    | cons value rest ih => exact fun next => congrArg _ (ih _)
  rw [valueSymbols, piecesFrom_listed, hruns]

theorem piecesFrom_assignmentSymbols (next : Nat) (assignments : List (String × Value)) :
    piecesFrom next (assignmentSymbols assignments) =
      Piece.joined ", " (Update.assignmentPieces next assignments) := by
  have hruns : ∀ next, runPieces next (assignments.map fun assignment =>
      [column none assignment.1, text " = ", bound assignment.2]) =
        Update.assignmentPieces next assignments := by
    induction assignments with
    | nil => exact fun _ => rfl
    | cons assignment rest ih => exact fun next => congrArg _ (ih _)
  rw [assignmentSymbols, piecesFrom_listed, hruns]

theorem piecesFrom_sortTerms (next : Nat) (order : List SortTerm) :
    piecesFrom next (listed (order.map SortTerm.symbols)) =
      Piece.joined ", " (order.map SortTerm.pieces) := by
  have hruns : ∀ next, runPieces next (order.map SortTerm.symbols) =
      order.map SortTerm.pieces := by
    induction order with
    | nil => exact fun _ => rfl
    | cons term rest ih => exact fun next => congrArg _ (ih _)
  rw [piecesFrom_listed, hruns]

theorem params_sortTerms (order : List SortTerm) :
    params (listed (order.map SortTerm.symbols)) = [] := by
  rw [params_listed, List.flatMap_map]
  exact List.flatMap_eq_nil_iff.2 fun _ _ => rfl

end Symbol

namespace Select

/-- The symbols of a query behind its condition. -/
def rangeSymbols (select : Select) : List Symbol :=
  (if select.order.isEmpty then []
    else .text " ORDER BY " :: Symbol.listed (select.order.map SortTerm.symbols)) ++
  (select.limit.toList.map fun n => .text (" LIMIT " ++ toString n)) ++
  (select.offset.toList.map fun n => .text (" OFFSET " ++ toString n))

/-- The symbols of a query. -/
def symbols (select : Select) : List Symbol :=
  .text "SELECT " ::
    ((if select.columns.isEmpty then [.text "*"] else nameSymbols select.columns) ++
      (.text " FROM " :: .column none select.table ::
        (filterSymbols select.filter ++ select.rangeSymbols)))

theorem params_rangeSymbols (select : Select) : Symbol.params select.rangeSymbols = [] := by
  rw [rangeSymbols, Symbol.params_append, Symbol.params_append]
  cases select.limit <;> cases select.offset <;> split <;>
    simp [Symbol.values, Symbol.params_sortTerms]

/-- A query is written from its symbols. -/
theorem build_eq_written (select : Select) (dialect : Dialect) :
    select.build dialect = .written dialect select.symbols := by
  have hcolumns : ∀ next, Symbol.piecesFrom next
      (if select.columns.isEmpty then [.text "*"] else nameSymbols select.columns) =
        if select.columns.isEmpty then [.word "*"] else namePieces select.columns := by
    intro next
    split
    · rfl
    · exact Symbol.piecesFrom_nameSymbols next select.columns
  have hunbound : Symbol.params
      (if select.columns.isEmpty then [.text "*"] else nameSymbols select.columns) = [] := by
    split
    · rfl
    · exact Symbol.params_nameSymbols select.columns
  have hrange : ∀ next, Symbol.piecesFrom next select.rangeSymbols =
      (if select.order.isEmpty then []
        else .word " ORDER BY " :: Piece.joined ", " (select.order.map SortTerm.pieces)) ++
      (select.limit.toList.map fun n => .word (" LIMIT " ++ toString n)) ++
      (select.offset.toList.map fun n => .word (" OFFSET " ++ toString n)) := by
    intro next
    rw [rangeSymbols, Symbol.piecesFrom_append, Symbol.piecesFrom_append]
    congr 1
    · congr 1
      · split
        · rfl
        · rw [Symbol.piecesFrom, Symbol.piecesFrom_sortTerms]
          rfl
      · cases select.limit <;> rfl
    · cases select.offset <;> rfl
  rw [build, Statement.written]
  congr 1
  · congr 1
    rw [pieces, symbols, Symbol.piecesFrom, Symbol.piecesFrom_append, hcolumns, hunbound,
      Symbol.piecesFrom, Symbol.piecesFrom, Symbol.piecesFrom_append,
      Symbol.piecesFrom_filterSymbols, hrange]
    simp only [List.append_assoc]
    cases select.limit <;> cases select.offset <;> rfl
  · rw [symbols, Symbol.params_cons, Symbol.params_append, hunbound, Symbol.params_cons,
      Symbol.params_cons, Symbol.params_append, Symbol.params_filterSymbols,
      params_rangeSymbols, List.append_nil]
    rfl

end Select

namespace Insert

/-- The symbols of a new row. -/
def symbols (insert : Insert) (dialect : Dialect) : List Symbol :=
  .text "INSERT INTO " :: .column none insert.table ::
    if insert.assignments.isEmpty then
      match dialect with
      | .mysql => [.text " () VALUES ()"]
      | .postgres | .sqlite => [.text " DEFAULT VALUES"]
    else
      .text " (" :: (nameSymbols insert.columns ++
        .text ") VALUES (" ::
          (valueSymbols (insert.assignments.map Prod.snd) ++ [.text ")"]))

/-- A new row is written from its symbols. -/
theorem build_eq_written (insert : Insert) (dialect : Dialect) :
    insert.build dialect = .written dialect (insert.symbols dialect) := by
  rw [build, Statement.written, pieces.eq_def, symbols.eq_def]
  cases hassignments : insert.assignments.isEmpty with
  | true =>
      rw [List.isEmpty_iff.1 hassignments]
      cases dialect <;> rfl
  | false =>
      rw [if_neg Bool.false_ne_true, if_neg Bool.false_ne_true]
      congr 1
      · congr 1
        rw [Symbol.piecesFrom, Symbol.piecesFrom, Symbol.piecesFrom, Symbol.piecesFrom_append,
          Symbol.piecesFrom_nameSymbols, Symbol.params_nameSymbols, Symbol.piecesFrom,
          Symbol.piecesFrom_append, Symbol.piecesFrom_valueSymbols, List.length_map]
        rfl
      · simp [Symbol.values, Symbol.params_nameSymbols, Symbol.params_valueSymbols]

end Insert

namespace Update

/-- The symbols of a change of rows. -/
def symbols (update : Update) : List Symbol :=
  .text "UPDATE " :: .column none update.table :: .text " SET " ::
    (assignmentSymbols update.assignments ++ filterSymbols update.filter)

/-- A change of rows is written from its symbols. -/
theorem build_eq_written (update : Update) (dialect : Dialect) :
    update.build dialect = .written dialect update.symbols := by
  rw [build, Statement.written, symbols]
  congr 1
  · congr 1
    rw [Symbol.piecesFrom, Symbol.piecesFrom, Symbol.piecesFrom, Symbol.piecesFrom_append,
      Symbol.piecesFrom_assignmentSymbols, Symbol.params_assignmentSymbols,
      Symbol.piecesFrom_filterSymbols, List.length_map, pieces, Nat.add_comm]
    rfl
  · simp [Symbol.values, Symbol.params_assignmentSymbols, Symbol.params_filterSymbols]

end Update

namespace Delete

/-- The symbols of a removal of rows. -/
def symbols (delete : Delete) : List Symbol :=
  .text "DELETE FROM " :: .column none delete.table :: filterSymbols delete.filter

/-- A removal of rows is written from its symbols. -/
theorem build_eq_written (delete : Delete) (dialect : Dialect) :
    delete.build dialect = .written dialect delete.symbols := by
  rw [build, Statement.written, symbols]
  congr 1
  · congr 1
    rw [Symbol.piecesFrom, Symbol.piecesFrom, Symbol.piecesFrom_filterSymbols, pieces]
    rfl
  · simp [Symbol.values, Symbol.params_filterSymbols]

end Delete

end AggregateSync
