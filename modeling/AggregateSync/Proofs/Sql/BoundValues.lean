import AggregateSync.Proofs.Relational
import AggregateSync.Proofs.Sql.Calls
import AggregateSync.Proofs.Sql.Symbols
import Mathlib.Data.List.Forall2

/-!
# Statements that differ in bound values

Two statements may be built by the same calls in the same order and differ in nothing but the
values that they bind.  Then their texts are the same, and their parameters correspond to each
other one by one as the values of the calls do.

The correspondence is a parameter here: whatever relation holds between the values at each place
of the calls holds between the parameters at each place of the lists.  With the relation "equal,
or the value that was changed and the one it was changed to" this says that the lists differ only
at the changed values.
-/

namespace AggregateSync

variable {R : Value → Value → Prop}

/-! ## Symbols -/

/-- Symbols that differ in the value that they bind at most. -/
inductive Symbol.Alike (R : Value → Value → Prop) : Symbol → Symbol → Prop
  | column (table : Option String) (name : String) :
      Alike R (.column table name) (.column table name)
  | word (w : Word) : Alike R (.word w) (.word w)
  | bound {value value' : Value} (hvalue : R value value') : Alike R (.bound value) (.bound value')
  | text (s : String) : Alike R (.text s) (.text s)

/-- Sequences of symbols that are alike one by one. -/
abbrev Symbol.AreAlike (R : Value → Value → Prop) (symbols others : List Symbol) : Prop :=
  List.Forall₂ (Symbol.Alike R) symbols others

/-- Statements of one text, whose parameters correspond one by one. -/
structure Statement.Matches (R : Value → Value → Prop) (statement other : Statement) : Prop where
  sql : statement.sql = other.sql
  params : List.Forall₂ R statement.params other.params

namespace Symbol

theorem Alike.pieces_eq {symbol other : Symbol} (halike : symbol.Alike R other) (next : Nat) :
    symbol.pieces next = other.pieces next := by
  cases halike <;> rfl

theorem Alike.values {symbol other : Symbol} (halike : symbol.Alike R other) :
    List.Forall₂ R symbol.values other.values := by
  cases halike with
  | bound hvalue => exact .cons hvalue .nil
  | _ => exact .nil

/-- The text of symbols shows nothing of the values that they bind. -/
theorem AreAlike.piecesFrom_eq {symbols others : List Symbol} (halike : AreAlike R symbols others)
    (next : Nat) : piecesFrom next symbols = piecesFrom next others := by
  induction halike generalizing next with
  | nil => rfl
  | cons hsymbol _ ih =>
      rw [piecesFrom, piecesFrom, hsymbol.pieces_eq, hsymbol.values.length_eq, ih]

theorem AreAlike.params {symbols others : List Symbol} (halike : AreAlike R symbols others) :
    List.Forall₂ R (params symbols) (params others) := by
  induction halike with
  | nil => exact .nil
  | cons hsymbol _ ih =>
      rw [params_cons, params_cons]
      exact List.rel_append hsymbol.values ih

/-- Symbols that bind nothing are alike to themselves. -/
theorem areAlike_self {symbols : List Symbol} (hunbound : params symbols = []) :
    AreAlike R symbols symbols := by
  induction symbols with
  | nil => exact .nil
  | cons symbol rest ih =>
      have hparts : symbol.values = [] ∧ params rest = [] := by simpa using hunbound
      refine .cons ?_ (ih hparts.2)
      cases symbol with
      | column table name => exact .column table name
      | word w => exact .word w
      | bound value => simp [values] at hparts
      | text s => exact .text s

theorem areAlike_listed {runs others : List (List Symbol)}
    (halike : List.Forall₂ (AreAlike R) runs others) :
    AreAlike R (listed runs) (listed others) := by
  induction halike with
  | nil => exact .nil
  | cons hrun hrest ih =>
      cases hrest with
      | nil => exact hrun
      | cons hfollowing hrest => exact List.rel_append hrun (.cons (.word .comma) ih)

end Symbol

open AggregateSync.Symbol (AreAlike areAlike_self areAlike_listed)

/-- What is written from symbols that are alike matches. -/
theorem Statement.matches_written (dialect : Dialect) {symbols others : List Symbol}
    (halike : AreAlike R symbols others) :
    (written dialect symbols).Matches R (written dialect others) where
  sql := congrArg dialect.piecesText (halike.piecesFrom_eq 1)
  params := halike.params

/-! ## Expressions -/

/-- Expressions that differ in their literals at most, and DEFAULT stands at the same places. -/
inductive Expr.Alike (R : Value → Value → Prop) : Expr → Expr → Prop
  | column (table : Option String) (name : String) :
      Alike R (.column table name) (.column table name)
  | literal {value value' : Value} (hbound : value.isBound = true) (hbound' : value'.isBound = true)
      (hvalue : R value value') : Alike R (.literal value) (.literal value')
  | default : Alike R (.literal .default) (.literal .default)
  | binary {left left' right right' : Expr} (op : BinaryOp) (hleft : Alike R left left')
      (hright : Alike R right right') : Alike R (.binary left op right) (.binary left' op right')
  | not {operand operand' : Expr} (hoperand : Alike R operand operand') :
      Alike R (.not operand) (.not operand')
  | isIn {operand operand' : Expr} {items items' : List Expr} (negated : Bool)
      (hoperand : Alike R operand operand') (hitems : List.Forall₂ (Alike R) items items') :
      Alike R (.isIn operand items negated) (.isIn operand' items' negated)
  | isNull {operand operand' : Expr} (negated : Bool) (hoperand : Alike R operand operand') :
      Alike R (.isNull operand negated) (.isNull operand' negated)
  | paren {inner inner' : Expr} (hinner : Alike R inner inner') :
      Alike R (.paren inner) (.paren inner')
  | raw (sql : String) : Alike R (.raw sql) (.raw sql)

namespace Expr

/-- A literal is alike to itself where values correspond to themselves. -/
theorem literal_alike_self (hself : ∀ value, R value value) (value : Value) :
    (Expr.literal value).Alike R (.literal value) := by
  cases hbound : value.isBound with
  | true => exact .literal hbound hbound (hself value)
  | false => cases value <;> first | exact .default | cases hbound

mutual

/-- Expressions that are alike are written from symbols that are alike. -/
theorem Alike.symbols {e other : Expr} (halike : e.Alike R other) :
    AreAlike R e.symbols other.symbols := by
  cases halike with
  | column table name => exact .cons (.column table name) .nil
  | literal hbound hbound' hvalue =>
      rw [Expr.symbols, Expr.symbols, if_pos hbound, if_pos hbound']
      exact .cons (.bound hvalue) .nil
  | default => exact .cons (.word .default) .nil
  | binary op hleft hright =>
      exact List.rel_append hleft.symbols (.cons (.word (.operator op)) hright.symbols)
  | not hoperand => exact .cons (.word .not) hoperand.symbols
  | isIn negated hoperand hitems =>
      cases hitems with
      | nil => exact .cons (.word (.constant negated)) .nil
      | cons hitem hrest =>
          rw [Expr.symbols, Expr.symbols]
          exact List.rel_append hoperand.symbols (.cons (.word (.isIn negated))
            (List.rel_append hitem.symbols (List.rel_append (symbolsOfItems_alike hrest)
              (.cons (.word .closing) .nil))))
  | isNull negated hoperand =>
      exact List.rel_append hoperand.symbols (.cons (.word (.isNull negated)) .nil)
  | paren hinner =>
      exact .cons (.word .opening) (List.rel_append hinner.symbols (.cons (.word .closing) .nil))
  | raw sql => exact .cons (.text sql) .nil

theorem symbolsOfItems_alike {items others : List Expr}
    (halike : List.Forall₂ (Alike R) items others) :
    AreAlike R (symbolsOfItems items) (symbolsOfItems others) := by
  cases halike with
  | nil => exact .nil
  | cons hitem hrest =>
      exact .cons (.word .comma) (List.rel_append hitem.symbols (symbolsOfItems_alike hrest))

end

theorem Alike.params {e other : Expr} (halike : e.Alike R other) :
    List.Forall₂ R e.params other.params := by
  rw [← e.params_symbols, ← other.params_symbols]
  exact halike.symbols.params

theorem Alike.text_eq {e other : Expr} (halike : e.Alike R other) (dialect : Dialect)
    (offset : Nat) : e.text dialect offset = other.text dialect offset := by
  rw [text, text, ← e.piecesFrom_symbols, ← other.piecesFrom_symbols,
    halike.symbols.piecesFrom_eq]

/-- Conditions stay alike when alike conditions are added. -/
theorem Alike.conjoin {present present' : Option Expr} {condition condition' : Expr}
    (hpresent : Option.Rel (Alike R) present present') (hcondition : condition.Alike R condition') :
    (Expr.conjoin present condition).Alike R (Expr.conjoin present' condition') := by
  cases hpresent with
  | none => exact hcondition
  | some hexisting => exact .binary .and hexisting hcondition

end Expr

/-- Conditions of statements that are alike, or none on either side. -/
abbrev FilterAlike (R : Value → Value → Prop) (filter other : Option Expr) : Prop :=
  Option.Rel (Expr.Alike R) filter other

theorem filterSymbols_alike {filter other : Option Expr} (halike : FilterAlike R filter other) :
    AreAlike R (filterSymbols filter) (filterSymbols other) := by
  cases halike with
  | none => exact .nil
  | some hcondition => exact .cons (.text " WHERE ") hcondition.symbols

/-! ## Assignments -/

/-- Assignments of corresponding values to one column. -/
def AssignmentAlike (R : Value → Value → Prop) (assignment other : String × Value) : Prop :=
  assignment.1 = other.1 ∧ R assignment.2 other.2

theorem map_fst_eq_of_alike {assignments others : List (String × Value)}
    (halike : List.Forall₂ (AssignmentAlike R) assignments others) :
    assignments.map Prod.fst = others.map Prod.fst := by
  induction halike with
  | nil => rfl
  | cons hassignment _ ih => rw [List.map_cons, List.map_cons, hassignment.1, ih]

theorem map_snd_alike {assignments others : List (String × Value)}
    (halike : List.Forall₂ (AssignmentAlike R) assignments others) :
    List.Forall₂ R (assignments.map Prod.snd) (others.map Prod.snd) :=
  List.rel_map (fun _ _ hassignment => hassignment.2) halike

/-- Assigning corresponding values to one column, be it new or assigned before. -/
theorem assign_alike {assignments others : List (String × Value)}
    (halike : List.Forall₂ (AssignmentAlike R) assignments others) (column : String)
    {value value' : Value} (hvalue : R value value') :
    List.Forall₂ (AssignmentAlike R) (assign column value assignments)
      (assign column value' others) := by
  induction halike with
  | nil => exact .cons ⟨rfl, hvalue⟩ .nil
  | @cons assignment other rest rest' hassignment hrest ih =>
      rw [assign.eq_def, assign.eq_def]
      by_cases hcolumn : assignment.1 = column
      · simp only [hcolumn, ← hassignment.1, if_true]
        exact .cons ⟨rfl, hvalue⟩ hrest
      · simp only [hcolumn, ← hassignment.1, if_false]
        exact .cons ⟨rfl, hassignment.2⟩ ih

theorem valueSymbols_alike {values others : List Value} (halike : List.Forall₂ R values others) :
    AreAlike R (valueSymbols values) (valueSymbols others) :=
  areAlike_listed (List.rel_map (fun _ _ hvalue => .cons (.bound hvalue) .nil) halike)

theorem assignmentSymbols_alike {assignments others : List (String × Value)}
    (halike : List.Forall₂ (AssignmentAlike R) assignments others) :
    AreAlike R (assignmentSymbols assignments) (assignmentSymbols others) := by
  refine areAlike_listed (List.rel_map (fun assignment other hassignment => ?_) halike)
  rw [hassignment.1]
  exact .cons (.column none other.1) (.cons (.text " = ") (.cons (.bound hassignment.2) .nil))

/-! ## Queries -/

/-- Constraints that differ in the literals of their condition at most. -/
structure Constraints.Alike (R : Value → Value → Prop) (constraints other : Constraints) :
    Prop where
  filter : FilterAlike R constraints.filter other.filter
  order : constraints.order = other.order
  limit : constraints.limit = other.limit
  offset : constraints.offset = other.offset

namespace Select

/-- Calls that differ in literals at most. -/
inductive Call.Alike (R : Value → Value → Prop) : Call → Call → Prop
  | columns (names : List String) : Alike R (.columns names) (.columns names)
  | filter {condition condition' : Expr} (hcondition : condition.Alike R condition') :
      Alike R (.filter condition) (.filter condition')
  | order (term : SortTerm) : Alike R (.order term) (.order term)
  | limit (n : Nat) : Alike R (.limit n) (.limit n)
  | offset (n : Nat) : Alike R (.offset n) (.offset n)
  | constrain {constraints constraints' : Constraints}
      (hconstraints : constraints.Alike R constraints') :
      Alike R (.constrain constraints) (.constrain constraints')

/-- Queries that differ in the literals of their condition at most. -/
structure Alike (R : Value → Value → Prop) (select other : Select) : Prop where
  table : select.table = other.table
  columns : select.columns = other.columns
  filter : FilterAlike R select.filter other.filter
  order : select.order = other.order
  limit : select.limit = other.limit
  offset : select.offset = other.offset

variable {select other : Select}

theorem Alike.withFilter (halike : select.Alike R other) {condition condition' : Expr}
    (hcondition : condition.Alike R condition') :
    (select.withFilter condition).Alike R (other.withFilter condition') :=
  { halike with filter := .some (.conjoin halike.filter hcondition) }

theorem Alike.addRange (halike : select.Alike R other) (order : List SortTerm)
    (limit offset : Option Nat) :
    ({ select with
        order := select.order ++ order
        limit := limit.or select.limit
        offset := offset.or select.offset } : Select).Alike R
      { other with
        order := other.order ++ order
        limit := limit.or other.limit
        offset := offset.or other.offset } :=
  { halike with
    order := congrArg (· ++ order) halike.order
    limit := congrArg limit.or halike.limit
    offset := congrArg offset.or halike.offset }

theorem Alike.constrain (halike : select.Alike R other) {constraints constraints' : Constraints}
    (hconstraints : constraints.Alike R constraints') :
    (select.constrain constraints).Alike R (other.constrain constraints') := by
  obtain ⟨filter, order, limit, offset⟩ := constraints
  obtain ⟨filter', order', limit', offset'⟩ := constraints'
  obtain ⟨hfilter, rfl, rfl, rfl⟩ := hconstraints
  cases hfilter with
  | none => exact halike.addRange order limit offset
  | some hcondition =>
      exact (halike.withFilter (.paren hcondition)).addRange order limit offset

/-- One call each keeps queries alike. -/
theorem Alike.call (halike : select.Alike R other) {call call' : Call}
    (hcall : call.Alike R call') : (select.call call).Alike R (other.call call') := by
  cases hcall with
  | columns names => exact { halike with columns := rfl }
  | filter hcondition => exact halike.withFilter hcondition
  | order term => exact { halike with order := congrArg (· ++ [term]) halike.order }
  | limit n => exact { halike with limit := rfl }
  | offset n => exact { halike with offset := rfl }
  | constrain hconstraints => exact halike.constrain hconstraints

theorem Alike.symbols (halike : select.Alike R other) :
    AreAlike R select.symbols other.symbols := by
  have hcolumns : AreAlike R
      (if other.columns.isEmpty then [.text "*"] else nameSymbols other.columns)
      (if other.columns.isEmpty then [.text "*"] else nameSymbols other.columns) := by
    split
    · exact .cons (.text "*") .nil
    · exact areAlike_self (Symbol.params_nameSymbols other.columns)
  have hrange : select.rangeSymbols = other.rangeSymbols := by
    rw [rangeSymbols, rangeSymbols, halike.order, halike.limit, halike.offset]
  rw [Select.symbols, Select.symbols, halike.table, halike.columns, hrange]
  exact .cons (.text "SELECT ") (List.rel_append hcolumns (.cons (.text " FROM ")
    (.cons (.column none other.table) (List.rel_append (filterSymbols_alike halike.filter)
      (areAlike_self other.params_rangeSymbols)))))

theorem Alike.build (halike : select.Alike R other) (dialect : Dialect) :
    (select.build dialect).Matches R (other.build dialect) := by
  rw [build_eq_written, build_eq_written]
  exact Statement.matches_written dialect halike.symbols

theorem built_alike (table : String) {calls others : List Call}
    (hcalls : List.Forall₂ (Call.Alike R) calls others) :
    (built table calls).Alike R (built table others) :=
  List.rel_foldl (fun _ _ halike _ _ hcall => halike.call hcall)
    ⟨rfl, rfl, .none, rfl, rfl, rfl⟩ hcalls

end Select

/-! ## New rows -/

namespace Insert

/-- New rows with corresponding values in the same columns. -/
structure Alike (R : Value → Value → Prop) (insert other : Insert) : Prop where
  table : insert.table = other.table
  assignments : List.Forall₂ (AssignmentAlike R) insert.assignments other.assignments

variable {insert other : Insert}

/-- One assignment each keeps new rows alike. -/
theorem Alike.value (halike : insert.Alike R other) {assignment assignment' : String × Value}
    (hassignment : AssignmentAlike R assignment assignment') :
    (insert.value assignment.1 assignment.2).Alike R
      (other.value assignment'.1 assignment'.2) := by
  rw [← hassignment.1]
  exact { halike with assignments := assign_alike halike.assignments _ hassignment.2 }

theorem Alike.symbols (halike : insert.Alike R other) (dialect : Dialect) :
    AreAlike R (insert.symbols dialect) (other.symbols dialect) := by
  have hcolumns : insert.columns = other.columns := map_fst_eq_of_alike halike.assignments
  have hempty : insert.assignments.isEmpty = other.assignments.isEmpty :=
    isEmpty_eq_of_forall₂ halike.assignments
  rw [symbols.eq_def, symbols.eq_def, halike.table, hempty, hcolumns]
  refine .cons (.text "INSERT INTO ") (.cons (.column none other.table) ?_)
  split
  · cases dialect <;> exact .cons (.text _) .nil
  · exact .cons (.text " (") (List.rel_append
      (areAlike_self (Symbol.params_nameSymbols other.columns)) (.cons (.text ") VALUES (")
        (List.rel_append (valueSymbols_alike (map_snd_alike halike.assignments))
          (.cons (.text ")") .nil))))

theorem Alike.build (halike : insert.Alike R other) (dialect : Dialect) :
    (insert.build dialect).Matches R (other.build dialect) := by
  rw [build_eq_written, build_eq_written]
  exact Statement.matches_written dialect (halike.symbols dialect)

theorem built_alike (table : String) {calls others : List (String × Value)}
    (hcalls : List.Forall₂ (AssignmentAlike R) calls others) :
    (built table calls).Alike R (built table others) :=
  List.rel_foldl (fun _ _ halike _ _ hcall => halike.value hcall) ⟨rfl, .nil⟩ hcalls

end Insert

/-! ## Changes of rows -/

namespace Update

/-- Calls that differ in values at most. -/
inductive Call.Alike (R : Value → Value → Prop) : Call → Call → Prop
  | set (column : String) {value value' : Value} (hvalue : R value value') :
      Alike R (.set column value) (.set column value')
  | filter {condition condition' : Expr} (hcondition : condition.Alike R condition') :
      Alike R (.filter condition) (.filter condition')

/-- Changes that assign corresponding values to the same columns under alike conditions. -/
structure Alike (R : Value → Value → Prop) (update other : Update) : Prop where
  table : update.table = other.table
  assignments : List.Forall₂ (AssignmentAlike R) update.assignments other.assignments
  filter : FilterAlike R update.filter other.filter

variable {update other : Update}

/-- One call each keeps changes alike. -/
theorem Alike.call (halike : update.Alike R other) {call call' : Call}
    (hcall : call.Alike R call') : (update.call call).Alike R (other.call call') := by
  cases hcall with
  | set column hvalue =>
      exact { halike with assignments := assign_alike halike.assignments column hvalue }
  | filter hcondition =>
      exact { halike with filter := .some (.conjoin halike.filter hcondition) }

theorem Alike.symbols (halike : update.Alike R other) :
    AreAlike R update.symbols other.symbols := by
  rw [Update.symbols, Update.symbols, halike.table]
  exact .cons (.text "UPDATE ") (.cons (.column none other.table) (.cons (.text " SET ")
    (List.rel_append (assignmentSymbols_alike halike.assignments)
      (filterSymbols_alike halike.filter))))

theorem Alike.build (halike : update.Alike R other) (dialect : Dialect) :
    (update.build dialect).Matches R (other.build dialect) := by
  rw [build_eq_written, build_eq_written]
  exact Statement.matches_written dialect halike.symbols

theorem built_alike (table : String) {calls others : List Call}
    (hcalls : List.Forall₂ (Call.Alike R) calls others) :
    (built table calls).Alike R (built table others) :=
  List.rel_foldl (fun _ _ halike _ _ hcall => halike.call hcall) ⟨rfl, .nil, .none⟩ hcalls

end Update

/-! ## Removals of rows -/

namespace Delete

/-- Removals under alike conditions. -/
structure Alike (R : Value → Value → Prop) (delete other : Delete) : Prop where
  table : delete.table = other.table
  filter : FilterAlike R delete.filter other.filter

variable {delete other : Delete}

/-- One condition each keeps removals alike. -/
theorem Alike.withFilter (halike : delete.Alike R other) {condition condition' : Expr}
    (hcondition : condition.Alike R condition') :
    (delete.withFilter condition).Alike R (other.withFilter condition') :=
  { halike with filter := .some (.conjoin halike.filter hcondition) }

theorem Alike.build (halike : delete.Alike R other) (dialect : Dialect) :
    (delete.build dialect).Matches R (other.build dialect) := by
  rw [build_eq_written, build_eq_written, symbols, symbols, halike.table]
  exact Statement.matches_written dialect (.cons (.text "DELETE FROM ")
    (.cons (.column none other.table) (filterSymbols_alike halike.filter)))

theorem built_alike (table : String) {conditions others : List Expr}
    (hconditions : List.Forall₂ (Expr.Alike R) conditions others) :
    (built table conditions).Alike R (built table others) :=
  List.rel_foldl (fun _ _ halike _ _ hcondition => halike.withFilter hcondition) ⟨rfl, .none⟩
    hconditions

end Delete

/-- Expressions that differ in bound values only have one text in every dialect, behind any
parameters, and so have statements that are built by calls which differ in bound values only.
What corresponds in the calls corresponds in the parameters, place by place. -/
theorem bound_values_stay_out_of_text (dialect : Dialect) (R : Value → Value → Prop) :
    (∀ (e other : Expr) (earlier earlier' : List Value) (offset : Nat), e.Alike R other →
      List.Forall₂ R earlier earlier' →
        e.text dialect (offset + earlier.length) = other.text dialect (offset + earlier'.length) ∧
          List.Forall₂ R (earlier ++ e.params) (earlier' ++ other.params)) ∧
    (∀ (table : String) (calls others : List Select.Call),
      List.Forall₂ (Select.Call.Alike R) calls others →
        ((Select.built table calls).build dialect).Matches R
          ((Select.built table others).build dialect)) ∧
    (∀ (table : String) (calls others : List (String × Value)),
      List.Forall₂ (AssignmentAlike R) calls others →
        ((Insert.built table calls).build dialect).Matches R
          ((Insert.built table others).build dialect)) ∧
    (∀ (table : String) (calls others : List Update.Call),
      List.Forall₂ (Update.Call.Alike R) calls others →
        ((Update.built table calls).build dialect).Matches R
          ((Update.built table others).build dialect)) ∧
    ∀ (table : String) (conditions others : List Expr),
      List.Forall₂ (Expr.Alike R) conditions others →
        ((Delete.built table conditions).build dialect).Matches R
          ((Delete.built table others).build dialect) := by
  have htext : ∀ (e other : Expr) (earlier earlier' : List Value) (offset : Nat),
      e.Alike R other → List.Forall₂ R earlier earlier' →
        e.text dialect (offset + earlier.length) =
          other.text dialect (offset + earlier'.length) := by
    intro e other earlier earlier' offset halike hearlier
    rw [hearlier.length_eq]
    exact halike.text_eq dialect _
  exact ⟨fun e other earlier earlier' offset halike hearlier =>
      ⟨htext e other earlier earlier' offset halike hearlier,
        List.rel_append hearlier halike.params⟩,
    fun table _ _ hcalls => (Select.built_alike table hcalls).build dialect,
    fun table _ _ hcalls => (Insert.built_alike table hcalls).build dialect,
    fun table _ _ hcalls => (Update.built_alike table hcalls).build dialect,
    fun table _ _ hconditions => (Delete.built_alike table hconditions).build dialect⟩

/-- The values are equal, or they are one that was changed and what it was changed to. -/
def Value.UpToChange (old new value other : Value) : Prop :=
  value = other ∨ value = old ∧ other = new

/-- A name is replaced by one that tries to end the statement: in a condition with a list, a
DEFAULT and a fragment, and as the value of a column that is assigned again later. -/
theorem hostile_name_stays_out_of_text :
    let ann := Value.text "Ann"
    let hostile := Value.text "'; DROP TABLE orders; --"
    let R := Value.UpToChange ann hostile
    let condition (name : Value) := (Expr.columnIs "name" name).or
      (.isIn (.named "state") [.literal .default, .literal name, .raw "now()"] true)
    (condition ann).text .postgres 2 = (condition hostile).text .postgres 2 ∧
    List.Forall₂ R [.null, ann, ann] [.null, hostile, hostile] ∧
    ((Select.built "orders" [.filter (condition ann), .limit 3]).build .mysql).Matches R
      ((Select.built "orders" [.filter (condition hostile), .limit 3]).build .mysql) ∧
    ((Insert.built "orders" [("name", ann), ("kind", .null), ("name", .default)]).build
        .sqlite).Matches R
      ((Insert.built "orders" [("name", hostile), ("kind", .null), ("name", .default)]).build
        .sqlite) ∧
    ((Update.built "orders" [.set "name" ann, .filter (condition ann), .set "name" .null]).build
        .postgres).Matches R
      ((Update.built "orders" [.set "name" hostile, .filter (condition hostile),
        .set "name" .null]).build .postgres) ∧
    ((Delete.built "orders" [condition ann]).build .mysql).Matches R
      ((Delete.built "orders" [condition hostile]).build .mysql) := by
  intro ann hostile R condition
  have hchanged : R ann hostile := .inr ⟨rfl, rfl⟩
  have hkept : ∀ value, R value value := fun value => .inl rfl
  have hname : (Expr.literal ann).Alike R (.literal hostile) := .literal rfl rfl hchanged
  have hcondition : (condition ann).Alike R (condition hostile) :=
    .binary .or (.binary .eq (.column none "name") hname)
      (.isIn true (.column none "state") (.cons .default (.cons hname (.cons (.raw "now()") .nil))))
  have hexpression := (bound_values_stay_out_of_text .postgres R).1 (condition ann)
    (condition hostile) [.null] [.null] 1 hcondition (.cons (hkept .null) .nil)
  refine ⟨hexpression.1, hexpression.2, ?_, ?_, ?_, ?_⟩
  · exact (bound_values_stay_out_of_text .mysql R).2.1 "orders" _ _
      (.cons (.filter hcondition) (.cons (.limit 3) .nil))
  · exact (bound_values_stay_out_of_text .sqlite R).2.2.1 "orders" _ _
      (.cons ⟨rfl, hchanged⟩ (.cons ⟨rfl, hkept .null⟩ (.cons ⟨rfl, hkept .default⟩ .nil)))
  · exact (bound_values_stay_out_of_text .postgres R).2.2.2.1 "orders" _ _
      (.cons (.set "name" hchanged) (.cons (.filter hcondition)
        (.cons (.set "name" (hkept .null)) .nil)))
  · exact (bound_values_stay_out_of_text .mysql R).2.2.2.2 "orders" _ _ (.cons hcondition .nil)

end AggregateSync
