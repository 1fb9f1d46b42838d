import AggregateSync.Proofs.Sql.Quoting
import AggregateSync.Proofs.Sql.Symbols

/-!
# Placeholders and parameters

A database that reads a statement takes the first parameter for the first place, and so on.  A
place is found by its sign, which stands nowhere else outside of quoted names: no word of a
statement has one, and behind a place comes a character that is not taken for one of its digits.
So a text written from symbols has as many places as there are parameters, numbered from one.
-/

namespace AggregateSync

/-! ## Reading places -/

/-- The places that stand in a text outside of quoted names, read from inside or outside of a
name.  A doubled quote ends a name and begins it again. -/
def Dialect.placesIn (dialect : Dialect) : Bool → List Char → List String
  | _, [] => []
  | true, c :: rest => placesIn dialect (decide (c ≠ dialect.quoteMark)) rest
  | false, c :: rest =>
    if c = dialect.quoteMark then placesIn dialect true rest
    else if c = dialect.placeSign then
      String.ofList (c :: rest.takeWhile Char.isDigit) :: placesIn dialect false rest
    else placesIn dialect false rest

/-- The places of a statement, as a database of the dialect finds them. -/
def Statement.placesIn (dialect : Dialect) (statement : Statement) : List String :=
  dialect.placesIn false statement.sql.toList

/-- Neither a quote nor the sign of a place, in any dialect. -/
def isInertChar (c : Char) : Bool := decide (c ≠ '"' ∧ c ≠ '\x60' ∧ c ≠ '$' ∧ c ≠ '?')

/-- Text without quotes and places. -/
def isInert (s : String) : Bool := s.toList.all isInertChar

/-- A character with which a word can go on behind a name or a place. -/
def isBreak (c : Char) : Bool := decide (c = ' ' ∨ c = ',' ∨ c = ')')

/-- The words that stand behind an operand. -/
def Word.isJoint : Word → Bool
  | operator _ | isIn _ | isNull _ | closing | comma => true
  | not | opening | default | constant _ => false

namespace Symbol

/-- Does the text begin so that a name or a place before it is told from it? -/
def startApart : List Symbol → Bool
  | [] => true
  | word w :: _ => w.isJoint
  | text s :: _ => s.toList.head?.any isBreak
  | _ => false

/-- Can names and places be found in the text of the symbols? -/
def areLegible : List Symbol → Bool
  | [] => true
  | column _ _ :: rest => startApart rest && areLegible rest
  | bound _ :: rest => startApart rest && areLegible rest
  | word _ :: rest => areLegible rest
  | text s :: rest => isInert s && areLegible rest

theorem startApart_append {symbols others : List Symbol} (hsymbols : startApart symbols = true)
    (hothers : startApart others = true) : startApart (symbols ++ others) = true := by
  cases symbols with
  | nil => exact hothers
  | cons symbol rest => cases symbol <;> exact hsymbols

theorem areLegible_tail {symbol : Symbol} {rest : List Symbol}
    (hlegible : areLegible (symbol :: rest) = true) : areLegible rest = true := by
  cases symbol with
  | word w => exact hlegible
  | _ => exact (Bool.and_eq_true _ _ ▸ hlegible).2

theorem areLegible_append {symbols others : List Symbol} (hsymbols : areLegible symbols = true)
    (hothers : areLegible others = true) (hapart : startApart others = true) :
    areLegible (symbols ++ others) = true := by
  induction symbols with
  | nil => exact hothers
  | cons symbol rest ih =>
      cases symbol with
      | column table name =>
          rw [areLegible, Bool.and_eq_true] at hsymbols
          rw [List.cons_append, areLegible, startApart_append hsymbols.1 hapart, ih hsymbols.2]
          rfl
      | bound value =>
          rw [areLegible, Bool.and_eq_true] at hsymbols
          rw [List.cons_append, areLegible, startApart_append hsymbols.1 hapart, ih hsymbols.2]
          rfl
      | word w => exact ih hsymbols
      | text s =>
          rw [areLegible, Bool.and_eq_true] at hsymbols
          rw [List.cons_append, areLegible, hsymbols.1, ih hsymbols.2]
          rfl

theorem areLegible_listed {α : Type} {run : α → List Symbol}
    (hrun : ∀ a, areLegible (run a) = true) (items : List α) :
    areLegible (listed (items.map run)) = true := by
  induction items with
  | nil => rfl
  | cons a rest ih =>
      cases rest with
      | nil => exact hrun a
      | cons b rest => exact areLegible_append (hrun a) ih rfl

end Symbol

section Text

variable {dialect : Dialect}

theorem Word.isInert_text (w : Word) : isInert w.text = true := by
  cases w with
  | operator op => cases op <;> decide
  | isIn negated => cases negated <;> decide
  | isNull negated => cases negated <;> decide
  | constant truth => cases truth <;> decide
  | _ => decide

theorem Word.isBreak_head {w : Word} (hjoint : w.isJoint = true) :
    w.text.toList.head?.any isBreak = true := by
  cases w with
  | operator op => cases op <;> decide
  | isIn negated => cases negated <;> decide
  | isNull negated => cases negated <;> decide
  | closing => decide
  | comma => decide
  | _ => cases hjoint

/-- Text without quotes and signs has no places. -/
theorem placesIn_inert {text : List Char} (htext : text.all isInertChar = true)
    (rest : List Char) : dialect.placesIn false (text ++ rest) = dialect.placesIn false rest := by
  induction text with
  | nil => rfl
  | cons c text ih =>
      rw [List.all_cons, Bool.and_eq_true, isInertChar, decide_eq_true_iff] at htext
      obtain ⟨⟨hdouble, hback, hdollar, hquestion⟩, htext⟩ := htext
      have hmark : c ≠ dialect.quoteMark := by
        rcases dialect.quoteMark_cases with hquote | hquote <;> rwa [hquote]
      have hsign : c ≠ dialect.placeSign := by
        rcases dialect.placeSign_cases with hplace | hplace <;> rwa [hplace]
      rw [List.cons_append, Dialect.placesIn, if_neg hmark, if_neg hsign, ih htext]

theorem placesIn_escapeName (name rest : List Char) :
    dialect.placesIn true (Dialect.escapeName dialect.quoteMark name ++ rest) =
      dialect.placesIn true rest := by
  induction name with
  | nil => rfl
  | cons c name ih =>
      by_cases hmark : c = dialect.quoteMark
      · subst hmark
        simpa [Dialect.escapeName_cons_self, Dialect.placesIn] using ih
      · simpa [Dialect.escapeName_cons_of_ne hmark, Dialect.placesIn, hmark] using ih

/-- What stands in quotes is no place. -/
theorem placesIn_quoteName (name : String) (rest : List Char) :
    dialect.placesIn false ((dialect.quoteName name).toList ++ rest) =
      dialect.placesIn false rest := by
  rw [Dialect.toList_quoteName, List.cons_append, List.append_assoc, Dialect.placesIn, if_pos rfl,
    placesIn_escapeName]
  simp [Dialect.placesIn]

theorem placesIn_digits {digits : List Char} (hdigits : ∀ c ∈ digits, c.isDigit = true)
    (rest : List Char) :
    dialect.placesIn false (digits ++ rest) = dialect.placesIn false rest := by
  apply placesIn_inert
  rw [List.all_eq_true]
  intro c hc
  have hdigit := hdigits c hc
  rw [isInertChar, decide_eq_true_iff]
  refine ⟨?_, ?_, ?_, ?_⟩ <;> rintro rfl <;> revert hdigit <;> decide

/-- A place is found with its number. -/
theorem placesIn_placeholder (number : Nat) {rest : List Char}
    (hrest : ∀ c ∈ rest.head?, c.isDigit = false) :
    dialect.placesIn false ((dialect.placeholder number).toList ++ rest) =
      dialect.placeholder number :: dialect.placesIn false rest := by
  have hmark : dialect.placeSign ≠ dialect.quoteMark := by cases dialect <;> decide
  rw [Dialect.toList_placeholder, List.cons_append, Dialect.placesIn, if_neg hmark, if_pos rfl,
    Dialect.takeWhile_placeDigits number hrest, ← Dialect.toList_placeholder,
    String.ofList_toList, placesIn_digits fun c => Dialect.isDigit_of_mem_placeDigits]

/-- What begins apart begins with neither a quote nor a digit. -/
theorem head?_text_of_startApart {symbols : List Symbol}
    (hapart : Symbol.startApart symbols = true) (next : Nat) :
    ∀ c ∈ (dialect.piecesText (Symbol.piecesFrom next symbols)).toList.head?,
      isBreak c = true := by
  have hstart : ∀ {s : String} {left : List Char}, s.toList.head?.any isBreak = true →
      ∀ c ∈ (s.toList ++ left).head?, isBreak c = true := by
    intro s left hbreak c hc
    obtain ⟨first, hfirst, hfirstBreak⟩ := Option.any_eq_true _ _ |>.1 hbreak
    rw [List.head?_append, hfirst] at hc
    obtain rfl : first = c := Option.some.inj hc
    exact hfirstBreak
  cases symbols with
  | nil =>
      intro c hc
      cases hc
  | cons symbol rest =>
      cases symbol with
      | word w =>
          rw [Symbol.piecesFrom, Symbol.pieces, List.singleton_append, Dialect.piecesText_cons]
          exact hstart (Word.isBreak_head hapart)
      | text s =>
          rw [Symbol.piecesFrom, Symbol.pieces, List.singleton_append, Dialect.piecesText_cons]
          exact hstart hapart
      | column table name => cases hapart
      | bound value => cases hapart

theorem not_isDigit_of_isBreak {c : Char} (hbreak : isBreak c = true) : c.isDigit = false := by
  rw [isBreak, decide_eq_true_iff] at hbreak
  rcases hbreak with rfl | rfl | rfl <;> decide

theorem ne_quoteMark_of_isBreak {c : Char} (hbreak : isBreak c = true) : c ≠ dialect.quoteMark := by
  rw [isBreak, decide_eq_true_iff] at hbreak
  rcases dialect.quoteMark_cases with hquote | hquote <;> rw [hquote] <;>
    rcases hbreak with rfl | rfl | rfl <;> decide

/-- The places of a symbol are those of the values that it binds. -/
theorem placesIn_pieces (symbol : Symbol) (next : Nat) {rest : List Symbol}
    (hlegible : Symbol.areLegible (symbol :: rest) = true) (after : Nat) :
    dialect.placesIn false ((dialect.piecesText (symbol.pieces next)).toList ++
        (dialect.piecesText (Symbol.piecesFrom after rest)).toList) =
      (List.range' next symbol.values.length).map dialect.placeholder ++
        dialect.placesIn false (dialect.piecesText (Symbol.piecesFrom after rest)).toList := by
  cases symbol with
  | column table name =>
      cases table with
      | none =>
          rw [Symbol.pieces, Dialect.piecesText_singleton]
          exact placesIn_quoteName name _
      | some table =>
          rw [Symbol.pieces, Dialect.piecesText_cons, Dialect.piecesText_cons,
            Dialect.piecesText_singleton, List.append_assoc, List.append_assoc]
          refine (placesIn_quoteName table _).trans ?_
          have hdot : ".".toList.all isInertChar = true := by decide
          refine (placesIn_inert hdot _).trans ?_
          exact placesIn_quoteName name _
  | word w =>
      rw [Symbol.pieces, Dialect.piecesText_singleton]
      exact placesIn_inert w.isInert_text _
  | bound value =>
      rw [Symbol.areLegible, Bool.and_eq_true] at hlegible
      rw [Symbol.pieces, Dialect.piecesText_singleton]
      apply placesIn_placeholder
      exact fun c hc => not_isDigit_of_isBreak (head?_text_of_startApart hlegible.1 after c hc)
  | text s =>
      rw [Symbol.areLegible, Bool.and_eq_true] at hlegible
      rw [Symbol.pieces, Dialect.piecesText_singleton]
      exact placesIn_inert hlegible.1 _

/-- In the text of legible symbols the places are found that were numbered, in their order. -/
theorem placesIn_piecesFrom {symbols : List Symbol} (hsymbols : Symbol.areLegible symbols = true)
    (next : Nat) :
    dialect.placesIn false (dialect.piecesText (Symbol.piecesFrom next symbols)).toList =
      (List.range' next (Symbol.params symbols).length).map dialect.placeholder := by
  induction symbols generalizing next with
  | nil => rfl
  | cons symbol rest ih =>
      rw [Symbol.piecesFrom, Dialect.piecesText_append, placesIn_pieces symbol next hsymbols,
        ih (Symbol.areLegible_tail hsymbols), Symbol.params_cons, List.length_append,
        List.range'_append_1.symm, List.map_append]

end Text

/-! ## What is written can be read -/

mutual

/-- The symbols of an expression without fragments can be read. -/
theorem Expr.areLegible_symbols (e : Expr) (hraw : e.isRawFree = true) :
    Symbol.areLegible e.symbols = true := by
  cases e with
  | column table name => rfl
  | literal value =>
      rw [symbols]
      split <;> rfl
  | binary left op right =>
      rw [isRawFree, Bool.and_eq_true] at hraw
      exact Symbol.areLegible_append (areLegible_symbols left hraw.1)
        (areLegible_symbols right hraw.2) rfl
  | not operand => exact areLegible_symbols operand hraw
  | isIn operand items negated =>
      rw [isRawFree, Bool.and_eq_true] at hraw
      cases items with
      | nil => rfl
      | cons item rest =>
          rw [areRawFree, Bool.and_eq_true] at hraw
          have hrest : Symbol.areLegible (symbolsOfItems rest ++ [.word .closing]) = true :=
            Symbol.areLegible_append (areLegible_symbolsOfItems rest hraw.2.2) rfl rfl
          have hitems : Symbol.areLegible
              (symbols item ++ (symbolsOfItems rest ++ [.word .closing])) = true :=
            Symbol.areLegible_append (areLegible_symbols item hraw.2.1) hrest
              (Symbol.startApart_append (startApart_symbolsOfItems rest) rfl)
          exact Symbol.areLegible_append (areLegible_symbols operand hraw.1) hitems rfl
  | isNull operand negated =>
      exact Symbol.areLegible_append (areLegible_symbols operand hraw) rfl rfl
  | paren inner =>
      exact Symbol.areLegible_append (areLegible_symbols inner hraw) rfl rfl
  | raw sql => cases hraw

theorem Expr.areLegible_symbolsOfItems (items : List Expr) (hraw : areRawFree items = true) :
    Symbol.areLegible (symbolsOfItems items) = true := by
  cases items with
  | nil => rfl
  | cons item rest =>
      rw [areRawFree, Bool.and_eq_true] at hraw
      exact Symbol.areLegible_append (areLegible_symbols item hraw.1)
        (areLegible_symbolsOfItems rest hraw.2) (startApart_symbolsOfItems rest)

theorem Expr.startApart_symbolsOfItems (items : List Expr) :
    Symbol.startApart (symbolsOfItems items) = true := by
  cases items <;> rfl

end

/-- The condition of a statement has no fragments. -/
def isFilterRawFree (filter : Option Expr) : Bool := filter.all Expr.isRawFree

theorem areLegible_filterSymbols {filter : Option Expr} (hraw : isFilterRawFree filter = true) :
    Symbol.areLegible (filterSymbols filter) = true := by
  cases filter with
  | none => rfl
  | some condition =>
      have hwhere : isInert " WHERE " = true := by decide
      rw [filterSymbols, Symbol.areLegible, hwhere, condition.areLegible_symbols hraw]
      rfl

theorem startApart_filterSymbols (filter : Option Expr) :
    Symbol.startApart (filterSymbols filter) = true := by
  cases filter <;> rfl

theorem areLegible_nameSymbols (names : List String) :
    Symbol.areLegible (nameSymbols names) = true :=
  Symbol.areLegible_listed (fun _ => rfl) names

theorem areLegible_valueSymbols (values : List Value) :
    Symbol.areLegible (valueSymbols values) = true :=
  Symbol.areLegible_listed (fun _ => rfl) values

theorem areLegible_assignmentSymbols (assignments : List (String × Value)) :
    Symbol.areLegible (assignmentSymbols assignments) = true :=
  Symbol.areLegible_listed (fun _ => rfl) assignments

theorem areLegible_sortTerm (term : SortTerm) : Symbol.areLegible term.symbols = true := by
  have hdirection : ∀ descending nulls,
      Symbol.areLegible (SortTerm.symbols ⟨"", descending, nulls⟩) = true := by
    intro descending nulls
    cases descending <;> rcases nulls with _ | _ | _ <;> decide
  exact hdirection term.descending term.nulls

/-- A number behind a word. -/
theorem isInert_append_toString {s : String} (hs : isInert s = true) (n : Nat) :
    isInert (s ++ toString n) = true := by
  rw [isInert, String.toList_append, List.all_append, Bool.and_eq_true]
  refine ⟨hs, List.all_eq_true.2 fun c hc => ?_⟩
  have hdigit := Dialect.isDigit_of_mem_toString hc
  rw [isInertChar, decide_eq_true_iff]
  refine ⟨?_, ?_, ?_, ?_⟩ <;> rintro rfl <;> revert hdigit <;> decide

section Statements

theorem Select.areLegible_rangeSymbols (select : Select) :
    Symbol.areLegible select.rangeSymbols = true ∧
      Symbol.startApart select.rangeSymbols = true := by
  have horder : Symbol.areLegible (if select.order.isEmpty then []
      else .text " ORDER BY " :: Symbol.listed (select.order.map SortTerm.symbols)) = true ∧
        Symbol.startApart (if select.order.isEmpty then []
          else .text " ORDER BY " :: Symbol.listed (select.order.map SortTerm.symbols)) =
            true := by
    split
    · exact ⟨rfl, rfl⟩
    · exact ⟨Symbol.areLegible_listed areLegible_sortTerm select.order, rfl⟩
  have hnumber : ∀ (s : String) (number : Option Nat), isInert s = true →
      s.toList.head?.any isBreak = true →
      Symbol.areLegible (number.toList.map fun n => .text (s ++ toString n)) = true ∧
      Symbol.startApart (number.toList.map fun n => .text (s ++ toString n)) = true := by
    intro s number hinert hbreak
    cases number with
    | none => exact ⟨rfl, rfl⟩
    | some n =>
        rw [Option.toList_some, List.map_singleton]
        constructor
        · rw [Symbol.areLegible, isInert_append_toString hinert]
          rfl
        · rw [Symbol.startApart, String.toList_append, List.head?_append]
          obtain ⟨first, hfirst, hfirstBreak⟩ := Option.any_eq_true _ _ |>.1 hbreak
          rw [hfirst]
          exact hfirstBreak
  have hlimit := hnumber " LIMIT " select.limit (by decide) (by decide)
  have hoffset := hnumber " OFFSET " select.offset (by decide) (by decide)
  constructor
  · exact Symbol.areLegible_append (Symbol.areLegible_append horder.1 hlimit.1 hlimit.2)
      hoffset.1 hoffset.2
  · exact Symbol.startApart_append (Symbol.startApart_append horder.2 hlimit.2) hoffset.2

theorem Select.areLegible_symbols {select : Select}
    (hraw : isFilterRawFree select.filter = true) :
    Symbol.areLegible select.symbols = true := by
  obtain ⟨hrange, hrangeApart⟩ := select.areLegible_rangeSymbols
  have hend : Symbol.areLegible (filterSymbols select.filter ++ select.rangeSymbols) = true :=
    Symbol.areLegible_append (areLegible_filterSymbols hraw) hrange hrangeApart
  have hapart : Symbol.startApart (filterSymbols select.filter ++ select.rangeSymbols) = true :=
    Symbol.startApart_append (startApart_filterSymbols select.filter) hrangeApart
  have hcolumns : Symbol.areLegible
      (if select.columns.isEmpty then [.text "*"] else nameSymbols select.columns) = true := by
    split
    · rfl
    · exact areLegible_nameSymbols select.columns
  have htable : Symbol.areLegible (.text " FROM " :: .column none select.table ::
      (filterSymbols select.filter ++ select.rangeSymbols)) = true := by
    have hfrom : isInert " FROM " = true := by decide
    rw [Symbol.areLegible, Symbol.areLegible, hfrom, hapart, hend]
    rfl
  have hselect : isInert "SELECT " = true := by decide
  rw [symbols, Symbol.areLegible, hselect, Symbol.areLegible_append hcolumns htable rfl]
  rfl

theorem Insert.areLegible_symbols (insert : Insert) (dialect : Dialect) :
    Symbol.areLegible (insert.symbols dialect) = true := by
  rw [symbols.eq_def]
  split
  · cases dialect <;> rfl
  · have hend : Symbol.areLegible (.text ") VALUES (" ::
        (valueSymbols (insert.assignments.map Prod.snd) ++ [.text ")"])) = true :=
      Symbol.areLegible_append (areLegible_valueSymbols _) rfl rfl
    exact Symbol.areLegible_append (areLegible_nameSymbols insert.columns) hend rfl

theorem Update.areLegible_symbols {update : Update}
    (hraw : isFilterRawFree update.filter = true) :
    Symbol.areLegible update.symbols = true :=
  Symbol.areLegible_append (areLegible_assignmentSymbols update.assignments)
    (areLegible_filterSymbols hraw) (startApart_filterSymbols update.filter)

theorem Delete.areLegible_symbols {delete : Delete}
    (hraw : isFilterRawFree delete.filter = true) :
    Symbol.areLegible delete.symbols = true := by
  have hapart := startApart_filterSymbols delete.filter
  have hdelete : isInert "DELETE FROM " = true := by decide
  rw [symbols, Symbol.areLegible, Symbol.areLegible, hdelete, hapart,
    areLegible_filterSymbols hraw]
  rfl

/-- The places of a statement are numbered from one, and there is one for each parameter. -/
def Statement.IsAligned (dialect : Dialect) (statement : Statement) : Prop :=
  statement.placesIn dialect =
    (List.range' 1 statement.params.length).map dialect.placeholder

theorem Statement.isAligned_written (dialect : Dialect) {symbols : List Symbol}
    (hsymbols : Symbol.areLegible symbols = true) :
    (Statement.written dialect symbols).IsAligned dialect :=
  placesIn_piecesFrom hsymbols 1

/-- The literals of the condition of a statement that are bound, from left to right. -/
def boundLiterals (filter : Option Expr) : List Value :=
  (filter.elim [] Expr.literals).filter Value.isBound

theorem filterParams_eq_boundLiterals (filter : Option Expr) :
    filterParams filter = boundLiterals filter := by
  cases filter with
  | none => rfl
  | some condition => exact condition.params_eq_filter

theorem Select.isAligned_build (select : Select) (dialect : Dialect)
    (hraw : isFilterRawFree select.filter = true) :
    (select.build dialect).IsAligned dialect := by
  rw [select.build_eq_written]
  exact Statement.isAligned_written dialect (Select.areLegible_symbols hraw)

theorem Insert.isAligned_build (insert : Insert) (dialect : Dialect) :
    (insert.build dialect).IsAligned dialect := by
  rw [insert.build_eq_written]
  exact Statement.isAligned_written dialect (insert.areLegible_symbols dialect)

theorem Update.isAligned_build (update : Update) (dialect : Dialect)
    (hraw : isFilterRawFree update.filter = true) :
    (update.build dialect).IsAligned dialect := by
  rw [update.build_eq_written]
  exact Statement.isAligned_written dialect (Update.areLegible_symbols hraw)

theorem Delete.isAligned_build (delete : Delete) (dialect : Dialect)
    (hraw : isFilterRawFree delete.filter = true) :
    (delete.build dialect).IsAligned dialect := by
  rw [delete.build_eq_written]
  exact Statement.isAligned_written dialect (Delete.areLegible_symbols hraw)

end Statements

/-- An expression that is written after other parameters binds its literals from left to right,
DEFAULT aside, and its places are numbered on in the same order; so are those that are found in
its text.  A statement has one place for each parameter, numbered from one, and its parameters
are the values that it assigns, in the order of the columns, and then the literals of its
condition. -/
theorem placeholders_match_params (dialect : Dialect) :
    (∀ (e : Expr) (earlier : List Value) (offset : Nat),
      let first := offset + earlier.length + 1
      e.params = e.literals.filter Value.isBound ∧
      Piece.places (e.pieces first) = List.range' first e.params.length ∧
      (e.isRawFree = true →
        dialect.placesIn false (e.text dialect (offset + earlier.length)).toList =
          (List.range' first e.params.length).map dialect.placeholder)) ∧
    (∀ select : Select, isFilterRawFree select.filter = true →
      (select.build dialect).IsAligned dialect ∧
        (select.build dialect).params = boundLiterals select.filter) ∧
    (∀ insert : Insert, (insert.build dialect).IsAligned dialect ∧
      (insert.build dialect).params = insert.assignments.map Prod.snd) ∧
    (∀ update : Update, isFilterRawFree update.filter = true →
      (update.build dialect).IsAligned dialect ∧
        (update.build dialect).params =
          update.assignments.map Prod.snd ++ boundLiterals update.filter) ∧
    ∀ delete : Delete, isFilterRawFree delete.filter = true →
      (delete.build dialect).IsAligned dialect ∧
        (delete.build dialect).params = boundLiterals delete.filter := by
  have hplaces : ∀ (e : Expr) (first : Nat),
      Piece.places (e.pieces first) = List.range' first e.params.length := by
    intro e first
    rw [← e.piecesFrom_symbols, Symbol.places_piecesFrom, e.params_symbols]
  have htext : ∀ (e : Expr) (earlier : Nat), e.isRawFree = true →
      dialect.placesIn false (e.text dialect earlier).toList =
        (List.range' (earlier + 1) e.params.length).map dialect.placeholder := by
    intro e earlier hraw
    rw [Expr.text, ← e.piecesFrom_symbols, placesIn_piecesFrom (e.areLegible_symbols hraw),
      e.params_symbols]
  exact ⟨fun e earlier offset => ⟨e.params_eq_filter, hplaces e _, htext e _⟩,
    fun select hraw => ⟨select.isAligned_build dialect hraw,
      filterParams_eq_boundLiterals select.filter⟩,
    fun insert => ⟨insert.isAligned_build dialect, rfl⟩,
    fun update hraw => ⟨update.isAligned_build dialect hraw,
      congrArg _ (filterParams_eq_boundLiterals update.filter)⟩,
    fun delete hraw => ⟨delete.isAligned_build dialect hraw,
      filterParams_eq_boundLiterals delete.filter⟩⟩

/-- A condition with a test against an empty list, at the end of a change of two columns, and
the same condition behind two other parameters, in a query and in a removal. -/
theorem placeholders_match_params_of_update :
    let condition := (Expr.columnIs "a?" (.text "x")).and
      ((Expr.isIn (.literal (.bool true)) [] false).or
        (.isIn (.named "b$1") [.literal .default, .literal .null] true))
    let update := (((Update.ofTable "t").set "c" (.text "y")).set "d" .null).withFilter condition
    let select := (Select.ofTable "t").withFilter condition
    let delete := (Delete.fromTable "t").withFilter condition
    condition.isRawFree = true ∧
      Dialect.placesIn .postgres false (condition.text .postgres 2).toList = ["$3", "$4"] ∧
      (update.build .postgres).placesIn .postgres = ["$1", "$2", "$3", "$4"] ∧
      (update.build .postgres).params = [.text "y", .null, .text "x", .null] ∧
      (select.build .mysql).placesIn .mysql = ["?", "?"] ∧
      (delete.build .sqlite).placesIn .sqlite = ["?1", "?2"] := by
  intro condition update select delete
  have hraw : condition.isRawFree = true := by decide
  have hexpression := (placeholders_match_params .postgres).1 condition [.null] 1
  have hupdate := (placeholders_match_params .postgres).2.2.2.1 update hraw
  have hselect := (placeholders_match_params .mysql).2.1 select hraw
  have hdelete := (placeholders_match_params .sqlite).2.2.2.2 delete hraw
  refine ⟨hraw, (hexpression.2.2 hraw).trans rfl, hupdate.1.trans ?_, hupdate.2.trans rfl,
    hselect.1.trans ?_, hdelete.1.trans ?_⟩ <;> rfl

end AggregateSync
