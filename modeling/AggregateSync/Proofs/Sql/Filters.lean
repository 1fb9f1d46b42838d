import AggregateSync.Proofs.Sql.Placeholders
import AggregateSync.Proofs.Sql.Precedence

/-!
# What filters mean

The text of a condition without fragments can be cut into its symbols again, and the parameters
give the values back that its places stand for.  So conditions of the same text and parameters
have the same symbols, and since the symbols of a grouped condition are read as its value, they
mean the same.  Conditions that are given one after the other are grouped as long as none of them
is an OR: only brackets keep it together, and `constrain` alone writes them.
-/

namespace AggregateSync

/-! ## Telling symbols apart -/

section Lexing

variable {dialect : Dialect}

/-- The word that a text begins with. -/
def readWord : List Char → Option Word
  | ' ' :: '=' :: _ => some (.operator .eq)
  | ' ' :: '<' :: '>' :: _ => some (.operator .ne)
  | ' ' :: '<' :: '=' :: _ => some (.operator .le)
  | ' ' :: '<' :: _ => some (.operator .lt)
  | ' ' :: '>' :: '=' :: _ => some (.operator .ge)
  | ' ' :: '>' :: _ => some (.operator .gt)
  | ' ' :: 'A' :: _ => some (.operator .and)
  | ' ' :: 'O' :: _ => some (.operator .or)
  | ' ' :: 'N' :: _ => some (.isIn true)
  | ' ' :: 'I' :: 'N' :: _ => some (.isIn false)
  | ' ' :: 'I' :: 'S' :: ' ' :: 'N' :: 'O' :: _ => some (.isNull true)
  | ' ' :: 'I' :: 'S' :: _ => some (.isNull false)
  | 'N' :: _ => some .not
  | '(' :: _ => some .opening
  | ')' :: _ => some .closing
  | ',' :: _ => some .comma
  | 'D' :: _ => some .default
  | '1' :: ' ' :: '=' :: ' ' :: '1' :: _ => some (.constant true)
  | '1' :: ' ' :: '=' :: ' ' :: '0' :: _ => some (.constant false)
  | _ => none

/-- A word is read whatever follows, so none begins another. -/
theorem readWord_text (w : Word) (rest : List Char) :
    readWord (w.text.toList ++ rest) = some w := by
  cases w with
  | operator op => cases op <;> rfl
  | isIn negated => cases negated <;> rfl
  | isNull negated => cases negated <;> rfl
  | constant truth => cases truth <;> rfl
  | _ => rfl

theorem readWord_quoteName (name : String) (rest : List Char) :
    readWord ((dialect.quoteName name).toList ++ rest) = none := by
  rw [Dialect.toList_quoteName]
  rcases dialect.quoteMark_cases with hquote | hquote <;> rw [hquote] <;> rfl

theorem readWord_placeholder (number : Nat) (rest : List Char) :
    readWord ((dialect.placeholder number).toList ++ rest) = none := by
  rw [Dialect.toList_placeholder]
  rcases dialect.placeSign_cases with hplace | hplace <;> rw [hplace] <;> rfl

theorem word_append_inj {w other : Word} {rest left : List Char}
    (hsame : w.text.toList ++ rest = other.text.toList ++ left) : w = other ∧ rest = left := by
  have hword : w = other := by
    rw [← Option.some_inj, ← readWord_text w rest, hsame, readWord_text]
  subst hword
  exact ⟨rfl, List.append_cancel_left hsame⟩

theorem column_text_none (name : String) (next : Nat) :
    (dialect.piecesText ((Symbol.column none name).pieces next)).toList =
      (dialect.quoteName name).toList := Dialect.piecesText_singleton _

theorem column_text_some (table name : String) (next : Nat) :
    (dialect.piecesText ((Symbol.column (some table) name).pieces next)).toList =
      (dialect.quoteName table).toList ++ '.' :: (dialect.quoteName name).toList := by
  have hdot : ".".toList = ['.'] := by decide
  rw [Symbol.pieces, Dialect.piecesText_cons, Dialect.piecesText_cons,
    Dialect.piecesText_singleton, Dialect.pieceText, Dialect.pieceText, hdot]
  rfl

/-- Behind a name comes neither a quote nor a dot. -/
theorem column_append_inj {table other : Option String} {name named : String} {next after : Nat}
    {rest left : List Char} (hrest : ∀ c ∈ rest.head?, isBreak c = true)
    (hleft : ∀ c ∈ left.head?, isBreak c = true)
    (hsame : (dialect.piecesText ((Symbol.column table name).pieces next)).toList ++ rest =
      (dialect.piecesText ((Symbol.column other named).pieces after)).toList ++ left) :
    Symbol.column table name = .column other named ∧ rest = left := by
  have hquote : ∀ {tail : List Char}, (∀ c ∈ tail.head?, isBreak c = true) →
      ∀ c ∈ tail.head?, c ≠ dialect.quoteMark :=
    fun hbreak c hc => ne_quoteMark_of_isBreak (hbreak c hc)
  have hdot : ∀ (tail : List Char), ∀ c ∈ ('.' :: tail).head?, c ≠ dialect.quoteMark := by
    intro tail c hc
    obtain rfl : '.' = c := Option.some.inj hc
    rcases dialect.quoteMark_cases with hmark | hmark <;> rw [hmark] <;> decide
  cases table with
  | none =>
      rw [column_text_none] at hsame
      cases other with
      | none =>
          rw [column_text_none] at hsame
          obtain ⟨rfl, htail⟩ := Dialect.quoteName_append_inj (hquote hrest) (hquote hleft) hsame
          exact ⟨rfl, htail⟩
      | some other =>
          rw [column_text_some, List.append_assoc] at hsame
          obtain ⟨_, rfl⟩ := Dialect.quoteName_append_inj (hquote hrest) (hdot _) hsame
          exact absurd (hrest '.' rfl) (by decide)
  | some table =>
      rw [column_text_some, List.append_assoc] at hsame
      cases other with
      | none =>
          rw [column_text_none] at hsame
          obtain ⟨_, rfl⟩ := Dialect.quoteName_append_inj (hdot _) (hquote hleft) hsame
          exact absurd (hleft '.' rfl) (by decide)
      | some other =>
          rw [column_text_some, List.append_assoc] at hsame
          obtain ⟨rfl, htail⟩ := Dialect.quoteName_append_inj (hdot _) (hdot _) hsame
          obtain ⟨rfl, hend⟩ := Dialect.quoteName_append_inj (hquote hrest) (hquote hleft)
            (List.cons.inj htail).2
          exact ⟨rfl, hend⟩

/-- The word that a symbol is. -/
def Symbol.word? : Symbol → Option Word
  | word w => some w
  | _ => none

/-- The text of symbols, their places numbered from `next` on. -/
def Dialect.symbolsText (dialect : Dialect) (next : Nat) (symbols : List Symbol) : List Char :=
  (dialect.piecesText (Symbol.piecesFrom next symbols)).toList

theorem symbolsText_cons (symbol : Symbol) (rest : List Symbol) (next : Nat) :
    dialect.symbolsText next (symbol :: rest) =
      (dialect.piecesText (symbol.pieces next)).toList ++
        dialect.symbolsText (next + symbol.values.length) rest :=
  Dialect.piecesText_append _ _

theorem symbolsText_word (w : Word) (rest : List Symbol) (next : Nat) :
    dialect.symbolsText next (.word w :: rest) =
      w.text.toList ++ dialect.symbolsText next rest := by
  rw [symbolsText_cons, Symbol.pieces, Dialect.piecesText_singleton]
  rfl

theorem symbolsText_bound (value : Value) (rest : List Symbol) (next : Nat) :
    dialect.symbolsText next (.bound value :: rest) =
      (dialect.placeholder next).toList ++ dialect.symbolsText (next + 1) rest := by
  rw [symbolsText_cons, Symbol.pieces, Dialect.piecesText_singleton]
  rfl

/-- A column begins with the first quote of a name. -/
theorem Dialect.symbolsText_column (dialect : Dialect) (table : Option String) (name : String)
    (rest : List Symbol) (next : Nat) : ∃ (first : String) (left : List Char),
      dialect.symbolsText next (.column table name :: rest) =
        (dialect.quoteName first).toList ++ left := by
  rw [symbolsText_cons]
  cases table with
  | none => exact ⟨name, _, by rw [column_text_none]⟩
  | some table => exact ⟨table, _, by rw [column_text_some, List.append_assoc]⟩

theorem readWord_symbolsText {symbol : Symbol} (hplain : ∀ s, symbol ≠ .text s)
    (dialect : Dialect) (rest : List Symbol) (next : Nat) :
    readWord (dialect.symbolsText next (symbol :: rest)) = symbol.word? := by
  cases symbol with
  | word w => rw [symbolsText_word, readWord_text, Symbol.word?]
  | column table name =>
      obtain ⟨first, left, htext⟩ := dialect.symbolsText_column table name rest next
      rw [htext, readWord_quoteName]
      rfl
  | bound value =>
      rw [symbolsText_bound, readWord_placeholder]
      rfl
  | text s => exact absurd rfl (hplain s)

theorem symbolsText_column_ne_bound (table : Option String) (name : String) (value : Value)
    (rest left : List Symbol) (next after : Nat) :
    dialect.symbolsText next (.column table name :: rest) ≠
      dialect.symbolsText after (.bound value :: left) := by
  obtain ⟨first, tail, htext⟩ := dialect.symbolsText_column table name rest next
  rw [htext, symbolsText_bound, Dialect.toList_quoteName, Dialect.toList_placeholder]
  intro hsame
  have hmark : dialect.quoteMark = dialect.placeSign := (List.cons.inj hsame).1
  cases dialect <;> exact absurd hmark (by decide)

/-- The text and the parameters give the first symbol, and what follows. -/
theorem symbol_eq_of_symbolsText_eq {symbol other : Symbol} {rest left : List Symbol}
    {next after : Nat} (hplain : ∀ s, symbol ≠ .text s) (hother : ∀ s, other ≠ .text s)
    (hrest : Symbol.areLegible (symbol :: rest) = true)
    (hleft : Symbol.areLegible (other :: left) = true)
    (htext : dialect.symbolsText next (symbol :: rest) = dialect.symbolsText after (other :: left))
    (hparams : Symbol.params (symbol :: rest) = Symbol.params (other :: left)) :
    symbol = other ∧ Symbol.params rest = Symbol.params left ∧
      dialect.symbolsText (next + symbol.values.length) rest =
        dialect.symbolsText (after + other.values.length) left := by
  have hword : symbol.word? = other.word? := by
    rw [← readWord_symbolsText hplain dialect rest next, htext, readWord_symbolsText hother]
  cases symbol with
  | word w =>
      cases other with
      | word other =>
          rw [symbolsText_word, symbolsText_word] at htext
          obtain ⟨rfl, htail⟩ := word_append_inj htext
          exact ⟨rfl, hparams, htail⟩
      | column table name => cases hword
      | bound value => cases hword
      | text s => exact absurd rfl (hother s)
  | column table name =>
      cases other with
      | word other => cases hword
      | column other named =>
          rw [Symbol.areLegible, Bool.and_eq_true] at hrest hleft
          rw [symbolsText_cons, symbolsText_cons] at htext
          obtain ⟨hsame, htail⟩ := column_append_inj
            (head?_text_of_startApart hrest.1 _) (head?_text_of_startApart hleft.1 _) htext
          exact ⟨hsame, hparams, htail⟩
      | bound value => exact absurd htext (symbolsText_column_ne_bound _ _ _ _ _ _ _)
      | text s => exact absurd rfl (hother s)
  | bound value =>
      cases other with
      | word other => cases hword
      | column table name => exact absurd htext.symm (symbolsText_column_ne_bound _ _ _ _ _ _ _)
      | bound other =>
          rw [Symbol.areLegible, Bool.and_eq_true] at hrest hleft
          rw [symbolsText_bound, symbolsText_bound] at htext
          obtain ⟨rfl, hvalues⟩ := List.cons.inj hparams
          refine ⟨rfl, hvalues, Dialect.placeholder_append_inj ?_ ?_ htext⟩
          · exact fun c hc => not_isDigit_of_isBreak (head?_text_of_startApart hrest.1 _ c hc)
          · exact fun c hc => not_isDigit_of_isBreak (head?_text_of_startApart hleft.1 _ c hc)
      | text s => exact absurd rfl (hother s)
  | text s => exact absurd rfl (hplain s)

theorem symbolsText_ne_nil {symbol : Symbol} (hplain : ∀ s, symbol ≠ .text s)
    (rest : List Symbol) (next : Nat) : dialect.symbolsText next (symbol :: rest) ≠ [] := by
  intro hempty
  have hword := readWord_symbolsText hplain dialect rest next
  rw [hempty] at hword
  cases symbol with
  | word w => cases hword
  | column table name =>
      obtain ⟨first, left, htext⟩ := dialect.symbolsText_column table name rest next
      rw [htext, Dialect.toList_quoteName] at hempty
      cases hempty
  | bound value =>
      rw [symbolsText_bound, Dialect.toList_placeholder] at hempty
      cases hempty
  | text s => exact hplain s rfl

/-- Legible symbols are known from their text and their parameters. -/
theorem symbols_eq_of_symbolsText_eq {symbols others : List Symbol} {next after : Nat}
    (hplain : ∀ symbol ∈ symbols, ∀ s, symbol ≠ .text s)
    (hothers : ∀ symbol ∈ others, ∀ s, symbol ≠ .text s)
    (hlegible : Symbol.areLegible symbols = true) (hlegible' : Symbol.areLegible others = true)
    (htext : dialect.symbolsText next symbols = dialect.symbolsText after others)
    (hparams : Symbol.params symbols = Symbol.params others) : symbols = others := by
  induction symbols generalizing others next after with
  | nil =>
      cases others with
      | nil => rfl
      | cons other left =>
          exact absurd htext.symm (symbolsText_ne_nil (hothers other List.mem_cons_self) left after)
  | cons symbol rest ih =>
      have hsymbol := hplain symbol List.mem_cons_self
      cases others with
      | nil => exact absurd htext (symbolsText_ne_nil hsymbol rest next)
      | cons other left =>
          obtain ⟨rfl, hvalues, htail⟩ := symbol_eq_of_symbolsText_eq hsymbol
            (hothers other List.mem_cons_self) hlegible hlegible' htext hparams
          rw [ih (fun s hs => hplain s (List.mem_cons_of_mem _ hs))
            (fun s hs => hothers s (List.mem_cons_of_mem _ hs))
            (Symbol.areLegible_tail hlegible) (Symbol.areLegible_tail hlegible') htail hvalues]

mutual

theorem Expr.symbols_ne_text (e : Expr) (hraw : e.isRawFree = true) :
    ∀ symbol ∈ e.symbols, ∀ s, symbol ≠ .text s := by
  cases e with
  | literal value => cases value <;> simp [symbols, Value.isBound]
  | binary left op right =>
      rw [isRawFree, Bool.and_eq_true] at hraw
      simp only [symbols, List.forall_mem_append, List.forall_mem_cons]
      exact ⟨symbols_ne_text left hraw.1, nofun, symbols_ne_text right hraw.2⟩
  | not operand =>
      simp only [symbols, List.forall_mem_cons]
      exact ⟨nofun, symbols_ne_text operand hraw⟩
  | isIn operand items negated =>
      rw [isRawFree, Bool.and_eq_true] at hraw
      cases items with
      | nil => simp [symbols]
      | cons item rest =>
          rw [areRawFree, Bool.and_eq_true] at hraw
          simp only [symbols, List.forall_mem_append, List.forall_mem_cons]
          exact ⟨symbols_ne_text operand hraw.1, nofun, symbols_ne_text item hraw.2.1,
            symbolsOfItems_ne_text rest hraw.2.2, nofun, nofun⟩
  | isNull operand negated =>
      simp only [symbols, List.forall_mem_append, List.forall_mem_cons]
      exact ⟨symbols_ne_text operand hraw, nofun, nofun⟩
  | paren inner =>
      simp only [symbols, List.forall_mem_append, List.forall_mem_cons]
      exact ⟨nofun, symbols_ne_text inner hraw, nofun, nofun⟩
  | column table name => simp [symbols]
  | raw sql => cases hraw

theorem Expr.symbolsOfItems_ne_text (items : List Expr) (hraw : areRawFree items = true) :
    ∀ symbol ∈ symbolsOfItems items, ∀ s, symbol ≠ .text s := by
  cases items with
  | nil => exact nofun
  | cons item rest =>
      rw [areRawFree, Bool.and_eq_true] at hraw
      simp only [symbolsOfItems, List.forall_mem_append, List.forall_mem_cons]
      exact ⟨nofun, symbols_ne_text item hraw.1, symbolsOfItems_ne_text rest hraw.2⟩

end

theorem Expr.symbolsText_symbols (e : Expr) (offset : Nat) :
    dialect.symbolsText (offset + 1) e.symbols = (e.text dialect offset).toList := by
  rw [Dialect.symbolsText, piecesFrom_symbols, text]

/-- Conditions of the same text and parameters have the same symbols. -/
theorem Expr.symbols_eq_of_text_eq {e other : Expr} {offset offset' : Nat}
    (hraw : e.isRawFree = true) (hother : other.isRawFree = true)
    (htext : e.text dialect offset = other.text dialect offset')
    (hparams : e.params = other.params) : e.symbols = other.symbols := by
  apply symbols_eq_of_symbolsText_eq (e.symbols_ne_text hraw) (other.symbols_ne_text hother)
    (e.areLegible_symbols hraw) (other.areLegible_symbols hother)
  · rw [e.symbolsText_symbols offset, htext, ← other.symbolsText_symbols offset']
  · rw [e.params_symbols, hparams, other.params_symbols]

/-- Grouped conditions of the same text and parameters have the same value. -/
theorem Expr.value_eq_of_text_eq {e other : Expr} {offset offset' : Nat}
    (hraw : e.isRawFree = true) (hother : other.isRawFree = true)
    (hgrouped : e.isGrouped = true) (hgrouped' : other.isGrouped = true)
    (htext : e.text dialect offset = other.text dialect offset')
    (hparams : e.params = other.params) (reading : Reading) :
    e.value reading = other.value reading := by
  have hsymbols := symbols_eq_of_text_eq hraw hother htext hparams
  have hread : reading.read .even e.symbols = some (e.value reading) :=
    e.read_symbols hraw hgrouped (.inl rfl)
  rw [← Option.some_inj, ← hread, hsymbols, other.read_symbols hother hgrouped' (.inl rfl)]

end Lexing

/-! ## Conditions one after the other -/

namespace Expr

/-- An OR binds loosest. -/
theorem two_le_level_iff {e : Expr} :
    2 ≤ e.level ↔ ∀ left right : Expr, e ≠ left.or right := by
  cases e with
  | binary left op right =>
      cases op with
      | or => exact iff_of_false (by simp [level, BinaryOp.level]) fun hne => hne left right rfl
      | _ => exact iff_of_true (by simp [level, BinaryOp.level]) fun _ _ => by simp [Expr.or]
  | isIn operand items negated =>
      cases items <;> exact iff_of_true (by simp [level]) fun _ _ => by simp [Expr.or]
  | _ => exact iff_of_true (by simp [level]) fun _ _ => by simp [Expr.or]

/-- AND keeps the grouping of its operands unless one of them is an OR. -/
theorem isGrouped_and {left right : Expr} : (left.and right).isGrouped = true ↔
    (left.isGrouped = true ∧ 2 ≤ left.level) ∧ right.isGrouped = true ∧ 2 ≤ right.level := by
  simp only [and, isGrouped, Bool.and_eq_true, decide_eq_true_eq]
  exact Iff.rfl

theorem isRawFree_and (left right : Expr) :
    (left.and right).isRawFree = (left.isRawFree && right.isRawFree) := rfl

theorem isRawFree_foldl (first : Expr) (rest : List Expr) :
    (rest.foldl Expr.and first).isRawFree = (first :: rest).all isRawFree := by
  induction rest generalizing first with
  | nil => simp
  | cons second rest ih => rw [List.foldl_cons, ih]; simp [isRawFree_and, Bool.and_assoc]

theorem isUnchained_and (left right : Expr) :
    (left.and right).isUnchained = (left.isUnchained && right.isUnchained) :=
  Bool.and_true _

theorem isUnchained_foldl (first : Expr) (rest : List Expr) :
    (rest.foldl Expr.and first).isUnchained = (first :: rest).all isUnchained := by
  induction rest generalizing first with
  | nil => simp
  | cons second rest ih => rw [List.foldl_cons, ih]; simp [isUnchained_and, Bool.and_assoc]

/-- Several conditions are grouped together if each is and none is an OR. -/
theorem isGrouped_foldl (first second : Expr) (rest : List Expr) :
    ((second :: rest).foldl Expr.and first).isGrouped = true ↔
      ∀ e ∈ first :: second :: rest, e.isGrouped = true ∧ 2 ≤ e.level := by
  induction rest generalizing first second with
  | nil => simp [isGrouped_and]
  | cons third rest ih =>
      rw [List.foldl_cons, ih]
      have hlevel : 2 ≤ (first.and second).level := Nat.le_refl 2
      simp [isGrouped_and, hlevel, and_assoc]

theorem truth_foldl (reading : Reading) (first : Expr) (rest : List Expr) :
    (rest.foldl Expr.and first).truth reading =
      ((first :: rest).map (truth reading)).foldr Truth.and .yes := by
  induction rest generalizing first with
  | nil => simp; cases first.truth reading <;> rfl
  | cons second rest ih =>
      rw [List.foldl_cons, ih]
      simp [truth_and, Truth.and_assoc]

theorem foldl_conjoin (conditions : List Expr) :
    conditions.foldl (fun present condition => some (conjoin present condition)) none =
      all? conditions := by
  cases conditions with
  | nil => rfl
  | cons first rest => exact (List.foldl_hom some fun _ _ => rfl)

end Expr

/-- The condition of conditions that are given one after the other is grouped if each of them is
and, unless there is but one, none is an OR. -/
def AreGrouped (conditions : List Expr) : Prop :=
  (∀ e ∈ conditions, e.isGrouped = true) ∧
    (2 ≤ conditions.length → ∀ e ∈ conditions, ∀ left right : Expr, e ≠ left.or right)

theorem Expr.isGrouped_all {conditions : List Expr} {condition : Expr}
    (hall : all? conditions = some condition) :
    condition.isGrouped = true ↔ AreGrouped conditions := by
  cases conditions with
  | nil => cases hall
  | cons first rest =>
      obtain rfl : rest.foldl Expr.and first = condition := Option.some.inj hall
      cases rest with
      | nil => simp [AreGrouped]
      | cons second rest =>
          rw [isGrouped_foldl, AreGrouped]
          have htwo : 2 ≤ (first :: second :: rest).length := Nat.le_add_left 2 rest.length
          simp only [two_le_level_iff, forall_and, htwo, true_imp_iff]

theorem Expr.isRawFree_all {conditions : List Expr} {condition : Expr}
    (hall : all? conditions = some condition) :
    condition.isRawFree = conditions.all isRawFree := by
  cases conditions with
  | nil => cases hall
  | cons first rest => cases hall; exact isRawFree_foldl first rest

theorem Expr.isUnchained_all {conditions : List Expr} {condition : Expr}
    (hall : all? conditions = some condition) :
    condition.isUnchained = conditions.all isUnchained := by
  cases conditions with
  | nil => cases hall
  | cons first rest => cases hall; exact isUnchained_foldl first rest

theorem Expr.truth_all {conditions : List Expr} {condition : Expr}
    (hall : all? conditions = some condition) (reading : Reading) :
    condition.truth reading = (conditions.map (truth reading)).foldr Truth.and .yes := by
  cases conditions with
  | nil => cases hall
  | cons first rest => cases hall; exact truth_foldl reading first rest

/-- Every builder takes conditions that are given one after the other as the conditions that must
all hold. -/
theorem filter_foldl_withFilter (conditions : List Expr) :
    (∀ constraints : Constraints, constraints.filter = none →
      (conditions.foldl Constraints.withFilter constraints).filter = Expr.all? conditions) ∧
    (∀ select : Select, select.filter = none →
      (conditions.foldl Select.withFilter select).filter = Expr.all? conditions) ∧
    (∀ update : Update, update.filter = none →
      (conditions.foldl Update.withFilter update).filter = Expr.all? conditions) ∧
    ∀ delete : Delete, delete.filter = none →
      (conditions.foldl Delete.withFilter delete).filter = Expr.all? conditions := by
  refine ⟨fun constraints hnone => ?_, fun select hnone => ?_, fun update hnone => ?_,
    fun delete hnone => ?_⟩ <;> rw [← Expr.foldl_conjoin, ← hnone]
  · exact (List.foldl_hom Constraints.filter fun _ _ => rfl).symm
  · exact (List.foldl_hom Select.filter fun _ _ => rfl).symm
  · exact (List.foldl_hom Update.filter fun _ _ => rfl).symm
  · exact (List.foldl_hom Delete.filter fun _ _ => rfl).symm

/-- The filter of constraints is put in brackets behind the condition of a query. -/
theorem Select.filter_constrain {select : Select} {constraints : Constraints} {condition : Expr}
    (hfilter : constraints.filter = some condition) :
    (select.constrain constraints).filter =
      Expr.all? (select.filter.toList ++ [condition.paren]) := by
  rw [constrain, hfilter]
  cases hpresent : select.filter with
  | none => simp [withFilter, hpresent, Expr.conjoin, Expr.all?]
  | some present => simp [withFilter, hpresent, Expr.conjoin, Expr.all?]

/-- In brackets an OR stays together. -/
theorem areGrouped_append_paren (present : Option Expr) (condition : Expr) :
    AreGrouped (present.toList ++ [condition.paren]) ↔ condition.isGrouped = true ∧
      ∀ e ∈ present, e.isGrouped = true ∧ ∀ left right : Expr, e ≠ left.or right := by
  cases present with
  | none => simp [AreGrouped, Expr.isGrouped]
  | some present =>
      constructor
      · rintro ⟨hgrouped, hor⟩
        refine ⟨hgrouped condition.paren (by simp), fun e he => ?_⟩
        obtain rfl : present = e := Option.some.inj he
        exact ⟨hgrouped present (by simp), hor (Nat.le_refl 2) present (by simp)⟩
      · rintro ⟨hcondition, hpresent⟩
        obtain ⟨hgrouped, hor⟩ := hpresent present rfl
        constructor
        · simpa [Expr.isGrouped] using ⟨hgrouped, hcondition⟩
        · exact fun _ => by simpa using ⟨hor, fun _ _ => nofun⟩

/-- Conditions without fragments mean what their text and parameters say, if their operands bind
as tightly as their places ask: those of the same text and parameters have the same truth at
every row.  Where no comparison or test stands without brackets as an operand of another, a reader
finds the value of the tree whichever of them binds tighter in its dialect.
Conditions that are given one after the other make a filter that holds if all of them hold, and
it is such a filter exactly if each condition is one and none of several is an OR.  The filter of
constraints stands in brackets when they are applied, and may be an OR. -/
theorem filters_keep_meaning (dialect : Dialect) (reading : Reading) :
    (∀ (e other : Expr) (offset offset' : Nat), e.isRawFree = true → other.isRawFree = true →
      e.isGrouped = true → other.isGrouped = true →
      e.text dialect offset = other.text dialect offset' → e.params = other.params →
        e.truth reading = other.truth reading) ∧
    (∀ (ranks : Ranks) (e : Expr), e.isRawFree = true → e.isGrouped = true →
      e.isUnchained = true → reading.read ranks e.symbols = some (e.value reading)) ∧
    (∀ conditions : List Expr,
      (∀ constraints : Constraints, constraints.filter = none →
        (conditions.foldl Constraints.withFilter constraints).filter = Expr.all? conditions) ∧
      (∀ select : Select, select.filter = none →
        (conditions.foldl Select.withFilter select).filter = Expr.all? conditions) ∧
      (∀ update : Update, update.filter = none →
        (conditions.foldl Update.withFilter update).filter = Expr.all? conditions) ∧
      ∀ delete : Delete, delete.filter = none →
        (conditions.foldl Delete.withFilter delete).filter = Expr.all? conditions) ∧
    (∀ (conditions : List Expr) (condition : Expr), Expr.all? conditions = some condition →
      condition.isRawFree = conditions.all Expr.isRawFree ∧
      condition.isUnchained = conditions.all Expr.isUnchained ∧
      (condition.isGrouped = true ↔ AreGrouped conditions) ∧
      condition.truth reading = (conditions.map (Expr.truth reading)).foldr Truth.and .yes) ∧
    ∀ (select : Select) (constraints : Constraints) (condition : Expr),
      constraints.filter = some condition →
        (select.constrain constraints).filter =
          Expr.all? (select.filter.toList ++ [condition.paren]) ∧
        (AreGrouped (select.filter.toList ++ [condition.paren]) ↔
          condition.isGrouped = true ∧ ∀ e ∈ select.filter,
            e.isGrouped = true ∧ ∀ left right : Expr, e ≠ left.or right) := by
  refine ⟨?_, ?_, filter_foldl_withFilter, ?_, ?_⟩
  · intro e other offset offset' hraw hother hgrouped hgrouped' htext hparams
    rw [Expr.truth, Expr.truth,
      Expr.value_eq_of_text_eq hraw hother hgrouped hgrouped' htext hparams]
  · exact fun ranks e hraw hgrouped hunchained =>
      e.read_symbols hraw hgrouped (.inr hunchained)
  · exact fun conditions condition hall => ⟨Expr.isRawFree_all hall, Expr.isUnchained_all hall,
      Expr.isGrouped_all hall, Expr.truth_all hall reading⟩
  · exact fun select constraints condition hfilter =>
      ⟨Select.filter_constrain hfilter, areGrouped_append_paren _ _⟩

/-- Three conditions, one of them a NOT, that a query gets one after the other and that another
tree nests to the right, and an OR in the filter of constraints that are applied to the query.
The reader ranks a test for NULL below comparisons and membership above them. -/
theorem filters_keep_meaning_of_orders :
    let reading : Reading := ⟨fun _ name => .text name, fun _ _ _ => .unknown, .text⟩
    let ranks : Ranks := ⟨fun _ => 5, 4, 6, fun _ => by decide, by decide, by decide⟩
    let isOpen := Expr.columnIs "state" (.text "open")
    let isUnpaid := (Expr.columnIs "paid" (.bool true)).not
    let isOld := Expr.columnIs "old" (.bool true)
    let asked := (isOpen.and isUnpaid).and isOld
    let nested := isOpen.and (isUnpaid.and isOld)
    let select := [isOpen, isUnpaid, isOld].foldl Select.withFilter (Select.ofTable "orders")
    let constraints := Constraints.none.withFilter (isOpen.or isOld)
    asked.truth reading = nested.truth reading ∧
      reading.read ranks nested.symbols = some .null ∧
      select.filter = some asked ∧
      asked.isGrouped = true ∧
      (select.constrain constraints).filter = some (asked.and (isOpen.or isOld).paren) ∧
      AreGrouped [asked, (isOpen.or isOld).paren] := by
  intro reading ranks isOpen isUnpaid isOld asked nested select constraints
  obtain ⟨hsame, hread, hbuilders, hall, hconstrain⟩ := filters_keep_meaning .postgres reading
  have hasked : asked.isGrouped = true :=
    (hall [isOpen, isUnpaid, isOld] asked rfl).2.2.1.2
      ⟨by decide, fun _ => by simp [isOpen, isUnpaid, isOld, Expr.columnIs, Expr.or]⟩
  obtain ⟨hfilter, hgrouped⟩ := hconstrain select constraints (isOpen.or isOld) rfl
  have hselect := (hbuilders [isOpen, isUnpaid, isOld]).2.1 (Select.ofTable "orders") rfl
  have htruth := hsame asked nested 0 0 (by decide) (by decide) hasked (by decide)
    (by decide +kernel) rfl
  refine ⟨htruth, (hread ranks nested (by decide) (by decide) (by decide)).trans rfl, hselect,
    hasked, hfilter, hgrouped.2 ⟨by decide, ?_⟩⟩
  intro e he
  obtain rfl : asked = e := Option.some.inj he
  exact ⟨hasked, fun _ _ => by simp [asked, Expr.and, Expr.or]⟩

/-! ## An OR that comes apart -/

/-- An OR that is followed by another condition has the symbols of an OR with an AND in it. -/
theorem Expr.symbols_or_and (first second third : Expr) :
    ((first.or second).and third).symbols = (first.or (second.and third)).symbols := by
  simp [Expr.or, Expr.and, symbols]

theorem Expr.text_eq_of_symbols_eq {e other : Expr} (hsymbols : e.symbols = other.symbols)
    (dialect : Dialect) (offset : Nat) :
    e.text dialect offset = other.text dialect offset ∧ e.params = other.params := by
  rw [text, text, ← piecesFrom_symbols, ← piecesFrom_symbols, ← params_symbols, ← params_symbols,
    hsymbols]
  exact ⟨rfl, rfl⟩

/-- A removal of the rows in one of two states, unless they are kept, also removes kept rows of
the first state: its filters are written as a condition that holds of these rows. -/
theorem or_filter_widens :
    let isOld := Expr.columnIs "state" (.text "old")
    let isVoid := Expr.columnIs "state" (.text "void")
    let isFree := Expr.columnIs "kept" (.bool false)
    let asked := (isOld.or isVoid).and isFree
    let written := isOld.or (isVoid.and isFree)
    let reading : Reading :=
      ⟨fun _ name => if name = "state" then .text "old" else .bool true,
        fun _ left right => if left.equal right then .yes else .no, .text⟩
    asked.isRawFree = true ∧ written.isRawFree = true ∧
      (∀ dialect offset, asked.text dialect offset = written.text dialect offset ∧
        asked.params = written.params) ∧
      asked.truth reading = .no ∧ written.truth reading = .yes ∧
      let delete := (Delete.fromTable "orders").withFilter (isOld.or isVoid) |>.withFilter isFree
      delete.filter = some asked ∧
        ∀ dialect, delete.build dialect = Delete.build ⟨"orders", some written⟩ dialect := by
  intro isOld isVoid isFree asked written reading
  have hsymbols : asked.symbols = written.symbols := Expr.symbols_or_and isOld isVoid isFree
  refine ⟨by decide, by decide, Expr.text_eq_of_symbols_eq hsymbols, by decide, by decide, rfl,
    fun dialect => ?_⟩
  rw [Delete.build_eq_written, Delete.build_eq_written]
  exact congrArg (fun symbols => Statement.written dialect
    (.text "DELETE FROM " :: .column none "orders" :: .text " WHERE " :: symbols)) hsymbols

end AggregateSync
