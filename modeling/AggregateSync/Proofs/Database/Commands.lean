import AggregateSync.Proofs.Database.Store
import AggregateSync.Proofs.Session.Statements
import AggregateSync.Proofs.Sql.Filters

/-!
# Commands and their text

A database sees the text of a command and its parameters, not the command.  But the names of
the table and of the assigned columns can be read back from the text, and a clear condition means
what its text and parameters say.  So commands of one text and the same parameters do the same to
the rows, and a database that knows no more can do what each of them asks.
-/

namespace AggregateSync

variable {dialect : Dialect} {engine : Engine}

/-! ## Conditions on columns -/

theorem Truth.foldr_and_eq_yes {truths : List Truth} :
    truths.foldr Truth.and .yes = .yes ↔ ∀ truth ∈ truths, truth = .yes := by
  induction truths with
  | nil => simp
  | cons first rest ih => simp [ih]

/-- Conditions on columns select the rows of the table that satisfy each of them. -/
theorem Engine.selects_columnsAre? {table : String} {conditions : List (String × Value)}
    {record : Record} :
    engine.selects table (Expr.columnsAre? conditions) record = true ↔
      record.table = table ∧ ∀ condition ∈ conditions,
        engine.compare .eq (record.cell condition.1) condition.2 = .yes := by
  rw [selects, Bool.and_eq_true, beq_iff_eq]
  refine and_congr_right fun _ => ?_
  cases hcondition : Expr.columnsAre? conditions with
  | none =>
      cases conditions with
      | nil => simp
      | cons first rest => cases hcondition
  | some condition =>
      rw [Option.all_some, decide_eq_true_iff, Expr.truth_all hcondition,
        Truth.foldr_and_eq_yes, List.forall_mem_map, List.forall_mem_map]
      simp only [Expr.truth_columnIs]
      rfl

/-- Conditions on columns are clear. -/
theorem Expr.isClear_columnsAre? (conditions : List (String × Value)) :
    (columnsAre? conditions).all isClear = true := by
  cases hcondition : columnsAre? conditions with
  | none => rfl
  | some condition =>
      have hgrouped : condition.isGrouped = true := by
        rw [isGrouped_all hcondition]
        constructor
        · intro e he
          obtain ⟨entry, _, rfl⟩ := List.mem_map.1 he
          rfl
        · intro _ e he left right
          obtain ⟨entry, _, rfl⟩ := List.mem_map.1 he
          exact nofun
      have hparts : condition.isRawFree = true ∧ condition.isUnchained = true := by
        rw [isRawFree_all hcondition, isUnchained_all hcondition, List.all_map, List.all_map]
        exact ⟨List.all_eq_true.2 fun _ _ => rfl, List.all_eq_true.2 fun _ _ => rfl⟩
      rw [Option.all_some, isClear, hparts.1, hgrouped, hparts.2]
      rfl

/-! ## Reading a command back -/

theorem head?_piecesText_word {s : String} {first : Char} (hfirst : s.toList.head? = some first)
    (pieces : List Piece) :
    (dialect.piecesText (.word s :: pieces)).toList.head? = some first := by
  rw [Dialect.piecesText_cons, Dialect.pieceText, List.head?_append, hfirst]
  rfl

theorem eq_blank_of_word {s : String} (hfirst : s.toList.head? = some ' ')
    (pieces : List Piece) :
    ∀ c ∈ (dialect.piecesText (.word s :: pieces)).toList.head?, c = ' ' := by
  intro c hc
  rw [head?_piecesText_word hfirst] at hc
  exact (Option.some.inj hc).symm

/-- The condition of a command begins with a blank. -/
theorem head?_filterPieces (next : Nat) (condition : Expr) :
    (dialect.piecesText (filterPieces next (some condition))).toList.head? = some ' ' :=
  head?_piecesText_word (by decide) _

theorem eq_blank_of_filterPieces (next : Nat) (filter : Option Expr) :
    ∀ c ∈ (dialect.piecesText (filterPieces next filter)).toList.head?, c = ' ' := by
  cases filter with
  | none => exact nofun
  | some condition => exact eq_blank_of_word (by decide) _

/-- Clear conditions of one text and the same parameters select the same rows. -/
theorem selects_eq_of_text_eq {filter other : Option Expr} {next after : Nat}
    (hclear : filter.all Expr.isClear = true) (hother : other.all Expr.isClear = true)
    (htext : (dialect.piecesText (filterPieces (next + 1) filter)).toList =
      (dialect.piecesText (filterPieces (after + 1) other)).toList)
    (hparams : filterParams filter = filterParams other) (engine : Engine) (table : String) :
    engine.selects table filter = engine.selects table other := by
  have hhead := congrArg List.head? htext
  cases filter with
  | none =>
      cases other with
      | none => rfl
      | some other =>
          rw [head?_filterPieces] at hhead
          cases hhead
  | some condition =>
      cases other with
      | none =>
          rw [head?_filterPieces] at hhead
          cases hhead
      | some other =>
          simp only [Option.all_some, Expr.isClear, Bool.and_eq_true] at hclear hother
          have hwhere : condition.text dialect next = other.text dialect after := by
            rw [filterPieces, filterPieces, Dialect.piecesText_cons, Dialect.piecesText_cons]
              at htext
            exact String.toList_injective (List.append_cancel_left htext)
          funext record
          rw [Engine.selects, Engine.selects, Option.all_some, Option.all_some, Expr.truth,
            Expr.truth, Expr.value_eq_of_text_eq hclear.1.1 hother.1.1 hclear.1.2 hother.1.2 hwhere
              hparams]

/-- The text of further assignments behind one. -/
def Dialect.furtherAssignments (dialect : Dialect) (next : Nat) :
    List (String × Value) → List Char
  | [] => []
  | assignment :: rest => ',' :: ' ' :: (dialect.piecesText (Piece.joined ", "
      (Update.assignmentPieces next (assignment :: rest)))).toList

theorem piecesText_assignments_cons (next : Nat) (column : String) (value : Value)
    (rest : List (String × Value)) :
    (dialect.piecesText (Piece.joined ", "
        (Update.assignmentPieces next ((column, value) :: rest)))).toList =
      (dialect.quoteName column).toList ++ ([' ', '=', ' '] ++
        ((dialect.placeholder next).toList ++ dialect.furtherAssignments (next + 1) rest)) := by
  have hequals : (dialect.pieceText (.word " = ")).toList = [' ', '=', ' '] := by
    rw [Dialect.pieceText]
    decide
  have hcomma : (dialect.pieceText (.word ", ")).toList = [',', ' '] := by
    rw [Dialect.pieceText]
    decide
  cases rest with
  | nil =>
      rw [Update.assignmentPieces, Update.assignmentPieces, Piece.joined, Dialect.piecesText_cons,
        Dialect.piecesText_cons, Dialect.piecesText_cons, hequals]
      rfl
  | cons following rest =>
      rw [Update.assignmentPieces, Update.assignmentPieces, Piece.joined, List.cons_append,
        List.cons_append, List.cons_append, Dialect.piecesText_cons, Dialect.piecesText_cons,
        Dialect.piecesText_cons, List.nil_append, Dialect.piecesText_cons, hequals, hcomma]
      · rfl
      · simp

/-- Behind an assignment comes no digit. -/
theorem head?_furtherAssignments (next : Nat) (assignments : List (String × Value))
    {rest : List Char} (hrest : ∀ c ∈ rest.head?, c = ' ') :
    ∀ c ∈ (dialect.furtherAssignments next assignments ++ rest).head?, c.isDigit = false := by
  intro c hc
  cases assignments with
  | nil =>
      rw [hrest c hc]
      decide
  | cons assignment assignments =>
      obtain rfl : ',' = c := Option.some.inj hc
      decide

theorem blank_ne_quoteMark (dialect : Dialect) {c : Char} (hc : c = ' ') :
    c ≠ dialect.quoteMark := by
  rw [hc]
  rcases dialect.quoteMark_cases with hmark | hmark <;> rw [hmark] <;> decide

/-- Assignments begin with a quote mark, and so with no blank. -/
theorem assignments_append_ne {next : Nat} {column : String} {value : Value}
    {assignments : List (String × Value)} {rest left : List Char}
    (hleft : ∀ c ∈ left.head?, c = ' ') :
    (dialect.piecesText (Piece.joined ", "
      (Update.assignmentPieces next ((column, value) :: assignments)))).toList ++ rest ≠ left := by
  rintro rfl
  have hmark : dialect.quoteMark = ' ' := hleft _ (by
    rw [piecesText_assignments_cons, Dialect.toList_quoteName]
    rfl)
  exact blank_ne_quoteMark dialect rfl hmark.symm

/-- Texts that begin with assignments assign the same columns, and go on alike. -/
theorem assignments_append_inj {assignments others : List (String × Value)} {next after : Nat}
    {rest left : List Char} (hrest : ∀ c ∈ rest.head?, c = ' ')
    (hleft : ∀ c ∈ left.head?, c = ' ')
    (hsame : (dialect.piecesText (Piece.joined ", "
        (Update.assignmentPieces next assignments))).toList ++ rest =
      (dialect.piecesText (Piece.joined ", "
        (Update.assignmentPieces after others))).toList ++ left) :
    assignments.map Prod.fst = others.map Prod.fst ∧ rest = left := by
  have hequals : ∀ (tail : List Char), ∀ c ∈ ([' ', '=', ' '] ++ tail).head?,
      c ≠ dialect.quoteMark :=
    fun _ c hc => blank_ne_quoteMark dialect (Option.some.inj hc).symm
  induction assignments generalizing others next after with
  | nil =>
      cases others with
      | nil => exact ⟨rfl, hsame⟩
      | cons other others => exact absurd hsame.symm (assignments_append_ne hrest)
  | cons assignment assignments ih =>
      cases others with
      | nil => exact absurd hsame (assignments_append_ne hleft)
      | cons other others =>
          rw [piecesText_assignments_cons, piecesText_assignments_cons, List.append_assoc,
            List.append_assoc, List.append_assoc, List.append_assoc, List.append_assoc,
            List.append_assoc] at hsame
          obtain ⟨hcolumn, htail⟩ :=
            Dialect.quoteName_append_inj (hequals _) (hequals _) hsame
          have hnext := Dialect.placeholder_append_inj
            (head?_furtherAssignments (next + 1) assignments hrest)
            (head?_furtherAssignments (after + 1) others hleft) (List.append_cancel_left htail)
          rw [List.map_cons, List.map_cons, hcolumn]
          cases assignments with
          | nil =>
              cases others with
              | nil => exact ⟨rfl, hnext⟩
              | cons other others =>
                  exact absurd (hrest ',' (congrArg List.head? hnext)) (by decide)
          | cons following assignments =>
              cases others with
              | nil => exact absurd (hleft ',' (congrArg List.head? hnext).symm) (by decide)
              | cons other others =>
                  obtain ⟨hcolumns, hend⟩ :=
                    ih (List.tail_eq_of_cons_eq (List.tail_eq_of_cons_eq hnext))
                  exact ⟨congrArg _ hcolumns, hend⟩

/-- The table is read back behind the verb, and what follows is the same. -/
theorem table_eq_of_text_eq {verb table other : String} {pieces others : List Piece}
    (hpieces : ∀ c ∈ (dialect.piecesText pieces).toList.head?, c = ' ')
    (hothers : ∀ c ∈ (dialect.piecesText others).toList.head?, c = ' ')
    (htext : dialect.piecesText (.word verb :: .name table :: pieces) =
      dialect.piecesText (.word verb :: .name other :: others)) :
    table = other ∧
      (dialect.piecesText pieces).toList = (dialect.piecesText others).toList := by
  have htexts := congrArg String.toList htext
  rw [Dialect.piecesText_cons, Dialect.piecesText_cons, Dialect.piecesText_cons,
    Dialect.piecesText_cons] at htexts
  exact Dialect.quoteName_append_inj (fun c hc => blank_ne_quoteMark dialect (hpieces c hc))
    (fun c hc => blank_ne_quoteMark dialect (hothers c hc)) (List.append_cancel_left htexts)

theorem entries_eq_of_map_eq {entries others : List (String × Value)}
    (hcolumns : entries.map Prod.fst = others.map Prod.fst)
    (hvalues : entries.map Prod.snd = others.map Prod.snd) : entries = others := by
  rw [List.zip_of_prod hcolumns hvalues]
  exact (List.zip_of_prod rfl rfl).symm

/-- What an INSERT says behind the table begins with a blank. -/
theorem Insert.eq_blank_of_rowPieces (row : Insert) :
    ∀ c ∈ (dialect.piecesText ((row.pieces dialect).drop 2)).toList.head?, c = ' ' := by
  obtain ⟨table, assignments⟩ := row
  cases assignments with
  | nil => cases dialect <;> exact eq_blank_of_word (by decide) _
  | cons entry rest => exact eq_blank_of_word (by decide) _

/-- The columns of an INSERT that has some stand behind a bracket. -/
theorem Insert.text_of_cons (table : String) (entry : String × Value)
    (rest : List (String × Value)) : ∃ tail : List Char,
      (dialect.piecesText (((Insert.mk table (entry :: rest)).pieces dialect).drop 2)).toList =
        [' ', '('] ++ ((dialect.piecesText (namePieces ((entry :: rest).map Prod.fst))).toList ++
          ')' :: tail) := by
  have hopening : (dialect.pieceText (.word " (")).toList = [' ', '('] := by
    rw [Dialect.pieceText]
    decide
  have hclosing : (dialect.pieceText (.word ") VALUES (")).toList = ')' :: " VALUES (".toList := by
    rw [Dialect.pieceText]
    decide
  have hpieces : ((Insert.mk table (entry :: rest)).pieces dialect).drop 2 =
      .word " (" :: (namePieces ((entry :: rest).map Prod.fst) ++ .word ") VALUES (" ::
        (Piece.joined ", " ((List.range' 1 (entry :: rest).length).map
          fun number => [.place number]) ++ [.word ")"])) := rfl
  rw [hpieces, Dialect.piecesText_cons, hopening, Dialect.piecesText_append,
    Dialect.piecesText_cons, hclosing]
  exact ⟨_, rfl⟩

/-- A row of defaults is spelled without a name behind the bracket. -/
theorem Insert.text_of_nil (dialect : Dialect) (table : String) :
    ((dialect.piecesText (((Insert.mk table []).pieces dialect).drop 2)).toList.drop 2).head? ≠
      some dialect.quoteMark := by
  have hword : ∀ s : String, (dialect.piecesText [.word s]).toList = s.toList :=
    fun s => Dialect.piecesText_singleton (.word s)
  cases dialect with
  | postgres => exact hword " DEFAULT VALUES" ▸ (by decide)
  | sqlite => exact hword " DEFAULT VALUES" ▸ (by decide)
  | mysql => exact hword " () VALUES ()" ▸ (by decide)

/-- The columns are read back from what an INSERT says behind the table. -/
theorem Insert.columns_eq_of_text_eq {row other : Insert}
    (htext : (dialect.piecesText ((row.pieces dialect).drop 2)).toList =
      (dialect.piecesText ((other.pieces dialect).drop 2)).toList) :
    row.columns = other.columns := by
  have hbracket : ∀ tail : List Char, ∀ c ∈ (')' :: tail).head?,
      c ≠ dialect.quoteMark ∧ c ≠ ',' := by
    intro tail c hc
    obtain rfl : ')' = c := Option.some.inj hc
    refine ⟨?_, by decide⟩
    rcases dialect.quoteMark_cases with hmark | hmark <;> rw [hmark] <;> decide
  have hthird : ∀ (table : String) (entry : String × Value) (rest : List (String × Value)),
      ((dialect.piecesText
        (((Insert.mk table (entry :: rest)).pieces dialect).drop 2)).toList.drop 2).head? =
          some dialect.quoteMark := by
    intro table entry rest
    obtain ⟨tail, hcons⟩ := @text_of_cons dialect table entry rest
    rw [hcons, List.map_cons, Dialect.piecesText_namePieces_cons, Dialect.toList_quoteName]
    rfl
  obtain ⟨table, assignments⟩ := row
  obtain ⟨table', assignments'⟩ := other
  cases assignments with
  | nil =>
      cases assignments' with
      | nil => rfl
      | cons entry rest =>
          have hnil := text_of_nil dialect table
          rw [htext] at hnil
          exact absurd (hthird _ _ _) hnil
  | cons entry rest =>
      cases assignments' with
      | nil =>
          have hnil := text_of_nil dialect table'
          rw [← htext] at hnil
          exact absurd (hthird _ _ _) hnil
      | cons entry' rest' =>
          obtain ⟨tail, hcons⟩ := @text_of_cons dialect table entry rest
          obtain ⟨tail', hcons'⟩ := @text_of_cons dialect table' entry' rest'
          rw [hcons, hcons'] at htext
          exact (Dialect.namePieces_append_inj (hbracket tail) (hbracket tail')
            (List.append_cancel_left htext)).1

/-- INSERTs of one text and the same parameters are the same. -/
theorem Insert.eq_of_build_eq {row other : Insert}
    (hbuild : row.build dialect = other.build dialect) : row = other := by
  obtain ⟨htext, hvalues⟩ := Statement.mk.inj hbuild
  have hpieces : ∀ row : Insert, row.pieces dialect = .word "INSERT INTO " :: .name row.table ::
      (row.pieces dialect).drop 2 := fun _ => rfl
  rw [hpieces, hpieces] at htext
  obtain ⟨htable, htail⟩ := table_eq_of_text_eq (eq_blank_of_rowPieces row)
    (eq_blank_of_rowPieces other) htext
  have hcolumns := columns_eq_of_text_eq htail
  obtain ⟨table, assignments⟩ := row
  obtain rfl : table = other.table := htable
  obtain rfl : assignments = other.assignments := entries_eq_of_map_eq hcolumns hvalues
  rfl

/-- UPDATEs with clear conditions that have one text and the same parameters assign the same to
the same rows. -/
theorem Update.eq_of_build_eq {change other : Update}
    (hclear : change.filter.all Expr.isClear = true)
    (hother : other.filter.all Expr.isClear = true)
    (hbuild : change.build dialect = other.build dialect) :
    change.table = other.table ∧ change.assignments = other.assignments ∧
      ∀ (engine : Engine) (table : String),
        engine.selects table change.filter = engine.selects table other.filter := by
  obtain ⟨htext, hparams⟩ := Statement.mk.inj hbuild
  have hpieces : ∀ update : Update, update.pieces = .word "UPDATE " :: .name update.table ::
      .word " SET " :: (Piece.joined ", " (assignmentPieces 1 update.assignments) ++
        filterPieces (update.assignments.length + 1) update.filter) := fun _ => rfl
  rw [hpieces, hpieces] at htext
  have hset : " SET ".toList.head? = some ' ' := by decide
  obtain ⟨htable, htail⟩ := table_eq_of_text_eq (eq_blank_of_word hset _)
    (eq_blank_of_word hset _) htext
  rw [Dialect.piecesText_cons, Dialect.piecesText_cons] at htail
  have hassigned := List.append_cancel_left htail
  rw [Dialect.piecesText_append, Dialect.piecesText_append] at hassigned
  obtain ⟨hcolumns, hwhere⟩ := assignments_append_inj (eq_blank_of_filterPieces _ _)
    (eq_blank_of_filterPieces _ _) hassigned
  have hlength : (change.assignments.map Prod.snd).length =
      (other.assignments.map Prod.snd).length := by
    simpa using congrArg List.length hcolumns
  obtain ⟨hvalues, hbound⟩ := List.append_inj hparams hlength
  exact ⟨htable, entries_eq_of_map_eq hcolumns hvalues, fun engine table =>
    selects_eq_of_text_eq hclear hother hwhere hbound engine table⟩

/-- DELETEs with clear conditions that have one text and the same parameters remove the same
rows. -/
theorem Delete.eq_of_build_eq {removal other : Delete}
    (hclear : removal.filter.all Expr.isClear = true)
    (hother : other.filter.all Expr.isClear = true)
    (hbuild : removal.build dialect = other.build dialect) :
    removal.table = other.table ∧ ∀ (engine : Engine) (table : String),
      engine.selects table removal.filter = engine.selects table other.filter := by
  obtain ⟨htext, hparams⟩ := Statement.mk.inj hbuild
  obtain ⟨htable, hwhere⟩ := table_eq_of_text_eq (eq_blank_of_filterPieces _ _)
    (eq_blank_of_filterPieces _ _) htext
  exact ⟨htable, fun engine table => selects_eq_of_text_eq hclear hother hwhere hparams engine
    table⟩

namespace Command

/-- The letter that the text of a command begins with. -/
def letter : Command → Char
  | insert _ => 'I'
  | update _ => 'U'
  | delete _ => 'D'

theorem head?_build (command : Command) :
    (command.build dialect).sql.toList.head? = some command.letter := by
  have hverbs : "INSERT INTO ".toList.head? = some 'I' ∧ "UPDATE ".toList.head? = some 'U' ∧
      "DELETE FROM ".toList.head? = some 'D' := by decide
  cases command with
  | insert row => exact head?_piecesText_word hverbs.1 _
  | update change => exact head?_piecesText_word hverbs.2.1 _
  | delete removal => exact head?_piecesText_word hverbs.2.2 _

theorem letter_eq_of_build_eq {command other : Command}
    (hbuild : command.build dialect = other.build dialect) : command.letter = other.letter := by
  rw [← Option.some_inj, ← @head?_build dialect, hbuild, head?_build]

/-- Only an INSERT has the text of an INSERT. -/
theorem eq_insert_of_build_eq {command : Command} {row : Insert}
    (hbuild : command.build dialect = row.build dialect) : command = .insert row := by
  have hletter := @letter_eq_of_build_eq dialect command (.insert row) hbuild
  cases command with
  | insert other => rw [Insert.eq_of_build_eq hbuild]
  | update other => simp [letter] at hletter
  | delete other => simp [letter] at hletter

/-- What a clear command does is known from its text and its parameters. -/
theorem affects_of_build_eq {command other : Command} (hclear : command.isClear = true)
    (hother : other.isClear = true) (hbuild : command.build dialect = other.build dialect)
    {registry : Registry} {id : Int64} {before after : Set Record}
    (haffects : command.Affects engine registry id before after) :
    other.Affects engine registry id before after := by
  have hletter := letter_eq_of_build_eq hbuild
  cases command with
  | insert row => rwa [eq_insert_of_build_eq hbuild.symm]
  | update change =>
      cases other with
      | insert other => simp [letter] at hletter
      | update other =>
          rw [isClear, Bool.and_eq_true] at hclear hother
          obtain ⟨htable, hassigned, hselects⟩ :=
            Update.eq_of_build_eq hclear.2 hother.2 hbuild
          rwa [Affects, ← htable, ← hassigned, ← hselects]
      | delete other => simp [letter] at hletter
  | delete removal =>
      cases other with
      | insert other => simp [letter] at hletter
      | update other => simp [letter] at hletter
      | delete other =>
          obtain ⟨htable, hselects⟩ := Delete.eq_of_build_eq hclear hother hbuild
          rwa [Affects, ← htable, ← hselects]

end Command

end AggregateSync
