import AggregateSync.Sql.Statement
import Mathlib.Data.List.TakeWhile

/-!
# Names and places in a text

A quoted name and the place of a parameter are found again in a text from their first characters
alone: the name ends at the first quote that no other quote follows, and the number of a place
ends with its last digit.  So what a text begins with can be told from the rest.
-/

namespace AggregateSync.Dialect

variable {dialect : Dialect}

theorem quoteMark_cases (dialect : Dialect) :
    dialect.quoteMark = '"' ∨ dialect.quoteMark = '\x60' := by
  cases dialect
  · exact .inl rfl
  · exact .inl rfl
  · exact .inr rfl

theorem piecesText_cons (piece : Piece) (pieces : List Piece) :
    (dialect.piecesText (piece :: pieces)).toList =
      (dialect.pieceText piece).toList ++ (dialect.piecesText pieces).toList := by
  rw [piecesText, piecesText, List.map_cons, String.join_cons, String.toList_append]

theorem piecesText_singleton (piece : Piece) :
    (dialect.piecesText [piece]).toList = (dialect.pieceText piece).toList := by
  rw [piecesText_cons]
  exact List.append_nil _

theorem piecesText_append (pieces others : List Piece) :
    (dialect.piecesText (pieces ++ others)).toList =
      (dialect.piecesText pieces).toList ++ (dialect.piecesText others).toList := by
  induction pieces with
  | nil => rfl
  | cons piece rest ih =>
      rw [List.cons_append, piecesText_cons, ih, piecesText_cons, List.append_assoc]

/-! ## Names -/

/-- Reads a name behind its first quote, and gives what is left of the text.  A doubled quote is
one of the name, and the first that stands alone ends it. -/
def readName (mark : Char) : List Char → Option (List Char × List Char)
  | [] => none
  | [c] => if c = mark then some ([], []) else none
  | c :: d :: rest =>
    if c = mark then
      if d = mark then (readName mark rest).map fun read => (mark :: read.1, read.2)
      else some ([], d :: rest)
    else (readName mark (d :: rest)).map fun read => (c :: read.1, read.2)

@[simp]
theorem escapeName_nil (mark : Char) : escapeName mark [] = [] := rfl

theorem escapeName_cons_self (mark : Char) (name : List Char) :
    escapeName mark (mark :: name) = mark :: mark :: escapeName mark name := by
  simp [escapeName]

theorem escapeName_cons_of_ne {mark c : Char} (hmark : c ≠ mark) (name : List Char) :
    escapeName mark (c :: name) = c :: escapeName mark name := by
  simp [escapeName, hmark]

/-- A name in quotes is read as the name, whatever follows, if it is not another quote. -/
theorem readName_escapeName {mark : Char} (name : List Char) {rest : List Char}
    (hrest : ∀ c ∈ rest.head?, c ≠ mark) :
    readName mark (escapeName mark name ++ mark :: rest) = some (name, rest) := by
  induction name with
  | nil =>
      cases rest with
      | nil => simp [readName]
      | cons d rest => simp [readName, hrest d rfl]
  | cons c name ih =>
      by_cases hmark : c = mark
      · subst hmark
        rw [escapeName_cons_self, List.cons_append, List.cons_append, readName, if_pos rfl,
          if_pos rfl, ih]
        rfl
      · rw [escapeName_cons_of_ne hmark, List.cons_append]
        cases htail : escapeName mark name ++ mark :: rest with
        | nil => simp at htail
        | cons d tail =>
            rw [readName, if_neg hmark, ← htail, ih]
            rfl

theorem exists_tail_of_map {c : Char} {read : Option (List Char × List Char)}
    {name rest : List Char}
    (hmap : (read.map fun read => (c :: read.1, read.2)) = some (name, rest)) :
    ∃ tail, name = c :: tail ∧ read = some (tail, rest) := by
  cases read with
  | none => simp at hmap
  | some read =>
      have hparts : c :: read.1 = name ∧ read.2 = rest := by simpa using hmap
      exact ⟨read.1, hparts.1.symm, by rw [← hparts.2]⟩

/-- Only names in quotes are read: what was read is the escaped name, the quote that ends it and
a rest that does not begin with another. -/
theorem eq_escapeName_of_readName {mark : Char} {text name rest : List Char}
    (hread : readName mark text = some (name, rest)) :
    text = escapeName mark name ++ mark :: rest ∧ ∀ c ∈ rest.head?, c ≠ mark := by
  fun_induction readName mark text generalizing name with
  | case1 => simp at hread
  | case2 =>
      have hparts : name = [] ∧ rest = [] := by simpa [eq_comm] using hread
      simp [hparts]
  | case3 => simp at hread
  | case4 text ih =>
      -- a doubled quote is the first character of the name
      obtain ⟨tail, hname, htail⟩ := exists_tail_of_map hread
      have hsplit := ih htail
      rw [hname, escapeName_cons_self, hsplit.1]
      exact ⟨rfl, hsplit.2⟩
  | case5 d text hmark =>
      have hparts : name = [] ∧ d :: text = rest := by simpa [eq_comm] using hread
      rw [hparts.1, ← hparts.2]
      exact ⟨rfl, by simpa using hmark⟩
  | case6 c d text hmark ih =>
      obtain ⟨tail, hname, htail⟩ := exists_tail_of_map hread
      have hsplit := ih htail
      rw [hname, escapeName_cons_of_ne hmark, hsplit.1]
      exact ⟨rfl, hsplit.2⟩

theorem toList_quoteName (name : String) :
    (dialect.quoteName name).toList = dialect.quoteMark ::
      (escapeName dialect.quoteMark name.toList ++ [dialect.quoteMark]) := by
  rw [quoteName, String.toList_ofList]

/-- Texts that begin with quoted names begin with the same name. -/
theorem quoteName_append_inj {name other : String} {rest left : List Char}
    (hrest : ∀ c ∈ rest.head?, c ≠ dialect.quoteMark)
    (hleft : ∀ c ∈ left.head?, c ≠ dialect.quoteMark)
    (hsame : (dialect.quoteName name).toList ++ rest =
      (dialect.quoteName other).toList ++ left) : name = other ∧ rest = left := by
  rw [toList_quoteName, toList_quoteName, List.cons_append, List.cons_append, List.append_assoc,
    List.append_assoc, List.cons.injEq] at hsame
  have hread := congrArg (readName dialect.quoteMark) hsame.2
  rw [List.singleton_append, List.singleton_append, readName_escapeName _ hrest,
    readName_escapeName _ hleft, Option.some.injEq, Prod.mk.injEq] at hread
  exact ⟨String.toList_injective hread.1, hread.2⟩

/-- Reads a quoted name at the beginning of a text, and gives what is left behind it. -/
def readQuoted (dialect : Dialect) (text : String) : Option (String × String) :=
  match text.toList with
  | [] => none
  | c :: rest =>
    if c = dialect.quoteMark then
      (readName dialect.quoteMark rest).map fun read =>
        (String.ofList read.1, String.ofList read.2)
    else none

theorem readQuoted_quoteName {name rest : String}
    (hrest : rest.toList.head? ≠ some dialect.quoteMark) :
    dialect.readQuoted (dialect.quoteName name ++ rest) = some (name, rest) := by
  have hhead : ∀ c ∈ rest.toList.head?, c ≠ dialect.quoteMark := by
    intro c hc hmark
    exact hrest (by rw [← hmark]; exact hc)
  have htext : (dialect.quoteName name ++ rest).toList = dialect.quoteMark ::
      (escapeName dialect.quoteMark name.toList ++ dialect.quoteMark :: rest.toList) := by
    rw [String.toList_append, toList_quoteName, List.cons_append, List.append_assoc,
      List.singleton_append]
  simp only [readQuoted, htext, if_true, readName_escapeName _ hhead, Option.map_some,
    String.ofList_toList]

theorem eq_quoteName_of_readQuoted {text name rest : String}
    (hread : dialect.readQuoted text = some (name, rest)) :
    text = dialect.quoteName name ++ rest ∧ rest.toList.head? ≠ some dialect.quoteMark := by
  rw [readQuoted] at hread
  split at hread
  case h_1 => simp at hread
  case h_2 c characters htext =>
    split at hread
    case isFalse => simp at hread
    case isTrue hmark =>
      obtain ⟨read, hname, hparts⟩ := Option.map_eq_some_iff.1 hread
      have hsplit := eq_escapeName_of_readName hname
      have hread : read.1 = name.toList ∧ read.2 = rest.toList := by
        rw [Prod.mk.injEq] at hparts
        rw [← hparts.1, ← hparts.2, String.toList_ofList, String.toList_ofList]
        exact ⟨rfl, rfl⟩
      rw [hread.1, hread.2] at hsplit
      constructor
      · apply String.toList_injective
        rw [htext, hmark, hsplit.1, String.toList_append, toList_quoteName, List.cons_append,
          List.append_assoc, List.singleton_append]
      · exact fun hhead => hsplit.2 _ hhead rfl

/-! ## Lists of names -/

/-- The text of further names behind one. -/
def furtherNames (dialect : Dialect) : List String → List Char
  | [] => []
  | name :: names => ',' :: ' ' :: (dialect.piecesText (namePieces (name :: names))).toList

theorem piecesText_namePieces_cons (name : String) (names : List String) :
    (dialect.piecesText (namePieces (name :: names))).toList =
      (dialect.quoteName name).toList ++ dialect.furtherNames names := by
  cases names with
  | nil => exact piecesText_cons _ _
  | cons following names =>
      have hcomma : (dialect.pieceText (.word ", ")).toList = [',', ' '] := by simp [pieceText]
      rw [namePieces, List.map_cons, List.map_cons, Piece.joined, List.singleton_append,
        piecesText_cons, piecesText_cons, hcomma]
      · rfl
      · simp

/-- Behind a list of names comes neither a quote nor a comma. -/
theorem head?_furtherNames (names : List String) {rest : List Char}
    (hrest : ∀ c ∈ rest.head?, c ≠ dialect.quoteMark ∧ c ≠ ',') :
    ∀ c ∈ (dialect.furtherNames names ++ rest).head?, c ≠ dialect.quoteMark := by
  cases names with
  | nil => exact fun c hc => (hrest c hc).1
  | cons name names =>
      intro c hc
      obtain rfl : ',' = c := Option.some.inj hc
      rcases dialect.quoteMark_cases with hmark | hmark <;> rw [hmark] <;> decide

/-- Texts that begin with lists of names begin with the same list. -/
theorem namePieces_append_inj {names others : List String} {rest left : List Char}
    (hrest : ∀ c ∈ rest.head?, c ≠ dialect.quoteMark ∧ c ≠ ',')
    (hleft : ∀ c ∈ left.head?, c ≠ dialect.quoteMark ∧ c ≠ ',')
    (hsame : (dialect.piecesText (namePieces names)).toList ++ rest =
      (dialect.piecesText (namePieces others)).toList ++ left) :
    names = others ∧ rest = left := by
  have hquote : ∀ {name : String} {names : List String} {rest left : List Char},
      (∀ c ∈ left.head?, c ≠ dialect.quoteMark ∧ c ≠ ',') →
        (dialect.piecesText (namePieces (name :: names))).toList ++ rest ≠ left := by
    rintro name names rest left hleft rfl
    refine (hleft dialect.quoteMark ?_).1 rfl
    rw [piecesText_namePieces_cons, toList_quoteName]
    rfl
  induction names generalizing others with
  | nil =>
      cases others with
      | nil => exact ⟨rfl, hsame⟩
      | cons other others => exact absurd hsame.symm (hquote hrest)
  | cons name names ih =>
      cases others with
      | nil => exact absurd hsame (hquote hleft)
      | cons other others =>
          rw [piecesText_namePieces_cons, piecesText_namePieces_cons, List.append_assoc,
            List.append_assoc] at hsame
          obtain ⟨rfl, htail⟩ := quoteName_append_inj (head?_furtherNames names hrest)
            (head?_furtherNames others hleft) hsame
          cases names with
          | nil =>
              cases others with
              | nil => exact ⟨rfl, htail⟩
              | cons other others =>
                  exact absurd rfl (hrest ',' (congrArg List.head? htail)).2
          | cons following names =>
              cases others with
              | nil => exact absurd rfl (hleft ',' (congrArg List.head? htail).symm).2
              | cons other others =>
                  have hnext := ih (List.tail_eq_of_cons_eq (List.tail_eq_of_cons_eq htail))
                  exact ⟨congrArg _ hnext.1, hnext.2⟩

/-- Lists of names have the same text only if they are the same list. -/
theorem piecesText_namePieces_injective :
    Function.Injective fun names : List String => dialect.piecesText (namePieces names) := by
  intro names others hsame
  have htexts : (dialect.piecesText (namePieces names)).toList ++ [] =
      (dialect.piecesText (namePieces others)).toList ++ [] :=
    congrArg (fun text : String => text.toList ++ []) hsame
  exact (namePieces_append_inj (by simp) (by simp) htexts).1

/-- A quoted name is read back from a text that goes on behind it, whatever characters it has:
reading a text gives a name and a rest exactly if the text is that name in quotes and then that
rest, which does not begin with the quote character.  So names, and lists of names, have the same
text only if they are the same. -/
theorem quoted_names_read_back (dialect : Dialect) :
    (∀ text name rest : String, dialect.readQuoted text = some (name, rest) ↔
      text = dialect.quoteName name ++ rest ∧
        rest.toList.head? ≠ some dialect.quoteMark) ∧
    Function.Injective dialect.quoteName ∧
    Function.Injective fun names : List String => dialect.piecesText (namePieces names) := by
  refine ⟨fun text name rest => ?_, fun name other hsame => ?_, piecesText_namePieces_injective⟩
  · constructor
    · exact eq_quoteName_of_readQuoted
    · intro hquoted
      rw [hquoted.1]
      exact readQuoted_quoteName hquoted.2
  · have htexts := congrArg String.toList hsame
    have happend : (dialect.quoteName name).toList ++ [] =
        (dialect.quoteName other).toList ++ [] := by rw [htexts]
    exact (quoteName_append_inj (by simp) (by simp) happend).1

/-- A name of quotes only, the empty name and a name with quotes at both ends. -/
example : Dialect.readQuoted .postgres "\"\"\"\"\"\" = 1" = some ("\"\"", " = 1") ∧
    Dialect.readQuoted .mysql "\x60\x60, x" = some ("", ", x") ∧
    Dialect.readQuoted .sqlite "\"\"\"a\"\"\"" = some ("\"a\"", "") := by decide

/-! ## Places -/

/-- The character with which places begin. -/
def placeSign : Dialect → Char
  | postgres => '$'
  | sqlite | mysql => '?'

/-- The digits of a place. -/
def placeDigits (dialect : Dialect) (number : Nat) : List Char :=
  match dialect with
  | postgres | sqlite => (toString number).toList
  | mysql => []

theorem toList_placeholder (dialect : Dialect) (number : Nat) :
    (dialect.placeholder number).toList = dialect.placeSign :: dialect.placeDigits number := by
  cases dialect with
  | postgres => exact String.toList_append
  | sqlite => exact String.toList_append
  | mysql => simp [placeholder, placeSign, placeDigits]

theorem isDigit_of_mem_toString {number : Nat} {c : Char} (hc : c ∈ (toString number).toList) :
    c.isDigit = true := by
  rw [Nat.toString_eq_repr, Nat.toList_repr] at hc
  exact Nat.isDigit_of_mem_toDigits (by decide) (by decide) hc

theorem isDigit_of_mem_placeDigits {number : Nat} {c : Char}
    (hc : c ∈ dialect.placeDigits number) : c.isDigit = true := by
  cases dialect with
  | postgres => exact isDigit_of_mem_toString hc
  | sqlite => exact isDigit_of_mem_toString hc
  | mysql => cases hc

theorem placeSign_cases (dialect : Dialect) :
    dialect.placeSign = '$' ∨ dialect.placeSign = '?' := by
  cases dialect
  · exact .inl rfl
  · exact .inr rfl
  · exact .inr rfl

/-- The digits of a place are those that its sign is followed by. -/
theorem takeWhile_placeDigits (number : Nat) {rest : List Char}
    (hrest : ∀ c ∈ rest.head?, c.isDigit = false) :
    (dialect.placeDigits number ++ rest).takeWhile Char.isDigit = dialect.placeDigits number := by
  rw [List.takeWhile_append_of_pos fun c => isDigit_of_mem_placeDigits]
  cases rest with
  | nil => simp
  | cons c rest => simp [hrest c rfl]

/-- Texts that begin with places go on alike behind them. -/
theorem placeholder_append_inj {number other : Nat} {rest left : List Char}
    (hrest : ∀ c ∈ rest.head?, c.isDigit = false) (hleft : ∀ c ∈ left.head?, c.isDigit = false)
    (hsame : (dialect.placeholder number).toList ++ rest =
      (dialect.placeholder other).toList ++ left) : rest = left := by
  rw [toList_placeholder, toList_placeholder, List.cons_append, List.cons_append,
    List.cons.injEq] at hsame
  have hdigits : dialect.placeDigits number = dialect.placeDigits other := by
    rw [← takeWhile_placeDigits number hrest, hsame.2, takeWhile_placeDigits other hleft]
  rw [hdigits] at hsame
  exact List.append_cancel_left hsame.2

end AggregateSync.Dialect
