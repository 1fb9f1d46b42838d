import AggregateSync.Error

/-!
# Rows

A row holds the values of a query's columns.  Nothing forces the two lists to have
one length: a value is found through the position of its column, and where a name
occurs several times the last position counts.
-/

namespace AggregateSync

structure Row where
  columns : List String
  values : List Value

namespace Row

/-- The last position of a column. -/
def indexOf? (row : Row) (column : String) : Option Nat :=
  (row.columns.reverse.idxOf? column).map fun fromEnd => row.columns.length - 1 - fromEnd

def hasColumn (row : Row) (column : String) : Bool := row.columns.contains column

def value? (row : Row) (column : String) : Option Value :=
  (row.indexOf? column).bind fun index => row.values[index]?

/-- A column that shows one value wherever it stands in a row has this value. -/
theorem value?_eq_of_forall {row : Row} {column : String} {value : Value}
    (hcolumn : column ∈ row.columns)
    (hshows : ∀ index : Nat, row.columns[index]? = some column → row.values[index]? = some value) :
    row.value? column = some value := by
  obtain ⟨fromEnd, hfromEnd⟩ : ∃ fromEnd, row.columns.reverse.idxOf? column = some fromEnd :=
    Option.isSome_iff_exists.1 (List.isSome_idxOf?.2 (List.mem_reverse.2 hcolumn))
  obtain ⟨hbound, hfound, _⟩ := List.findIdx?_eq_some_iff_getElem.1 hfromEnd
  rw [List.length_reverse] at hbound
  rw [beq_iff_eq, List.getElem_reverse] at hfound
  have hindex : row.columns.length - 1 - fromEnd < row.columns.length := by omega
  rw [value?, indexOf?, hfromEnd, Option.map_some, Option.bind_some]
  exact hshows _ (by rw [List.getElem?_eq_getElem hindex, hfound])

/-- The columns with their values, as far as both go. -/
def entries (row : Row) : List (String × Value) := row.columns.zip row.values

/-- The value of a column, converted.  Errors name the column. -/
def converted {α : Type} (row : Row) (convert : Value → Except ConversionError α)
    (column : String) : Result α :=
  match row.value? column with
  | none => .error (.conversion
      ⟨"column", "no column named '" ++ column ++ "'", some column⟩)
  | some value =>
    match convert value with
    | .ok a => .ok a
    | .error e => .error (.conversion (e.inColumn column))

end Row

end AggregateSync
