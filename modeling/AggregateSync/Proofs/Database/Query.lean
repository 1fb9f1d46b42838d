import AggregateSync.Proofs.Database.Store
import AggregateSync.Proofs.Mapping.Width
import AggregateSync.Proofs.Session.Batching
import AggregateSync.Proofs.Sql.Truth

/-!
# Queries

A database shows the rows of a table that satisfy the filter of a query, in some order and with
integers of any width; under a limit it shows some of them.  How it compares values is its own
business.
-/

namespace AggregateSync

namespace Record

/-- What a query reads in some columns. -/
def row (record : Record) (columns : List String) : Row := ⟨columns, columns.map record.cell⟩

theorem value?_row (record : Record) {columns : List String} {column : String}
    (hcolumn : column ∈ columns) :
    (record.row columns).value? column = some (record.cell column) := by
  refine Row.value?_eq_of_forall hcolumn fun index (hindex : columns[index]? = _) => ?_
  rw [row, List.getElem?_map, hindex, Option.map_some]

end Record

namespace ClassMapping

variable {mapping : ClassMapping} {row row' : Row}

/-- Only the values of the mapped columns matter to the entity of a row. -/
theorem hydrate_congr
    (hrows : ∀ property ∈ mapping.columns, row.value? property.column =
      row'.value? property.column) : mapping.hydrate row = mapping.hydrate row' := by
  have hfill : ∀ properties ⊆ mapping.columns, ∀ e,
      mapping.fill row properties e = mapping.fill row' properties e := by
    intro properties
    induction properties with
    | nil => exact fun _ _ => rfl
    | cons property rest ih =>
        intro hsubset e
        obtain ⟨hmember, hrest⟩ := List.cons_subset.1 hsubset
        rw [fill, fill, hrows property hmember]
        split
        · exact congrArg _ (funext (ih hrest))
        · exact ih hrest e
  exact hfill _ (List.Subset.refl _) _

/-- The entity of a stored row. -/
def hydrateRecord (mapping : ClassMapping) (record : Record) : Result Entity :=
  mapping.hydrate (record.row (mapping.columns.map Property.column))

/-- Further columns do not matter to the entity of a stored row. -/
theorem hydrate_row {record : Record} {columns : List String}
    (hcolumns : mapping.columns.map Property.column ⊆ columns) :
    mapping.hydrate (record.row columns) = mapping.hydrateRecord record :=
  hydrate_congr fun property hproperty => by
    have hcolumn := List.mem_map_of_mem (f := Property.column) hproperty
    rw [record.value?_row (hcolumns hcolumn), record.value?_row hcolumn]

end ClassMapping

/-- The rows of a database, and how it compares values and understands fragments of SQL. -/
structure Database extends Engine where
  records : List Record

namespace Database

variable {database : Database}

/-- Is the row one of the table of a query that satisfies its filter? -/
def selects (database : Database) (select : Select) (record : Record) : Bool :=
  database.toEngine.selects select.table select.filter record

/-- The rows answer a query: they show the stored rows that it selects, or under a limit some
of these. -/
def Shows (database : Database) (select : Select) (rows : List Row) : Prop :=
  ∃ chosen : List Record,
    List.Forall₂ (fun record row => (record.row select.columns).Alike row) chosen rows ∧
    chosen.Subperm (database.records.filter (database.selects select)) ∧
    (select.limit = none → select.offset = none →
      chosen.Perm (database.records.filter (database.selects select)))

/-- Every row of an answer shows a stored row that the query selects. -/
theorem Shows.exists_record {select : Select} {rows : List Row} {row : Row}
    (hshows : database.Shows select rows) (hrow : row ∈ rows) :
    ∃ record ∈ database.records, database.selects select record = true ∧
      (record.row select.columns).Alike row := by
  obtain ⟨chosen, hrows, hsub, _⟩ := hshows
  obtain ⟨record, hrecord, halike⟩ := exists_item_of_forall₂ hrows hrow
  obtain ⟨hstored, hselects⟩ := List.mem_filter.1 (hsub.subset hrecord)
  exact ⟨record, hstored, hselects, halike⟩

/-- A query for children selects the rows of the table that have one of the values in the column
of the foreign key, and the constant of the subset if there is one. -/
theorem selects_childQuery {relation : Relation} {foreignKey : ForeignKey} {child : ClassMapping}
    {values : List Value} {record : Record} :
    database.selects (childQuery relation foreignKey child values) record = true ↔
      record.table = child.table ∧
      (∃ value ∈ values,
        database.compare .eq (record.cell foreignKey.column) value = .yes) ∧
      ∀ subset ∈ relation.subset,
        database.compare .eq (record.cell subset.column) subset.value = .yes := by
  have hamong : (Expr.among foreignKey.column values).truth (database.reading record) = .yes ↔
      ∃ value ∈ values, database.compare .eq (record.cell foreignKey.column) value = .yes := by
    rw [Expr.among, Expr.truth, Expr.value]
    exact (Truth.truth_value _).symm ▸ Expr.anyEqual_literals_eq_yes _
  rw [selects, Engine.selects, childQuery_eq, Bool.and_eq_true, beq_iff_eq]
  refine and_congr_right fun _ => ?_
  cases relation.subset with
  | none => simpa using hamong
  | some subset =>
      simp only [Option.elim_some, Option.all_some, decide_eq_true_iff, Expr.truth_and,
        Truth.and_eq_yes, hamong, Expr.truth_columnIs, Option.mem_some_iff, forall_eq']
      rfl

end Database

end AggregateSync
