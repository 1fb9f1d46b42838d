import AggregateSync.Proofs.Session.Statements

/-!
# The columns of written rows

Key columns, properties, foreign keys and subset constants may fall on one column.  Whatever
order they are assigned in, a statement names the column once: the later value takes the place of
the earlier one.
-/

namespace AggregateSync

/-- The columns of a new row and of a change of rows are those of the calls that assign them, each
once, in the order of its first call and with the value of its last, and a new row has a column
exactly if a call names it.  Columns and values are equally many, also where they are kept in two
lists side by side.  A further assignment puts its value in the place of the column, which comes
last only if it was not there; so in the row of a new member the subset constant stands in the
place of a foreign key of its column, and both in that of a property. -/
theorem columns_stay_unique :
    (∀ (table : String) (calls : List (String × Value)),
      let insert := Insert.built table calls
      let lists := calls.foldl (fun lists call => lists.put call.1 call.2) ColumnLists.empty
      AssignedBy calls insert.assignments ∧
        (∀ column, insert.hasColumn column = true ↔ column ∈ calls.map Prod.fst) ∧
        (∀ dialect, (insert.build dialect).params.length = insert.columns.length ∧
          lists = ⟨insert.columns, (insert.build dialect).params⟩) ∧
        lists.columns.length = lists.values.length) ∧
    (∀ (table : String) (calls : List Update.Call),
      AssignedBy (calls.filterMap Update.Call.assignment?)
        (Update.built table calls).assignments) ∧
    (∀ (table : String) (calls : List (String × Value)) (column : String) (value : Value),
      let insert := Insert.built table calls
      (insert.value column value).assignments = placed column value insert.assignments) ∧
    (∀ (table : String) (calls : List Update.Call) (column : String) (value : Value),
      let update := Update.built table calls
      (update.set column value).assignments = placed column value update.assignments) ∧
    ∀ (mapping : ClassMapping) (keys properties : List (Property × Value))
      (extra : Option (String × Value)) (subset : Option SubsetColumn),
      AssignedBy (rowEntries keys properties extra subset)
        (newRow mapping keys properties extra subset).assignments := by
  have hinserted : ∀ (table : String) (calls : List (String × Value)),
      AssignedBy calls (Insert.built table calls).assignments := by
    intro table calls
    rw [Insert.assignments_built]
    exact assignedBy_assignAll calls
  have hupdated : ∀ (table : String) (calls : List Update.Call),
      AssignedBy (calls.filterMap Update.Call.assignment?)
        (Update.built table calls).assignments := by
    intro table calls
    rw [Update.assignments_built]
    exact assignedBy_assignAll _
  have hlists : ∀ (table : String) (calls : List (String × Value)),
      calls.foldl (fun lists call => lists.put call.1 call.2) ColumnLists.empty =
        ColumnLists.ofAssignments (Insert.built table calls).assignments := by
    intro table calls
    rw [Insert.assignments_built]
    exact ColumnLists.foldl_put calls
  have hcolumns : ∀ (table : String) (calls : List (String × Value)) (column : String),
      (Insert.built table calls).hasColumn column = true ↔ column ∈ calls.map Prod.fst := by
    intro table calls column
    rw [Insert.hasColumn_iff, Insert.assignments_built, mem_columns_assignAll]
  have hparams : ∀ (insert : Insert) (dialect : Dialect),
      (insert.build dialect).params.length = insert.columns.length := by
    intro insert dialect
    rw [Insert.build, Insert.columns, List.length_map, List.length_map]
  have hvalue : ∀ (table : String) (calls : List (String × Value)) (column : String)
      (value : Value), ((Insert.built table calls).value column value).assignments =
        placed column value (Insert.built table calls).assignments := by
    intro table calls column value
    apply assign_eq_placed
    rw [Insert.assignments_built]
    exact nodup_assignAll calls
  have hset : ∀ (table : String) (calls : List Update.Call) (column : String) (value : Value),
      ((Update.built table calls).set column value).assignments =
        placed column value (Update.built table calls).assignments := by
    intro table calls column value
    apply assign_eq_placed
    rw [Update.assignments_built]
    exact nodup_assignAll _
  refine ⟨fun table calls => ⟨hinserted table calls, hcolumns table calls,
    fun dialect => ⟨hparams _ dialect, hlists table calls⟩, ?_⟩, hupdated, hvalue, hset, ?_⟩
  · rw [hlists table calls, ColumnLists.length_ofAssignments]
  · intro mapping keys properties extra subset
    rw [newRow_eq]
    exact assignedBy_assignAll _

end AggregateSync
