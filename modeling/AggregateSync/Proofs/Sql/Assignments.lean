import AggregateSync.Proofs.Sql.Calls
import Mathlib.Data.List.Induction
import Mathlib.Data.List.Nodup

/-!
# Assigned columns

The columns of a new row and of a change of rows form a map that remembers its order: a column
keeps the place of its first assignment and has the value of its last.  The columns and their
values may also stand in two lists side by side, where the place of a column in the first is that
of its value in the second; both ways assign alike.
-/

namespace AggregateSync

/-- Assigns several columns in turn. -/
def assignAll (entries : List (String × Value)) : List (String × Value) :=
  entries.foldl (fun assigned entry => assign entry.1 entry.2 assigned) []

/-! ## One assignment -/

theorem lookup_assign (column other : String) (value : Value)
    (entries : List (String × Value)) :
    (assign column value entries).lookup other =
      if other = column then some value else entries.lookup other := by
  induction entries with
  | nil =>
      by_cases hother : other = column
      · simp [assign, hother]
      · simp [assign, hother, List.lookup_cons, beq_eq_false_iff_ne.2 hother]
  | cons entry rest ih =>
      obtain ⟨name, old⟩ := entry
      by_cases hname : name = column
      · subst hname
        by_cases hother : other = name
        · simp [assign, hother]
        · simp [assign, hother, List.lookup_cons, beq_eq_false_iff_ne.2 hother]
      · by_cases hother : other = name
        · subst hother
          simp [assign, hname]
        · simp [assign, hname, List.lookup_cons, beq_eq_false_iff_ne.2 hother, ih]

/-- Assigning a column adds it if it was not assigned before. -/
theorem columns_assign (column : String) (value : Value) (entries : List (String × Value)) :
    (assign column value entries).map Prod.fst =
      if column ∈ entries.map Prod.fst then entries.map Prod.fst
      else entries.map Prod.fst ++ [column] := by
  induction entries with
  | nil => rfl
  | cons entry rest ih =>
      obtain ⟨name, old⟩ := entry
      by_cases hname : name = column
      · subst hname
        simp [assign]
      · have hother : column ≠ name := fun hsame => hname hsame.symm
        rw [assign, if_neg hname, List.map_cons, List.map_cons, ih]
        simp only [List.mem_cons, hother, false_or]
        split <;> rfl

/-- One assignment keeps the columns distinct. -/
theorem nodup_assign {entries : List (String × Value)} (hnodup : (entries.map Prod.fst).Nodup)
    (column : String) (value : Value) : ((assign column value entries).map Prod.fst).Nodup := by
  rw [columns_assign]
  split
  case isTrue => exact hnodup
  case isFalse hfresh =>
    rw [List.nodup_append]
    refine ⟨hnodup, List.nodup_singleton _, ?_⟩
    intro other hother assigned hassigned hsame
    rw [List.mem_singleton.1 hassigned] at hsame
    exact hfresh (hsame ▸ hother)

/-- A column that was assigned gets its new value where it stands, and one that was not comes
last. -/
def placed (column : String) (value : Value) (entries : List (String × Value)) :
    List (String × Value) :=
  if column ∈ entries.map Prod.fst then
    entries.map fun entry => if entry.1 = column then (column, value) else entry
  else entries ++ [(column, value)]

theorem assign_eq_placed {entries : List (String × Value)}
    (hnodup : (entries.map Prod.fst).Nodup) (column : String) (value : Value) :
    assign column value entries = placed column value entries := by
  induction entries with
  | nil => rfl
  | cons entry rest ih =>
      obtain ⟨name, old⟩ := entry
      rw [List.map_cons, List.nodup_cons] at hnodup
      by_cases hname : name = column
      · subst hname
        -- no other entry is of the column, so the rest stays as it is
        have hkept : ∀ entry ∈ rest,
            (if entry.1 = name then (name, value) else entry) = id entry := by
          intro entry hentry
          rw [if_neg]
          · rfl
          · exact fun hsame => hnodup.1 (List.mem_map.2 ⟨entry, hentry, hsame⟩)
        simp [assign, placed, List.map_congr_left hkept]
      · have hother : column ≠ name := fun hsame => hname hsame.symm
        rw [assign, if_neg hname, ih hnodup.2]
        simp only [placed, List.map_cons, List.mem_cons, hother, false_or, hname, if_false]
        split <;> rfl

/-! ## Several assignments -/

theorem assignAll_append (entries others : List (String × Value)) :
    assignAll (entries ++ others) =
      others.foldl (fun assigned entry => assign entry.1 entry.2 assigned)
        (assignAll entries) := by
  rw [assignAll, List.foldl_append, assignAll]

theorem assignAll_concat (entries : List (String × Value)) (entry : String × Value) :
    assignAll (entries ++ [entry]) = assign entry.1 entry.2 (assignAll entries) := by
  rw [assignAll_append, List.foldl_cons, List.foldl_nil]

/-- A column gets the last value that is assigned to it. -/
theorem lookup_assignAll (column : String) (entries : List (String × Value)) :
    (assignAll entries).lookup column = entries.reverse.lookup column := by
  induction entries using List.reverseRecOn with
  | nil => rfl
  | append_singleton entries entry ih =>
      obtain ⟨name, value⟩ := entry
      rw [assignAll_concat, lookup_assign, ih, List.reverse_append, List.reverse_singleton,
        List.singleton_append]
      by_cases hcolumn : column = name
      · simp [hcolumn]
      · simp [hcolumn, List.lookup_cons, beq_eq_false_iff_ne.2 hcolumn]

/-- No column is assigned twice. -/
theorem nodup_assignAll (entries : List (String × Value)) :
    ((assignAll entries).map Prod.fst).Nodup := by
  induction entries using List.reverseRecOn with
  | nil => exact .nil
  | append_singleton entries entry ih =>
      rw [assignAll_concat]
      exact nodup_assign ih entry.1 entry.2

/-- The columns stand in the order in which they are first named. -/
theorem columns_assignAll (entries : List (String × Value)) :
    (assignAll entries).map Prod.fst = (entries.map Prod.fst).eraseDups := by
  induction entries using List.reverseRecOn with
  | nil => rfl
  | append_singleton entries entry ih =>
      rw [assignAll_concat, columns_assign, ih, List.map_append, List.map_singleton,
        List.eraseDups_append, List.cons_removeAll]
      by_cases hcolumn : entry.1 ∈ entries.map Prod.fst
      · have hcontains : (entries.map Prod.fst).contains entry.1 = true :=
          List.contains_iff_mem.2 hcolumn
        rw [if_pos (List.mem_eraseDups.2 hcolumn), hcontains]
        exact (List.append_nil _).symm
      · have hcontains : (entries.map Prod.fst).contains entry.1 = false := by
          rwa [← Bool.not_eq_true, List.contains_iff_mem]
        rw [if_neg fun hmem => hcolumn (List.mem_eraseDups.1 hmem), hcontains]
        rfl

/-- Every column that an entry names is assigned. -/
theorem mem_columns_assignAll {entries : List (String × Value)} {column : String} :
    column ∈ (assignAll entries).map Prod.fst ↔ column ∈ entries.map Prod.fst := by
  rw [columns_assignAll, List.mem_eraseDups]

/-- A column on whose value all entries agree has that value. -/
theorem lookup_eq_some_of_agree {entries : List (String × Value)} {column : String}
    {value : Value} (hentry : (column, value) ∈ entries)
    (hagree : ∀ entry ∈ entries, entry.1 = column → entry.2 = value) :
    entries.lookup column = some value := by
  induction entries with
  | nil => exact absurd hentry List.not_mem_nil
  | cons entry rest ih =>
      obtain ⟨name, found⟩ := entry
      by_cases hname : column = name
      · have hfound : found = value := hagree _ List.mem_cons_self hname.symm
        rw [List.lookup_cons, hname, beq_self_eq_true, hfound]
      · rw [List.lookup_cons, beq_eq_false_iff_ne.2 hname]
        apply ih
        · exact (List.mem_cons.1 hentry).resolve_left fun hsame => hname (congrArg Prod.fst hsame)
        · exact fun entry hrest => hagree entry (List.mem_cons_of_mem _ hrest)

theorem lookup_eq_some_of_nodup {entries : List (String × Value)}
    (hnodup : (entries.map Prod.fst).Nodup) {column : String} {value : Value}
    (hentry : (column, value) ∈ entries) : entries.lookup column = some value := by
  apply lookup_eq_some_of_agree hentry
  intro entry hother hcolumn
  have hsame := List.inj_on_of_nodup_map hnodup hother hentry hcolumn
  rw [hsame]

theorem assignAll_ne_nil {entries : List (String × Value)} (hentries : entries ≠ []) :
    assignAll entries ≠ [] := by
  intro hempty
  obtain ⟨entry, hentry⟩ := List.exists_mem_of_ne_nil entries hentries
  have hassigned := mem_columns_assignAll.2 (List.mem_map_of_mem hentry)
  rw [hempty] at hassigned
  exact absurd hassigned List.not_mem_nil

/-- The assignments are those of several entries: each column that they name stands there once,
in the order in which they first name it, with the value that they last give it. -/
structure AssignedBy (entries assignments : List (String × Value)) : Prop where
  once : (assignments.map Prod.fst).Nodup
  order : assignments.map Prod.fst = (entries.map Prod.fst).eraseDups
  last : ∀ column, assignments.lookup column = entries.reverse.lookup column

theorem assignedBy_assignAll (entries : List (String × Value)) :
    AssignedBy entries (assignAll entries) :=
  ⟨nodup_assignAll entries, columns_assignAll entries,
    fun column => lookup_assignAll column entries⟩

/-! ## Calls -/

namespace Insert

theorem foldl_value (entries : List (String × Value)) (insert : Insert) :
    entries.foldl (fun insert entry => insert.value entry.1 entry.2) insert =
      ⟨insert.table, entries.foldl (fun assigned entry => assign entry.1 entry.2 assigned)
        insert.assignments⟩ := by
  induction entries generalizing insert with
  | nil => rfl
  | cons entry rest ih => exact ih _

/-- The assignments of a new row are those of its calls. -/
theorem assignments_built (table : String) (calls : List (String × Value)) :
    (built table calls).assignments = assignAll calls := by
  rw [built, foldl_value]
  rfl

theorem hasColumn_iff {insert : Insert} {column : String} :
    insert.hasColumn column = true ↔ column ∈ insert.assignments.map Prod.fst :=
  List.contains_iff_mem

end Insert

namespace Update

theorem foldl_set (entries : List (String × Value)) (update : Update) :
    entries.foldl (fun update entry => update.set entry.1 entry.2) update =
      ⟨update.table, entries.foldl (fun assigned entry => assign entry.1 entry.2 assigned)
        update.assignments, update.filter⟩ := by
  induction entries generalizing update with
  | nil => rfl
  | cons entry rest ih => exact ih _

/-- The column and value of a call that assigns one. -/
def Call.assignment? : Call → Option (String × Value)
  | .set column value => some (column, value)
  | .filter _ => none

theorem assignments_foldl_call (calls : List Call) (update : Update) :
    (calls.foldl call update).assignments =
      (calls.filterMap Call.assignment?).foldl
        (fun assigned entry => assign entry.1 entry.2 assigned) update.assignments := by
  induction calls generalizing update with
  | nil => rfl
  | cons call rest ih =>
      rw [List.foldl_cons, ih]
      cases call <;> rfl

/-- The assignments of a change are those of its calls, whatever conditions come between. -/
theorem assignments_built (table : String) (calls : List Call) :
    (built table calls).assignments = assignAll (calls.filterMap Call.assignment?) :=
  assignments_foldl_call calls (ofTable table)

end Update

/-! ## Two lists side by side -/

/-- Columns, and their values at the same places. -/
structure ColumnLists where
  columns : List String
  values : List Value

namespace ColumnLists

/-- Nothing assigned. -/
def empty : ColumnLists := ⟨[], []⟩

/-- Puts a value at the place of its column, or both at the end if it has none. -/
def put (lists : ColumnLists) (column : String) (value : Value) : ColumnLists :=
  match lists.columns.findIdx? (· == column) with
  | some index => { lists with values := lists.values.set index value }
  | none => ⟨lists.columns ++ [column], lists.values ++ [value]⟩

/-- Assignments as two lists. -/
def ofAssignments (assignments : List (String × Value)) : ColumnLists :=
  ⟨assignments.map Prod.fst, assignments.map Prod.snd⟩

theorem length_ofAssignments (assignments : List (String × Value)) :
    (ofAssignments assignments).columns.length = (ofAssignments assignments).values.length := by
  rw [ofAssignments, List.length_map, List.length_map]

/-- Putting a value into the two lists of some assignments assigns it. -/
theorem put_ofAssignments (assignments : List (String × Value)) (column : String)
    (value : Value) :
    (ofAssignments assignments).put column value =
      ofAssignments (assign column value assignments) := by
  induction assignments with
  | nil => rfl
  | cons assignment rest ih =>
      obtain ⟨name, old⟩ := assignment
      by_cases hname : name = column
      · simp [put, ofAssignments, assign, hname, List.findIdx?_cons]
      · -- the search goes on behind the first column, and so does the assignment
        have hfirst : (name == column) = false := beq_eq_false_iff_ne.2 hname
        rw [assign, if_neg hname]
        simp only [put, ofAssignments, List.map_cons, List.findIdx?_cons, hfirst,
          Bool.false_eq_true, if_false] at ih ⊢
        cases hfind : (rest.map Prod.fst).findIdx? (· == column) with
        | none =>
            simp only [hfind, mk.injEq] at ih
            simp [ih.1, ih.2]
        | some index =>
            simp only [hfind, mk.injEq] at ih
            simp [ih.1, ih.2]

/-- The two lists after several calls are those of the assignments. -/
theorem foldl_put (calls : List (String × Value)) :
    calls.foldl (fun lists call => lists.put call.1 call.2) empty =
      ofAssignments (assignAll calls) := by
  induction calls using List.reverseRecOn with
  | nil => rfl
  | append_singleton calls call ih =>
      rw [List.foldl_append, List.foldl_cons, List.foldl_nil, ih, put_ofAssignments,
        assignAll_concat]

end ColumnLists

end AggregateSync
