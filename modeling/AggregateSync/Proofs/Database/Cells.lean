import AggregateSync.Proofs.Database.Rows

/-!
# Cells of written rows

The columns of a row are different, so the order in which they are assigned does not
matter: an INSERT makes the row that holds what the member shows once its key was assigned,
and an UPDATE replaces the columns that it names.
-/

namespace AggregateSync

/-! ## Columns that are assigned -/

/-- Assigning different columns in turn lists them. -/
theorem assignAll_of_nodup {entries : List (String × Value)}
    (hcolumns : (entries.map Prod.fst).Nodup) : assignAll entries = entries := by
  induction entries using List.reverseRecOn with
  | nil => rfl
  | append_singleton entries entry ih =>
      rw [List.map_append, List.nodup_append] at hcolumns
      have hfresh : entry.1 ∉ entries.map Prod.fst := fun hmem =>
        hcolumns.2.2 _ hmem _ (List.mem_singleton_self _) rfl
      rw [assignAll_concat, ih hcolumns.1, assign_eq_placed hcolumns.1, placed, if_neg hfresh]

theorem mem_of_lookup_eq_some {entries : List (String × Value)} {column : String}
    {value : Value} (hlookup : entries.lookup column = some value) :
    (column, value) ∈ entries := by
  obtain ⟨_, _, rfl, _⟩ := List.lookup_eq_some_iff.1 hlookup
  exact List.mem_append_right _ List.mem_cons_self

theorem lookup_eq_none_iff_not_mem {entries : List (String × Value)} {column : String} :
    entries.lookup column = none ↔ column ∉ entries.map Prod.fst := by
  simp only [List.lookup_eq_none_iff, List.mem_map, bne_iff_ne]
  constructor
  · rintro hnone ⟨entry, hentry, rfl⟩
    exact hnone entry hentry rfl
  · rintro hnone entry hentry rfl
    exact hnone ⟨entry, hentry, rfl⟩

theorem lookup_of_perm {entries others : List (String × Value)} (hperm : entries.Perm others)
    (hcolumns : (entries.map Prod.fst).Nodup) (column : String) :
    entries.lookup column = others.lookup column := by
  have hcolumns' : (others.map Prod.fst).Nodup := (hperm.map _).nodup_iff.1 hcolumns
  cases hlookup : others.lookup column with
  | none =>
      rw [List.lookup_eq_none_iff] at hlookup ⊢
      intro entry hentry
      exact hlookup entry (hperm.mem_iff.1 hentry)
  | some value =>
      apply lookup_eq_some_of_nodup hcolumns
      rw [hperm.mem_iff]
      exact mem_of_lookup_eq_some hlookup

/-- Other values for some columns of a row, and a part of what it holds already, give the row
with the other values. -/
theorem lookup_overwrite {keys own own' link extra : List (String × Value)}
    (hcolumns : ((keys ++ own' ++ link).map Prod.fst).Nodup)
    (hown : own'.map Prod.fst = own.map Prod.fst) (hextra : ∀ entry ∈ extra, entry ∈ link)
    (column : String) :
    ((own' ++ extra).lookup column).or ((keys ++ own ++ link).lookup column) =
      (keys ++ own' ++ link).lookup column := by
  have hapart : ∀ value, (column, value) ∈ own' ++ link → keys.lookup column = none := by
    intro value hentry
    rw [List.append_assoc, List.map_append, List.nodup_append] at hcolumns
    rw [lookup_eq_none_iff_not_mem]
    intro hkey
    exact hcolumns.2.2 column hkey column (List.mem_map_of_mem hentry) rfl
  simp only [List.lookup_append]
  cases hnew : own'.lookup column with
  | some value =>
      rw [hapart value (List.mem_append_left _ (mem_of_lookup_eq_some hnew))]
      rfl
  | none =>
      rw [lookup_eq_none_iff_not_mem, hown, ← lookup_eq_none_iff_not_mem] at hnew
      rw [hnew]
      cases hheld : extra.lookup column with
      | none => rfl
      | some value =>
          have hentry := hextra _ (mem_of_lookup_eq_some hheld)
          rw [hapart value (List.mem_append_right _ hentry)]
          rw [List.map_append, List.nodup_append] at hcolumns
          rw [lookup_eq_some_of_nodup hcolumns.2.1 hentry]
          rfl

/-! ## New rows -/

namespace ClassMapping

/-- Properties that show no DEFAULT are assigned none. -/
theorem isBound_entries {mapping : ClassMapping} {e : Entity}
    (hbound : ∀ property ∈ mapping.columns, (e.read property.field).isBound = true)
    {properties : List Property}
    (hproperties : ∀ property ∈ properties, property ∈ mapping.columns) :
    ∀ entry ∈ entries e properties, entry.2.isBound = true := by
  intro entry hentry
  obtain ⟨property, hproperty, rfl⟩ := List.mem_map.1 hentry
  exact hbound property (hproperties property hproperty)

/-- At most one key is assigned by the database. -/
theorem filter_generated (mapping : ClassMapping) :
    mapping.keys.filter Property.generated = mapping.generatedKey?.toList := by
  have hone : (mapping.keys.filter Property.generated).length ≤ 1 := by
    by_contra hmany
    have hsound := mapping.sound
    rw [ClassDeclaration.fault?] at hsound
    split at hsound
    · cases hsound
    · rw [if_pos (Nat.lt_of_not_le hmany)] at hsound
      cases hsound
  rw [generatedKey?, ← List.head?_filter]
  cases hgenerated : mapping.keys.filter Property.generated with
  | nil => rfl
  | cons first rest =>
      rw [hgenerated, List.length_cons] at hone
      obtain rfl := List.length_eq_zero_iff.1 (Nat.le_zero.1 (Nat.le_of_succ_le_succ hone))
      rfl

theorem eq_of_generated {mapping : ClassMapping} {key assigned : Property}
    (hkey : key ∈ mapping.keys) (hgenerated : key.generated = true)
    (hassigned : mapping.generatedKey? = some assigned) : key = assigned := by
  have hmem : key ∈ mapping.keys.filter Property.generated :=
    List.mem_filter.2 ⟨hkey, hgenerated⟩
  rw [mapping.filter_generated, hassigned] at hmem
  exact List.mem_singleton.1 hmem

variable {mapping : ClassMapping} {e saved : Entity} {link : List (String × Value)} {id : Int64}

theorem entries_append (e : Entity) (properties others : List Property) :
    entries e (properties ++ others) = entries e properties ++ entries e others :=
  List.map_append

theorem filter_awaits (mapping : ClassMapping) (e : Entity) :
    mapping.keys.filter (awaits e) =
      mapping.generatedKey?.toList.filter fun key => (e.read key.field).isUnsaved := by
  rw [← filter_generated, List.filter_filter]
  apply List.filter_congr
  intro key _
  rw [awaits, Bool.and_comm]

/-- What an INSERT gives to the columns of the new row, in turn. -/
def assignedEntries (mapping : ClassMapping) (e : Entity) (link : List (String × Value)) :
    List (String × Value) :=
  entries e (mapping.keys.filter fun key => !awaits e key) ++
    entries e mapping.writableProperties ++ link

theorem map_fst_assignedEntries : (mapping.assignedEntries e link).map Prod.fst =
    (mapping.keys.filter fun key => !awaits e key).map Property.column ++
      mapping.writableProperties.map Property.column ++ link.map Prod.fst := by
  simp only [assignedEntries, entries, List.map_append, List.map_map]
  rfl

/-- The INSERT of a member assigns these. -/
theorem memberInsert_eq (mapping : ClassMapping) (e : Entity) (extra : Option (String × Value))
    (subset : Option SubsetColumn) :
    memberInsert mapping e extra subset = ⟨mapping.table, assignAll (mapping.assignedEntries e
      (extra.toList ++ (subset.map SubsetColumn.entry).toList))⟩ := by
  rw [memberInsert, assignedEntries, List.append_assoc]

theorem nodup_assignedEntries
    (hcolumns : (mapping.ownColumns ++ link.map Prod.fst).Nodup) :
    ((mapping.assignedEntries e link).map Prod.fst).Nodup := by
  rw [map_fst_assignedEntries]
  rw [ownColumns, List.map_append] at hcolumns
  refine hcolumns.sublist (List.Sublist.append ?_ (List.Sublist.refl _))
  exact (List.filter_sublist.map _).append (List.Sublist.refl _)

/-- The INSERT leaves out the keys that are awaited, and no others. -/
theorem key_mem_assignedEntries (hcolumns : (mapping.ownColumns ++ link.map Prod.fst).Nodup)
    {key : Property} (hkey : key ∈ mapping.keys) :
    key.column ∈ (mapping.assignedEntries e link).map Prod.fst ↔ awaits e key = false := by
  rw [ownColumns, List.map_append, List.append_assoc, List.nodup_append] at hcolumns
  rw [map_fst_assignedEntries, List.append_assoc, List.mem_append]
  constructor
  · rintro (hown | hother)
    · obtain ⟨found, hfound, hcolumn⟩ := List.mem_map.1 hown
      obtain ⟨hfound, hpresent⟩ := List.mem_filter.1 hfound
      obtain rfl := List.inj_on_of_nodup_map hcolumns.1 hfound hkey hcolumn
      exact Bool.not_eq_true' _ ▸ hpresent
    · exact absurd rfl (hcolumns.2.2 _ (List.mem_map_of_mem hkey) _ hother)
  · intro hpresent
    left
    apply List.mem_map_of_mem
    rw [List.mem_filter, hpresent]
    exact ⟨hkey, rfl⟩

/-- The database assigns the keys that the INSERT leaves out. -/
theorem generatedEntries_eq (hcolumns : (mapping.ownColumns ++ link.map Prod.fst).Nodup) :
    mapping.generatedEntries (mapping.assignedEntries e link) id =
      (mapping.keys.filter (awaits e)).map fun key => (key.column, .bigInt id) := by
  rw [generatedEntries, filter_awaits]
  cases hgenerated : mapping.generatedKey? with
  | none => rfl
  | some key =>
      have hflag : key.generated = true := List.find?_some hgenerated
      have hmem := key_mem_assignedEntries (e := e) hcolumns (List.mem_of_find?_eq_some hgenerated)
      rw [awaits, hflag, Bool.true_and] at hmem
      simp only [Option.toList_some, List.filter_cons, List.filter_nil]
      cases hunsaved : (e.read key.field).isUnsaved with
      | true =>
          rw [hunsaved] at hmem
          rw [if_neg, if_pos rfl]
          · rfl
          · rw [List.contains_iff_mem, hmem]
            exact Bool.noConfusion
      | false =>
          rw [hunsaved] at hmem
          rw [if_pos, if_neg Bool.false_ne_true]
          · rfl
          · rw [List.contains_iff_mem, hmem]

/-- An INSERT is clear if neither the member nor what it carries beside is DEFAULT. -/
theorem isClear_memberInsert {extra : Option (String × Value)} {subset : Option SubsetColumn}
    (hcolumns : (mapping.ownColumns ++
      (extra.toList ++ (subset.map SubsetColumn.entry).toList).map Prod.fst).Nodup)
    (hbound : ∀ property ∈ mapping.columns, (e.read property.field).isBound = true)
    (hcarried : ∀ entry ∈ extra.toList ++ (subset.map SubsetColumn.entry).toList,
      entry.2.isBound = true) :
    (Command.insert (memberInsert mapping e extra subset)).isClear = true := by
  rw [Command.isClear, memberInsert_eq, assignAll_of_nodup (nodup_assignedEntries hcolumns),
    List.all_eq_true, assignedEntries]
  simp only [List.forall_mem_append]
  refine ⟨⟨isBound_entries hbound fun key hkey => ?_, isBound_entries hbound fun _ hproperty => ?_⟩,
    List.forall_mem_append.1 hcarried⟩
  · exact List.mem_append_left _ (List.mem_filter.1 hkey).1
  · exact mem_columns_of_own (List.mem_append_right _ hproperty)

/-- The column of a property and what the property shows, as a row has them. -/
def storedEntry (e : Entity) (key : Property) : String × Value :=
  (key.column, (e.read key.field).keyForm)

theorem inKeyForm_entries (e : Entity) (properties : List Property) :
    inKeyForm (entries e properties) = properties.map (storedEntry e) := by
  rw [inKeyForm, entries, List.map_map]
  rfl

/-- Assigned or given, each key of a new row is what the member shows once it was saved. -/
theorem inKeyForm_keys (hkeys : ∀ key ∈ mapping.keys, (saved.read key.field).keyForm =
      if awaits e key then .bigInt id else (e.read key.field).keyForm) :
    inKeyForm ((mapping.keys.filter (awaits e)).map fun key => (key.column, .bigInt id)) ++
      inKeyForm (entries e (mapping.keys.filter fun key => !awaits e key)) =
        (mapping.keys.filter (awaits e) ++ mapping.keys.filter fun key => !awaits e key).map
          (storedEntry saved) := by
  rw [inKeyForm_entries, inKeyForm, List.map_map, List.map_append]
  congr 1
  · apply List.map_congr_left
    intro key hkey
    obtain ⟨hkey, hawaits⟩ := List.mem_filter.1 hkey
    simp only [Function.comp_apply, storedEntry, hkeys key hkey, hawaits, if_true]
    rfl
  · apply List.map_congr_left
    intro key hkey
    obtain ⟨hkey, hpresent⟩ := List.mem_filter.1 hkey
    rw [Bool.not_eq_true'] at hpresent
    simp only [storedEntry, hkeys key hkey, hpresent, Bool.false_eq_true, if_false]

/-- A member that awaits a key has it assigned when it is inserted. -/
theorem assignsKey_memberInsert {registry : Registry} (hmapping : mapping ∈ registry.mappings)
    {extra : Option (String × Value)} {subset : Option SubsetColumn}
    (hcolumns : (mapping.ownColumns ++
      (extra.toList ++ (subset.map SubsetColumn.entry).toList).map Prod.fst).Nodup)
    (hawaits : mapping.keys.any (awaits e) = true) :
    registry.assignsKey (memberInsert mapping e extra subset) = true := by
  obtain ⟨assigned, hassigned⟩ := exists_generatedKey hawaits
  obtain ⟨key, hkey, htrue⟩ := List.any_eq_true.1 hawaits
  have hgenerated : key.generated = true := (Bool.and_eq_true_iff.1 htrue).1
  obtain rfl := eq_of_generated hkey hgenerated hassigned
  have hout : (memberInsert mapping e extra subset).hasColumn key.column = false := by
    rw [← Bool.not_eq_true, Insert.hasColumn_iff, memberInsert_eq,
      assignAll_of_nodup (nodup_assignedEntries hcolumns), key_mem_assignedEntries hcolumns hkey,
      htrue]
    exact Bool.noConfusion
  rw [Registry.assignsKey, List.any_eq_true]
  refine ⟨mapping, hmapping, ?_⟩
  rw [memberInsert_eq] at hout ⊢
  rw [beq_self_eq_true, Bool.true_and, hassigned, Option.any_some, hout]
  rfl

/-- The new row holds what the member shows once the key was assigned. -/
theorem newRecord_eq (hcolumns : (mapping.ownColumns ++ link.map Prod.fst).Nodup)
    (hkeys : ∀ key ∈ mapping.keys, (saved.read key.field).keyForm =
      if awaits e key then .bigInt id else (e.read key.field).keyForm)
    (hwritable : ∀ property ∈ mapping.writableProperties,
      saved.read property.field = e.read property.field) :
    mapping.newRecord (assignAll (mapping.assignedEntries e link)) id =
      .ofEntries mapping.table
        (entries saved (mapping.keys ++ mapping.writableProperties) ++ link) := by
  have hassigned := nodup_assignedEntries (e := e) hcolumns
  rw [assignAll_of_nodup hassigned, newRecord, generatedEntries_eq hcolumns]
  have hown : entries e mapping.writableProperties = entries saved mapping.writableProperties := by
    apply List.map_congr_left
    intro property hproperty
    rw [hwritable property hproperty]
  have hperm : (inKeyForm (((mapping.keys.filter (awaits e)).map fun key =>
      (key.column, .bigInt id)) ++ mapping.assignedEntries e link)).Perm
        (inKeyForm (entries saved (mapping.keys ++ mapping.writableProperties) ++ link)) := by
    rw [assignedEntries, List.append_assoc, inKeyForm_append, inKeyForm_append, inKeyForm_append,
      ← List.append_assoc, inKeyForm_keys hkeys, hown, entries_append, List.append_assoc,
      inKeyForm_append, inKeyForm_append, inKeyForm_entries saved mapping.keys]
    exact ((List.filter_append_perm _ _).map (storedEntry saved)).append_right _
  have hlookup := lookup_of_perm hperm.symm (by
    rw [map_fst_inKeyForm, List.map_append, entries, List.map_map]
    exact hcolumns)
  rw [Record.assign, Record.ofEntries, Record.ofEntries, Record.mk.injEq]
  refine ⟨rfl, ?_⟩
  funext column
  rw [hlookup, inKeyForm_append, List.lookup_append, Option.getD_or]

end ClassMapping

end AggregateSync
