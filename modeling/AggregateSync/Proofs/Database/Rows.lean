import AggregateSync.Proofs.Database.Store
import AggregateSync.Proofs.Graph.Alike
import AggregateSync.Proofs.Session.Run

/-!
# The rows of a graph

The row of a member holds its keys, its written properties, the constant of the relation
that holds it and, where the foreign key is no property of its own, the value that the
parent gives.  Rows are defined from what the fields of members show, so that they can be
followed while a run changes the fields; in an orderly registry no column is written
twice, and a row is known from the values in its columns.
-/

namespace AggregateSync

/-! ## Rows of members -/

/-- The columns in which the row of a child says what its parent is, beside those of its
own properties. -/
def Relation.linkEntries (relation : Relation) (parent : ClassMapping)
    (shown : Field → Value) (child : EntityType) : List (String × Value) :=
  (match relation.foreignKey? child with
    | some ⟨column, none, referenced⟩ =>
      (parent.property? referenced).toList.map fun property => (column, shown property.field)
    | _ => []) ++ (relation.subset.map SubsetColumn.entry).toList

/-- The member that holds a member, and the relation in which it does. -/
def Member.holder? (members : List Member) (member : Member) : Option (Member × Relation) := do
  let parent ← members[← member.parent]?
  let relation ← parent.mapping.relations[← member.relation]?
  return (parent, relation)

/-- A property of a member is its foreign key: it refers to a property of the member that
holds it. -/
inductive Member.Refers (members : List Member) (member : Member) :
    Member → Property → Property → Prop
  | intro {parent : Member} {relation : Relation} {foreignKey : ForeignKey} {name : String}
      {property referenced : Property}
      (hholder : member.holder? members = some (parent, relation))
      (hforeignKey : relation.foreignKey? member.mapping.type = some foreignKey)
      (hname : foreignKey.property = some name)
      (hproperty : member.mapping.property? name = some property)
      (hreferenced : parent.mapping.property? foreignKey.referenced = some referenced) :
      member.Refers members parent property referenced

/-- What a run may fill in of a member: a key that the database is yet to assign, and the
property that is its foreign key. -/
inductive Member.IsFilledIn (members : List Member) (member : Member) (field : Field) : Prop
  | key {key : Property} (hkey : key ∈ member.mapping.keys)
      (hawaits : ClassMapping.awaits member.entity key = true) (hfield : key.field = field)
  | foreignKey {parent : Member} {property referenced : Property}
      (hrefers : member.Refers members parent property referenced)
      (hfield : property.field = field)

/-- What the row of a member says about where it hangs, given what the fields of members
show. -/
def Member.linkBy (shown : Member → Field → Value) (members : List Member)
    (member : Member) : List (String × Value) :=
  match member.holder? members with
  | some (parent, relation) =>
    relation.linkEntries parent.mapping (shown parent) member.mapping.type
  | none => []

/-- The property is one that the foreign keys of children refer to. -/
def ClassMapping.IsReferenced (mapping : ClassMapping) (property : Property) : Prop :=
  ∃ relation ∈ mapping.relations, ∃ child foreignKey,
    relation.foreignKey? child = some foreignKey ∧
      mapping.property? foreignKey.referenced = some property

/-- What the row of a member holds, given what the fields of members show: its keys, its
written properties, and what says where it hangs. -/
def Member.entriesBy (shown : Member → Field → Value) (members : List Member)
    (member : Member) : List (String × Value) :=
  (member.mapping.keys ++ member.mapping.writableProperties).map
      (fun property => (property.column, shown member property.field)) ++
    member.linkBy shown members

/-- The row of a member, given what the fields of members show. -/
def Member.recordBy (shown : Member → Field → Value) (members : List Member)
    (member : Member) : Record :=
  .ofEntries member.mapping.table (member.entriesBy shown members)

/-- The row of a member of a graph. -/
def Member.record (members : List Member) (member : Member) : Record :=
  member.recordBy (fun other => other.entity.read) members

/-- The rows of a graph. -/
def recordsOf (members : List Member) : Set Record :=
  {record | ∃ member ∈ members, member.record members = record}

/-! ## Orderly registries -/

namespace ClassMapping

/-- The columns of the properties that are written. -/
def ownColumns (mapping : ClassMapping) : List String :=
  (mapping.keys ++ mapping.writableProperties).map Property.column

theorem mem_columns_of_own {mapping : ClassMapping} {property : Property}
    (hproperty : property ∈ mapping.keys ++ mapping.writableProperties) :
    property ∈ mapping.columns := by
  rcases List.mem_append.1 hproperty with hkey | hwritable
  · exact List.mem_append_left _ hkey
  · exact List.mem_append_right _ (List.mem_filter.1 hwritable).1

end ClassMapping

/-- The columns of `Relation.linkEntries`. -/
def Relation.linkColumns (relation : Relation) (child : EntityType) : List String :=
  (match relation.foreignKey? child with
    | some ⟨column, none, _⟩ => [column]
    | _ => []) ++ (relation.subset.map SubsetColumn.column).toList

/-- What a relation adds to the rows of a class stands in columns of its own, and a
foreign key that is a property of the class is a written one in its own column. -/
structure Relation.Suits (relation : Relation) (child : ClassMapping) : Prop where
  columns : (child.ownColumns ++ relation.linkColumns child.type).Nodup
  property : ∀ foreignKey name, relation.foreignKey? child.type = some foreignKey →
    foreignKey.property = some name → ∃ property ∈ child.writableProperties,
      child.property? name = some property ∧ property.column = foreignKey.column

/-- Every class has a table of its own and different columns; a key that the database
assigns is a field for whole numbers and its own; and all relations suit the classes that
they hold. -/
structure Registry.IsOrderly (registry : Registry) : Prop where
  tables : (registry.mappings.map fun mapping => mapping.table).Nodup
  columns : ∀ mapping ∈ registry.mappings, mapping.ownColumns.Nodup
  integers : ∀ mapping ∈ registry.mappings, ∀ key ∈ mapping.keys, key.generated = true →
    key.field.type.showsIntegers = true
  unshared : ∀ mapping ∈ registry.mappings, ∀ key ∈ mapping.keys, key.generated = true →
    ∀ property ∈ mapping.keys ++ mapping.writableProperties,
      property.field = key.field → property = key
  suits : ∀ parent ∈ registry.mappings, ∀ relation ∈ parent.relations,
    ∀ child ∈ registry.mappings, (relation.target? child.type).isSome →
      relation.Suits child

/-- No key is among the properties that are written, for it has a column of its own. -/
theorem Registry.IsOrderly.not_writable {registry : Registry} (horderly : registry.IsOrderly)
    {mapping : ClassMapping} (hmapping : mapping ∈ registry.mappings) {key : Property}
    (hkey : key ∈ mapping.keys) : key ∉ mapping.writableProperties := by
  intro hwritable
  have hcolumns := horderly.columns mapping hmapping
  rw [ClassMapping.ownColumns, List.map_append, List.nodup_append] at hcolumns
  exact hcolumns.2.2 _ (List.mem_map_of_mem hkey) _ (List.mem_map_of_mem hwritable) rfl

/-! ## Columns and cells -/

theorem inKeyForm_append (entries others : List (String × Value)) :
    inKeyForm (entries ++ others) = inKeyForm entries ++ inKeyForm others :=
  List.map_append

theorem map_fst_inKeyForm (entries : List (String × Value)) :
    (inKeyForm entries).map Prod.fst = entries.map Prod.fst := by
  rw [inKeyForm, List.map_map]
  rfl

/-- Where no column comes twice, each cell holds its value. -/
theorem lookup_inKeyForm {entries : List (String × Value)}
    (hcolumns : (entries.map Prod.fst).Nodup) {entry : String × Value}
    (hentry : entry ∈ entries) :
    (inKeyForm entries).lookup entry.1 = some entry.2.keyForm := by
  rw [← map_fst_inKeyForm] at hcolumns
  exact lookup_eq_some_of_nodup hcolumns (List.mem_map_of_mem hentry)

namespace Record

variable {table : String} {entries : List (String × Value)} {record : Record}

@[simp]
theorem table_ofEntries : (ofEntries table entries).table = table := rfl

theorem cell_ofEntries (hcolumns : (entries.map Prod.fst).Nodup) {entry : String × Value}
    (hentry : entry ∈ entries) :
    (ofEntries table entries).cell entry.1 = entry.2.keyForm := by
  change ((inKeyForm entries).lookup entry.1).getD .null = _
  rw [lookup_inKeyForm hcolumns hentry, Option.getD_some]

end Record

namespace Registry

variable {registry : Registry} {record other : Record}

theorem sameKey_symm (hsame : registry.sameKey record other = true) :
    registry.sameKey other record = true := by
  rw [sameKey, Bool.and_eq_true, beq_iff_eq, List.all_eq_true] at hsame ⊢
  obtain ⟨htable, hkeys⟩ := hsame
  refine ⟨htable.symm, ?_⟩
  intro mapping hmapping
  have hmapping := hkeys mapping hmapping
  rw [htable, Bool.or_eq_true, List.all_eq_true] at hmapping
  rw [Bool.or_eq_true, List.all_eq_true]
  apply hmapping.imp_right
  intro hall key hkey
  have hcells := hall key hkey
  rw [Bool.and_eq_true] at hcells ⊢
  rw [← Value.isNull_of_keyEqual hcells.2, Value.keyEqual, Value.equal_comm]
  exact hcells

/-- In an orderly registry the class of a table decides which rows have one key. -/
theorem sameKey_iff (horderly : registry.IsOrderly) {mapping : ClassMapping}
    (hmapping : mapping ∈ registry.mappings) (htable : record.table = mapping.table) :
    registry.sameKey record other = true ↔ other.table = mapping.table ∧
      ∀ key ∈ mapping.keys, (record.cell key.column).isNull = false ∧
        (record.cell key.column).keyEqual (other.cell key.column) = true := by
  rw [sameKey, Bool.and_eq_true, beq_iff_eq, htable, List.all_eq_true, eq_comm]
  apply and_congr_right
  intro _
  constructor
  · intro hall key hkey
    have hkeys := hall mapping hmapping
    rw [Bool.or_eq_true, bne_self_eq_false, List.all_eq_true] at hkeys
    have hkeys := hkeys.resolve_left Bool.false_ne_true key hkey
    rwa [Bool.and_eq_true, Bool.not_eq_true'] at hkeys
  · intro hkeys found hfound
    by_cases hsame : found.table = mapping.table
    · obtain rfl := List.inj_on_of_nodup_map horderly.tables hfound hmapping hsame
      rw [Bool.or_eq_true, List.all_eq_true]
      right
      intro key hkey
      rw [Bool.and_eq_true, Bool.not_eq_true']
      exact hkeys key hkey
    · rw [Bool.or_eq_true, bne_iff_ne]
      exact .inl hsame

/-- Rows of a class that agree in the keys have the key of the same rows. -/
theorem sameKey_congr (horderly : registry.IsOrderly) {mapping : ClassMapping}
    (hmapping : mapping ∈ registry.mappings) (htable : record.table = mapping.table)
    (htable' : other.table = mapping.table)
    (hcells : ∀ key ∈ mapping.keys, other.cell key.column = record.cell key.column)
    (third : Record) : registry.sameKey other third = registry.sameKey record third := by
  rw [Bool.eq_iff_iff, sameKey_iff horderly hmapping htable,
    sameKey_iff horderly hmapping htable']
  apply and_congr_right
  intro _
  apply forall₂_congr
  intro key hkey
  rw [hcells key hkey]

end Registry

/-! ## Members of a graph and their rows -/

theorem Registry.mem_of_mappingFor {registry : Registry} {e : Entity} {mapping : ClassMapping}
    (hmapping : registry.mappingFor e = .ok mapping) : mapping ∈ registry.mappings :=
  List.mem_of_find?_eq_some (Registry.mappingFor_eq_ok.1 hmapping)

theorem Member.IsKnown.mem_mappings {registry : Registry} {member : Member}
    (hknown : member.IsKnown registry) : member.mapping ∈ registry.mappings :=
  Registry.mem_of_mappingFor hknown.1

/-- How a member hangs in its graph: it is the root, or another member holds it in a
relation that may hold its class. -/
inductive Member.Hangs (members : List Member) (member : Member) : Prop where
  | root (hpath : member.path = []) (hholder : member.holder? members = none)
  | below (parent : Member) (number : Nat) (segment : Segment) (relation : Relation)
      (hnumber : member.parent = some number) (hparent : members[number]? = some parent)
      (hpath : member.path = parent.path ++ [segment])
      (hindex : member.relation = some segment.relation)
      (hrelation : parent.mapping.relations[segment.relation]? = some relation)
      (hholder : member.holder? members = some (parent, relation))
      (htarget : (relation.target? member.mapping.type).isSome)

theorem Relation.target?_congr {relation : Relation} {type other : EntityType}
    (hsame : type.id = other.id) : relation.target? type = relation.target? other := by
  rw [target?, target?]
  simp only [EntityType.same, hsame]

theorem IsTraversal.hangs {registry : Registry} {root : Entity} {members : List Member}
    (htraversal : IsTraversal registry root members) {member : Member}
    (hmember : member ∈ members) : member.Hangs members := by
  by_cases hroot : member.path = []
  · apply Member.Hangs.root hroot
    obtain ⟨self, rest, rfl, _, hpath, hparent, _⟩ := htraversal.root
    obtain rfl := htraversal.eq_of_path_eq hmember List.mem_cons_self (hroot.trans hpath.symm)
    rw [Member.holder?, hparent]
    rfl
  · obtain ⟨parent, hparent, ⟨p, hp, hnumber⟩, segment, relation, hpath, hindex, hrelation, _,
      hchildren, hchild⟩ := htraversal.exists_parent hmember hroot
    refine .below parent p segment relation hnumber hp hpath hindex hrelation ?_ ?_
    · rw [Member.holder?, hnumber, hindex]
      simp [hp, hrelation]
    · have hdeclared := (Relation.children_eq_ok_iff.1 hchildren).2.1 _
        (List.mem_of_getElem? hchild)
      have htype := (htraversal.known member hmember).same_type
      rw [EntityType.same, beq_iff_eq] at htype
      rwa [← Relation.target?_congr htype]

/-- The relation that holds a member suits its class. -/
theorem IsTraversal.suits {registry : Registry} (horderly : registry.IsOrderly)
    {root : Entity} {members : List Member} (htraversal : IsTraversal registry root members)
    {member parent : Member} (hmember : member ∈ members) {relation : Relation}
    (hholder : member.holder? members = some (parent, relation)) :
    parent ∈ members ∧ relation ∈ parent.mapping.relations ∧ relation.Suits member.mapping := by
  cases htraversal.hangs hmember with
  | root _ hnone =>
      rw [hholder] at hnone
      cases hnone
  | below found number segment found' _ hfound _ _ hrelation hsome htarget =>
      rw [hholder] at hsome
      cases hsome
      have hmem := List.mem_of_getElem? hrelation
      have hfound := List.mem_of_getElem? hfound
      exact ⟨hfound, hmem, horderly.suits _ (htraversal.known _ hfound).mem_mappings _ hmem _
        (htraversal.known _ hmember).mem_mappings htarget⟩

/-- A foreign key that is a property is written like any other, and what it refers to is a
property of another member. -/
theorem IsTraversal.refers {registry : Registry} (horderly : registry.IsOrderly)
    {root : Entity} {members : List Member} (htraversal : IsTraversal registry root members)
    {member parent : Member} (hmember : member ∈ members) {property referenced : Property}
    (hrefers : member.Refers members parent property referenced) :
    property ∈ member.mapping.writableProperties ∧ parent ∈ members ∧
      parent.mapping.IsReferenced referenced := by
  cases hrefers with
  | intro hholder hforeignKey hname hproperty hreferenced =>
      obtain ⟨hparent, hrelation, hsuits⟩ := htraversal.suits horderly hmember hholder
      obtain ⟨found, hfound, hproperty', _⟩ := hsuits.property _ _ hforeignKey hname
      obtain rfl := Option.some.inj (hproperty.symm.trans hproperty')
      exact ⟨hfound, hparent, _, hrelation, _, _, hforeignKey, hreferenced⟩

theorem Relation.map_fst_linkEntries (relation : Relation) (parent : ClassMapping)
    (shown : Field → Value) (child : EntityType) :
    ((relation.linkEntries parent shown child).map Prod.fst).Sublist
      (relation.linkColumns child) := by
  rw [linkEntries, linkColumns, List.map_append]
  apply List.Sublist.append
  · cases relation.foreignKey? child with
    | none => exact List.Sublist.refl []
    | some foreignKey =>
        obtain ⟨column, property?, referenced⟩ := foreignKey
        cases property? with
        | some name => exact List.Sublist.refl []
        | none =>
            change (((parent.property? referenced).toList.map fun property =>
              (column, shown property.field)).map Prod.fst).Sublist [column]
            cases parent.property? referenced with
            | none => exact List.nil_sublist [column]
            | some property => exact List.Sublist.refl [column]
  · cases relation.subset <;> exact List.Sublist.refl _

theorem Member.map_fst_own (shown : Member → Field → Value) (member : Member) :
    ((member.mapping.keys ++ member.mapping.writableProperties).map fun property =>
      (property.column, shown member property.field)).map Prod.fst =
        member.mapping.ownColumns := by
  rw [List.map_map]
  rfl

/-- No column of a row is written twice. -/
theorem IsTraversal.nodup_entriesBy {registry : Registry} (horderly : registry.IsOrderly)
    {root : Entity} {members : List Member} (htraversal : IsTraversal registry root members)
    {member : Member} (hmember : member ∈ members) (shown : Member → Field → Value) :
    ((member.entriesBy shown members).map Prod.fst).Nodup := by
  rw [Member.entriesBy, List.map_append, Member.map_fst_own, Member.linkBy]
  cases hholder : member.holder? members with
  | none =>
      rw [List.map_nil, List.append_nil]
      exact horderly.columns _ (htraversal.known member hmember).mem_mappings
  | some found =>
      obtain ⟨parent, relation⟩ := found
      have hsuits := (htraversal.suits horderly hmember hholder).2.2
      apply List.Sublist.nodup _ hsuits.columns
      exact (List.Sublist.refl _).append (Relation.map_fst_linkEntries _ _ _ _)

namespace IsTraversal

variable {registry : Registry} {root : Entity} {members : List Member} {member : Member}

theorem cell_own (horderly : registry.IsOrderly) (htraversal : IsTraversal registry root members)
    (hmember : member ∈ members) (shown : Member → Field → Value) {property : Property}
    (hproperty : property ∈ member.mapping.keys ++ member.mapping.writableProperties) :
    (member.recordBy shown members).cell property.column =
      (shown member property.field).keyForm := by
  have hentry : (property.column, shown member property.field) ∈
      member.entriesBy shown members :=
    List.mem_append_left _ (List.mem_map_of_mem hproperty)
  exact Record.cell_ofEntries (htraversal.nodup_entriesBy horderly hmember shown) hentry

theorem cell_link (horderly : registry.IsOrderly) (htraversal : IsTraversal registry root members)
    (hmember : member ∈ members) (shown : Member → Field → Value) {parent : Member}
    {relation : Relation} (hholder : member.holder? members = some (parent, relation))
    {entry : String × Value}
    (hentry : entry ∈ relation.linkEntries parent.mapping (shown parent) member.mapping.type) :
    (member.recordBy shown members).cell entry.1 = entry.2.keyForm := by
  apply Record.cell_ofEntries (htraversal.nodup_entriesBy horderly hmember shown)
  rw [Member.entriesBy, Member.linkBy, hholder]
  exact List.mem_append_right _ hentry

/-- Rows have one key exactly if they are of one class and the keys agree in key form, none of
them being NULL. -/
theorem sameKey_recordBy (horderly : registry.IsOrderly)
    (htraversal : IsTraversal registry root members) (hmember : member ∈ members)
    {root' : Entity} {members' : List Member} {other : Member}
    (htraversal' : IsTraversal registry root' members') (hother : other ∈ members')
    (shown shown' : Member → Field → Value) :
    registry.sameKey (member.recordBy shown members) (other.recordBy shown' members') = true ↔
      other.mapping = member.mapping ∧ ∀ key ∈ member.mapping.keys,
        (shown member key.field).isNull = false ∧
        (shown member key.field).keyEqual (shown' other key.field) = true := by
  have hmapping := (htraversal.known member hmember).mem_mappings
  have hmapping' := (htraversal'.known other hother).mem_mappings
  have htables : other.mapping.table = member.mapping.table ↔ other.mapping = member.mapping :=
    ⟨List.inj_on_of_nodup_map horderly.tables hmapping' hmapping,
      fun hsame => by rw [hsame]⟩
  rw [Registry.sameKey_iff horderly hmapping rfl]
  change other.mapping.table = _ ∧ _ ↔ _
  rw [htables]
  apply and_congr_right
  intro hsame
  apply forall₂_congr
  intro key hkey
  have hkey' : key ∈ other.mapping.keys := hsame ▸ hkey
  rw [htraversal.cell_own horderly hmember shown (List.mem_append_left _ hkey),
    htraversal'.cell_own horderly hother shown' (List.mem_append_left _ hkey'),
    Value.isNull_keyForm, Value.keyEqual, Value.keyForm_keyForm, Value.keyForm_keyForm]
  rfl

end IsTraversal

/-! ## Rows that say the same -/

theorem Relation.linkEntries_congr {relation : Relation} {parent : ClassMapping}
    (hrelation : relation ∈ parent.relations) {shown shown' : Field → Value}
    (hshown : ∀ property, parent.IsReferenced property →
      (shown' property.field).keyForm = (shown property.field).keyForm) (child : EntityType) :
    inKeyForm (relation.linkEntries parent shown' child) =
      inKeyForm (relation.linkEntries parent shown child) := by
  rw [linkEntries, linkEntries, inKeyForm_append, inKeyForm_append]
  congr 1
  cases hforeignKey : relation.foreignKey? child with
  | none => rfl
  | some foreignKey =>
      obtain ⟨column, property?, referenced⟩ := foreignKey
      cases property? with
      | some name => rfl
      | none =>
          change inKeyForm ((parent.property? referenced).toList.map fun property =>
              (column, shown' property.field)) =
            inKeyForm ((parent.property? referenced).toList.map fun property =>
              (column, shown property.field))
          cases hproperty : parent.property? referenced with
          | none => rfl
          | some property =>
              have hform := hshown property
                ⟨relation, hrelation, child, _, hforeignKey, hproperty⟩
              simp only [inKeyForm, Option.toList_some, List.map_cons, List.map_nil, hform]

/-- The members hang alike: both are roots, or the same relation holds them and what
foreign keys refer to in their parents agrees in key form. -/
inductive Member.HangAlike (shown shown' : Member → Field → Value)
    (members members' : List Member) (member other : Member) : Prop where
  | roots (hholder : member.holder? members = none) (hholder' : other.holder? members' = none)
  | below (parent former : Member) (relation : Relation)
      (hholder : member.holder? members = some (parent, relation))
      (hholder' : other.holder? members' = some (former, relation))
      (hmapping : former.mapping = parent.mapping)
      (hrelation : relation ∈ parent.mapping.relations)
      (hshown : ∀ property, parent.mapping.IsReferenced property →
        (shown' former property.field).keyForm = (shown parent property.field).keyForm)

/-- What rows say about where members hang is the same for members that hang alike. -/
theorem Member.HangAlike.linkBy_eq {shown shown' : Member → Field → Value}
    {members members' : List Member} {member other : Member}
    (halike : member.HangAlike shown shown' members members' other)
    (hmapping : other.mapping = member.mapping) :
    inKeyForm (other.linkBy shown' members') = inKeyForm (member.linkBy shown members) := by
  rw [linkBy, linkBy, hmapping]
  cases halike with
  | roots hholder hholder' => rw [hholder, hholder']
  | below parent former relation hholder hholder' hsame hrelation hshown =>
      rw [hholder, hholder']
      simp only [hsame]
      exact Relation.linkEntries_congr hrelation hshown _

/-- Members that show the same in key form and hang alike have one row. -/
theorem Member.recordBy_congr {shown shown' : Member → Field → Value}
    {members members' : List Member} {member other : Member}
    (hmapping : other.mapping = member.mapping)
    (hown : ∀ property ∈ member.mapping.keys ++ member.mapping.writableProperties,
      (shown' other property.field).keyForm = (shown member property.field).keyForm)
    (halike : member.HangAlike shown shown' members members' other) :
    other.recordBy shown' members' = member.recordBy shown members := by
  have hentries : inKeyForm (other.entriesBy shown' members') =
      inKeyForm (member.entriesBy shown members) := by
    rw [entriesBy, entriesBy, inKeyForm_append, inKeyForm_append, halike.linkBy_eq hmapping,
      hmapping]
    congr 1
    rw [inKeyForm, inKeyForm, List.map_map, List.map_map]
    apply List.map_congr_left
    intro property hproperty
    simp only [Function.comp_apply, hown property hproperty]
  rw [recordBy, recordBy, Record.ofEntries, Record.ofEntries, hentries, hmapping]

/-! ## What members show in a graph -/

/-- What a field of a member shows in a graph that has a member at its path. -/
def Registry.shown (registry : Registry) (graph : Option Entity) (member : Member)
    (field : Field) : Value :=
  match graph.map fun root => registry.resolve root member.path with
  | some (.ok e) => e.read field
  | _ => field.type.initial

theorem Registry.shown_of_resolve {registry : Registry} {root e : Entity} {member : Member}
    (hresolve : registry.resolve root member.path = .ok e) :
    registry.shown (some root) member = e.read := by
  funext field
  rw [shown, Option.map_some, hresolve]

theorem IsTraversal.shown {registry : Registry} {root : Entity} {members : List Member}
    (htraversal : IsTraversal registry root members) {member : Member}
    (hmember : member ∈ members) :
    registry.shown (some root) member = member.entity.read :=
  Registry.shown_of_resolve (htraversal.resolve hmember)

theorem exists_getElem?_of_forall₂ {α β : Type} {related : α → β → Prop} {items : List α}
    {results : List β} (hrelated : List.Forall₂ related items results) {i : Nat} {item : α}
    (hitem : items[i]? = some item) : ∃ result, results[i]? = some result ∧
      related item result := by
  induction hrelated generalizing i with
  | nil => cases hitem
  | cons hfirst hrest ih =>
      cases i with
      | zero =>
          obtain rfl := Option.some.inj hitem
          exact ⟨_, rfl, hfirst⟩
      | succ i => exact ih hitem

/-- The like of a member shows what is read at the path of the member. -/
theorem IsTraversal.shown_alike {registry : Registry} {last : Entity} {others : List Member}
    (htraversal : IsTraversal registry last others) {member other : Member}
    (hlike : member.Alike other) (hother : other ∈ others) :
    registry.shown (some last) member = other.entity.read := by
  have hresolve := htraversal.resolve hother
  rw [hlike.path] at hresolve
  exact Registry.shown_of_resolve hresolve

/-- A member of a traversal has the row that its like has in a graph of the same shape,
read at the same paths. -/
theorem IsTraversal.record_alike {registry : Registry} {root last : Entity}
    {members others : List Member} (htraversal : IsTraversal registry root members)
    (htraversal' : IsTraversal registry last others)
    (halike : List.Forall₂ Member.Alike members others) {member other : Member}
    (hmember : member ∈ members) (hother : other ∈ others) (hlike : member.Alike other) :
    other.record others = member.recordBy (registry.shown (some last)) members := by
  apply Member.recordBy_congr hlike.mapping
  · intro property _
    rw [htraversal'.shown_alike hlike hother]
  · cases htraversal.hangs hmember with
    | root hpath hholder =>
        apply Member.HangAlike.roots hholder
        cases htraversal'.hangs hother with
        | root _ hnone => exact hnone
        | below parent number segment relation _ _ hbelow =>
            rw [hlike.path, hpath] at hbelow
            exact absurd hbelow.symm (List.append_ne_nil_of_right_ne_nil _ (List.cons_ne_nil _ _))
    | below parent number segment relation hnumber hparent hpath hindex hrelation hholder _ =>
        obtain ⟨former, hformer, hlikeParent⟩ := exists_getElem?_of_forall₂ halike hparent
        have hmapping := hlikeParent.mapping
        refine .below parent former relation hholder ?_ hmapping
          (List.mem_of_getElem? hrelation) ?_
        · rw [Member.holder?, hlike.parent, hlike.relation, hnumber, hindex]
          simp [hformer, hmapping, hrelation]
        · intro property _
          rw [htraversal'.shown_alike hlikeParent (List.mem_of_getElem? hformer)]

/-- The rows of a graph of the same shape. -/
theorem IsTraversal.recordsOf_alike {registry : Registry} {root last : Entity}
    {members others : List Member} (htraversal : IsTraversal registry root members)
    (htraversal' : IsTraversal registry last others)
    (halike : List.Forall₂ Member.Alike members others) :
    recordsOf others =
      {record | ∃ member ∈ members,
        member.recordBy (registry.shown (some last)) members = record} := by
  apply Set.ext
  intro record
  constructor
  · rintro ⟨other, hother, rfl⟩
    obtain ⟨member, hmember, hlike⟩ := exists_item_of_forall₂ halike hother
    exact ⟨member, hmember,
      (htraversal.record_alike htraversal' halike hmember hother hlike).symm⟩
  · rintro ⟨member, hmember, rfl⟩
    obtain ⟨other, hother, hlike⟩ := exists_result_of_forall₂ halike hmember
    exact ⟨other, hother, htraversal.record_alike htraversal' halike hmember hother hlike⟩

end AggregateSync
