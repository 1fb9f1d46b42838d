import AggregateSync.Proofs.Graph.Lineage
import AggregateSync.Proofs.Session.Order

/-!
# The foreign key of inserted members

Whoever is inserted under a parent refers to it, or is not inserted at all.  The INSERT
assigns every column once, and a later value for a column takes the place of an earlier one:
the foreign key that is no property replaces what the member has for its column, and the
constant of the relation replaces even that.
-/

namespace AggregateSync

/-- What a column is assigned in the end: the constant of the relation, if it is stored there,
and otherwise the value. -/
def constantOr (subset : Option SubsetColumn) (column : String) (value : Value) : Value :=
  (constantAt? subset column).getD value

/-- The properties that are written when a member is inserted: its keys, except one that the
database is to assign, and its writable properties. -/
def ClassMapping.inserted (mapping : ClassMapping) (e : Entity) : List Property :=
  (mapping.keys.filter fun key => !awaits e key) ++ mapping.writableProperties

/-- How the row of a member refers to its parent.  A foreign key that is no property stands in
its own column; one that is a property is shown by the member, converted to the type of the
property, and stands in the column of the property if that is written.  `stored` says what stands
in the column of the foreign key in every case, and `listed` when it is left out altogether. -/
structure CarriesForeignKey (mapping : ClassMapping) (given : ForeignKeyValue)
    (subset : Option SubsetColumn) (shown : Entity) (insert : Insert) : Prop where
  once : insert.columns.Nodup
  column : given.property = none →
    insert.assignments.lookup given.column = some (constantOr subset given.column given.value)
  property : ∀ name, given.property = some name → ∃ property converted,
    mapping.property? name = some property ∧
    property.field.type.read given.value = .ok converted ∧ converted.isNull = false ∧
    shown.read property.field = converted ∧
    (property ∈ mapping.inserted shown →
      (∀ other ∈ mapping.inserted shown, other.column = property.column →
        other.field = property.field) →
      insert.assignments.lookup property.column =
        some (constantOr subset property.column converted))
  stored : insert.assignments.lookup given.column =
    (constantAt? subset given.column).or (given.written? shown (mapping.inserted shown))
  listed : given.column ∈ insert.columns ↔ given.property = none ∨
    (∃ property ∈ mapping.inserted shown, property.column = given.column) ∨
    ∃ constant ∈ subset, constant.column = given.column

theorem FieldType.isNull_of_read {type : FieldType} {value shown : Value}
    (hread : type.read value = .ok shown) (hvalue : value.isNull = false) :
    shown.isNull = false := by
  induction type with
  | optional inner ih =>
      rw [read, hvalue] at hread
      exact ih hread
  | dynamic =>
      cases hread
      exact hvalue
  | _ =>
      simp only [read, Except.map] at hread
      split at hread
      · cases hread
      · cases hread
        rfl

/-- The last of the assignments is the constant of the relation. -/
theorem lookup_assignAll_constant (entries : List (String × Value))
    (subset : Option SubsetColumn) (column : String) :
    (assignAll (entries ++ (subset.map SubsetColumn.entry).toList)).lookup column =
      (constantAt? subset column).or (entries.reverse.lookup column) := by
  rw [lookup_assignAll, List.reverse_append]
  cases subset with
  | none => rfl
  | some constant =>
      rw [Option.map_some, Option.toList_some, List.reverse_singleton, List.singleton_append,
        SubsetColumn.entry, constantAt?, Option.filter_some]
      by_cases hcolumn : constant.column = column
      · rw [← hcolumn, List.lookup_cons, beq_self_eq_true, if_pos (decide_eq_true rfl)]
        rfl
      · rw [List.lookup_cons, beq_eq_false_iff_ne.2 fun h => hcolumn h.symm,
          if_neg (mt of_decide_eq_true hcolumn)]
        rfl

/-- What stands in a column of the row of a new member. -/
theorem lookup_memberInsert (mapping : ClassMapping) (shown : Entity)
    (extra : Option (String × Value)) (subset : Option SubsetColumn) (column : String) :
    (memberInsert mapping shown extra subset).assignments.lookup column =
      (constantAt? subset column).or ((extra.toList.lookup column).or
        (ClassMapping.lastShown? shown (mapping.inserted shown) column)) := by
  rw [memberInsert, lookup_assignAll_constant, List.reverse_append, List.lookup_append,
    ClassMapping.lastShown?, ClassMapping.inserted, ClassMapping.entries, ClassMapping.entries,
    ClassMapping.entries, List.map_append]
  cases extra <;> rfl

/-- The columns of the row of a new member. -/
theorem mem_columns_memberInsert {mapping : ClassMapping} {shown : Entity}
    {extra : Option (String × Value)} {subset : Option SubsetColumn} {column : String} :
    column ∈ (memberInsert mapping shown extra subset).columns ↔
      (∃ property ∈ mapping.inserted shown, property.column = column) ∨
      (∃ entry ∈ extra, entry.1 = column) ∨ ∃ constant ∈ subset, constant.column = column := by
  rw [Insert.columns, memberInsert, mem_columns_assignAll, ClassMapping.entries,
    ClassMapping.entries, ← List.map_append, List.append_assoc, List.map_append, List.mem_append,
    List.map_map, List.map_append, List.mem_append, ClassMapping.inserted]
  simp [SubsetColumn.entry, or_and_right, exists_or]

/-- The INSERT of a member that takes a value carries it. -/
theorem TakesForeignKey.carries {mapping : ClassMapping} {e shown : Entity}
    {given : ForeignKeyValue} {extra : Option (String × Value)}
    (htakes : TakesForeignKey mapping e (some given) shown extra)
    (hpresent : given.value.isNull = false) (subset : Option SubsetColumn) :
    CarriesForeignKey mapping given subset shown (memberInsert mapping shown extra subset) := by
  have hstored : (memberInsert mapping shown extra subset).assignments.lookup given.column =
      (constantAt? subset given.column).or (given.written? shown (mapping.inserted shown)) := by
    rw [lookup_memberInsert, htakes.lookup_eq_written]
  constructor
  case once => exact nodup_assignAll _
  case stored => exact hstored
  case listed =>
    rw [mem_columns_memberInsert]
    cases htakes <;> simp
  case column =>
    intro hcolumn
    rw [hstored, ForeignKeyValue.written?, hcolumn, Option.isNone_none, if_pos rfl, Option.or_some]
    rfl
  case property =>
    intro name hname
    obtain ⟨rfl, property, hproperty, hread⟩ := htakes.exists_shows hname
    refine ⟨property, _, hproperty, hread, FieldType.isNull_of_read hread hpresent, rfl, ?_⟩
    intro hinserted hagree
    rw [lookup_memberInsert, ClassMapping.lastShown?_eq_some hinserted]
    · exact Option.or_some
    · intro other hother hsame
      rw [hagree other hother hsame]

/-- The row of a new member has a foreign key in its column: it is no property, or it is one that
is stored in the column and written. -/
def ForeignKey.IsStoredBy (foreignKey : ForeignKey) (mapping : ClassMapping) (shown : Entity) :
    Prop :=
  ∀ name, foreignKey.property = some name → ∃ property ∈ mapping.inserted shown,
    mapping.property? name = some property ∧ property.column = foreignKey.column

theorem CarriesForeignKey.column_mem {mapping : ClassMapping} {given : ForeignKeyValue}
    {foreignKey : ForeignKey} {shown : Entity} {subset : Option SubsetColumn} {insert : Insert}
    (hcarries : CarriesForeignKey mapping given subset shown insert)
    (hcolumn : given.column = foreignKey.column) (hproperty : given.property = foreignKey.property)
    (hstored : foreignKey.IsStoredBy mapping shown) : foreignKey.column ∈ insert.columns := by
  rw [← hcolumn, hcarries.listed, hproperty]
  cases hname : foreignKey.property with
  | none => exact .inl rfl
  | some name =>
      obtain ⟨property, hinserted, _, hown⟩ := hstored name hname
      exact .inr (.inl ⟨property, hinserted, hown.trans hcolumn.symm⟩)

/-- The INSERT of a member under a parent carries the foreign key that the relation has for the
class of the member. -/
theorem addedTurn_carries {ω : Type} {environment : Environment ω} {registry : Registry}
    {dialect : Dialect} {channel : Channel} {snapshot current : Option Entity}
    {options : PersistOptions} {filter : PropertyFilter} {changes : List Change}
    {before after : List Member} {world : ω}
    (hcompare : registry.compare snapshot current filter = .ok changes)
    (hbefore : registry.members snapshot = .ok before)
    (hafter : registry.members current = .ok after) {turn : Turn (Option Entity) ω Change}
    (hturn : turn ∈ writeTurns environment registry dialect channel changes snapshot options
      current world) (hadded : turn.item.state = .added) {child parent : Member}
    (hchild : child ∈ after) (hparent : parent ∈ after)
    (hdescribes : turn.item.Describes .current child) {segment : Segment}
    (hpath : child.path = parent.path ++ [segment]) {relation : Relation}
    (hrelation : parent.mapping.relations[segment.relation]? = some relation) :
    ∃ met holder, turn.state = some met ∧ registry.resolve met parent.path = .ok holder ∧
      ((turn.requests = [] ∧ turn.execution.succeeds = false) ∨
        ∃ given shown extra,
          GivesForeignKey parent.mapping relation child.mapping.type holder given ∧
          let insert := memberInsert child.mapping shown extra relation.subset
          turn.requests = [insertRequest channel child.mapping shown (insert.build dialect)] ∧
          CarriesForeignKey child.mapping given relation.subset shown insert) := by
  have hdifference := Registry.isDifference_of_compare hcompare hbefore hafter
  obtain ⟨root, rfl, htraversal⟩ := Registry.exists_traversal hafter hchild
  obtain ⟨met, e, hmet, hshape, _, hasks⟩ := addedTurn_asksOnce htraversal
    (Registry.nodup_paths hbefore) hdifference hturn hchild hdescribes hadded
  obtain ⟨found, stored, holder, hfound, hstored, hresolve, hfinds⟩ :=
    htraversal.exists_parentLink hchild hparent ⟨segment, hpath⟩ hdescribes
      (rfl : Side.current.graph snapshot (some met) = some met) hshape
  obtain rfl : segment = found :=
    List.singleton_inj.1 (List.append_cancel_left (hpath.symm.trans hfound))
  obtain rfl := Option.some.inj (hrelation.symm.trans hstored)
  refine ⟨met, holder, hmet, hresolve, ?_⟩
  rcases hasks with hnone | ⟨_, hrequest, link, shown, extra, hlink, htakes, rfl⟩
  · exact .inl hnone
  · obtain ⟨hsubset, given, hgiven, hgives⟩ := hfinds _ _ hlink
    obtain ⟨_, _, _, _, hpresent, _, hvalue⟩ := id hgives
    rw [hgiven] at htakes
    rw [hsubset] at hrequest
    exact .inr ⟨given, shown, extra, hgives, hrequest,
      htakes.carries (hvalue ▸ hpresent) relation.subset⟩

/-- Every INSERT of a member under a parent carries what the parent shows at that moment for
the foreign key: a value that is neither NULL nor a key that the database is yet to assign.
Without a foreign key or such a value there is no INSERT, and writing fails. -/
theorem persist_inserts_refer {ω : Type} {environment : Environment ω} {registry : Registry}
    {dialect : Dialect} {channel : Channel} {snapshot current : Option Entity}
    {options : PersistOptions} {filter : PropertyFilter} {changes : List Change}
    {before after : List Member} (world : ω)
    (hcompare : registry.compare snapshot current filter = .ok changes)
    (hbefore : registry.members snapshot = .ok before)
    (hafter : registry.members current = .ok after) :
    ∀ turn ∈ writeTurns environment registry dialect channel changes snapshot options current
        world, turn.item.state = .added → turn.item.isRoot = false →
      ∃ child ∈ after, ∃ parent ∈ after, ∃ segment relation met holder,
        turn.item.Describes .current child ∧ child.path = parent.path ++ [segment] ∧
        parent.mapping.relations[segment.relation]? = some relation ∧
        turn.state = some met ∧ registry.resolve met parent.path = .ok holder ∧
        ((turn.requests = [] ∧ ((persist registry dialect channel changes snapshot
            options).execution environment current world).succeeds = false) ∨
          ∃ given shown extra,
            GivesForeignKey parent.mapping relation child.mapping.type holder given ∧
            let insert := memberInsert child.mapping shown extra relation.subset
            turn.requests =
              [insertRequest channel child.mapping shown (insert.build dialect)] ∧
            CarriesForeignKey child.mapping given relation.subset shown insert) := by
  have hdifference := Registry.isDifference_of_compare hcompare hbefore hafter
  intro turn hturn hadded hroot
  obtain ⟨i, hi⟩ := List.mem_iff_getElem?.1 hturn
  obtain ⟨child, hchild, hdescribes⟩ := exists_member_of_schedule hdifference
    (List.mem_of_getElem? (Task.afterTurns_take hi).1)
    (by rw [hadded]; exact ChangeState.noConfusion)
  obtain ⟨root, rfl, htraversal⟩ := Registry.exists_traversal hafter hchild
  obtain ⟨parent, hparent, hbelow⟩ :=
    htraversal.exists_parent_of_describes hchild hdescribes hroot
  obtain ⟨met, e, hmet, hshape, _, hasks⟩ := addedTurn_asksOnce htraversal
    (Registry.nodup_paths hbefore) hdifference hturn hchild hdescribes hadded
  obtain ⟨segment, relation, holder, hpath, hindex, hresolve, hfinds⟩ :=
    htraversal.exists_parentLink hchild hparent hbelow hdescribes
      (rfl : Side.current.graph snapshot (some met) = some met) hshape
  refine ⟨child, hchild, parent, hparent, segment, relation, met, holder, hdescribes, hpath,
    hindex, hmet, hresolve, ?_⟩
  rcases hasks with ⟨hnone, hfails⟩ | ⟨_, hrequest, link, shown, extra, hlink, htakes, rfl⟩
  case inl =>
    refine .inl ⟨hnone, Bool.eq_false_iff.2 fun hsucceeds => ?_⟩
    rw [persist_succeeds_iff.1 hsucceeds turn hturn] at hfails
    cases hfails
  case inr =>
    obtain ⟨hsubset, given, hgiven, hgives⟩ := hfinds _ _ hlink
    obtain ⟨foreignKey, referenced, _, _, hpresent, _, hvalue⟩ := id hgives
    rw [hgiven] at htakes
    rw [hsubset] at hrequest
    refine .inr ⟨given, shown, extra, hgives, hrequest, htakes.carries ?_ relation.subset⟩
    rw [hvalue]
    exact hpresent

theorem exchanged_inserts_refer :
    ∃ changes turn child parent relation holder given shown insert,
      Shipping.registry.compare (some Shipping.packed) (some Shipping.exchanged)
        (fun _ _ => true) = .ok changes ∧
      turn ∈ writeTurns Script.environment Shipping.registry .postgres .transaction changes
        (some Shipping.packed) .standard (some Shipping.exchanged) Shipping.quiet ∧
      turn.item.state = .added ∧ turn.item.Describes .current child ∧
      child.IsDirectlyBelow parent ∧
      GivesForeignKey parent.mapping relation child.mapping.type holder given ∧
      turn.requests =
        [insertRequest .transaction child.mapping shown (insert.build .postgres)] ∧
      CarriesForeignKey child.mapping given relation.subset shown insert := by
  obtain ⟨child, _, parent, _, segment, relation, met, holder, hdescribes, hpath, _, _, _,
    hwritten⟩ := @persist_inserts_refer Script Script.environment Shipping.registry .postgres
      .transaction (some Shipping.packed) (some Shipping.exchanged) .standard (fun _ _ => true) _
      _ _ Shipping.quiet rfl rfl rfl _ (@List.mem_of_getElem? _ _ 0 _ rfl) rfl rfl
  rcases hwritten with ⟨hnone, _⟩ | ⟨given, shown, extra, hgives, hrequest, hcarries⟩
  · cases hnone
  · exact ⟨_, _, child, parent, relation, holder, given, shown, _, rfl,
      @List.mem_of_getElem? _ _ 0 _ rfl, rfl, hdescribes, ⟨segment, hpath⟩, hgives, hrequest,
      hcarries⟩

namespace Shipping

/-- Orders whose parcels are marked in the column that is to hold the number of the order. -/
def marking : ClassMapping where
  type := order
  table := "orders"
  keys := [.generatedKey "id" idField]
  properties := []
  relations := [⟨"parcels", order, 0, .many parcel (some ⟨"parent_id", none, "id"⟩),
    some ⟨"parent_id", .text "gift"⟩, []⟩]
  initialFields := []
  initialMembers := []
  sound := rfl

/-- Parcels that do not know their order. -/
def marked : ClassMapping where
  type := parcel
  table := "parcels"
  keys := [.generatedKey "id" idField]
  properties := []
  relations := []
  initialFields := []
  initialMembers := []
  sound := rfl

def gifts : Registry := ⟨[marking, marked], rfl⟩

/-- Parcels with a note, which only read the number of their order. -/
def noted : ClassMapping where
  type := ⟨1, "Parcel", [idField, parentField, noteField]⟩
  table := "parcels"
  keys := [.generatedKey "id" idField]
  properties := [.readOnly "parent_id" parentField, .plain "note" noteField]
  relations := []
  initialFields := []
  initialMembers := []
  sound := rfl

def notes : Registry := ⟨[orders, noted], rfl⟩

/-- An order with a new parcel, which has a note. -/
def noticed : Entity :=
  orderOf 1 [.mk noted.type [(idField, .bigInt 0), (noteField, .text "x")] []]

end Shipping

/-- The INSERT of a parcel that only reads the number of its order leaves that number out, and
writing succeeds. -/
theorem noted_insert_omits_foreign_key :
    ∃ changes turn met relation given, ∃ insert : Insert,
      Shipping.notes.compare (some (Shipping.orderOf 1 [])) (some Shipping.noticed)
        (fun _ _ => true) = .ok changes ∧
      turn ∈ writeTurns Script.environment Shipping.notes .postgres .transaction changes
        (some (Shipping.orderOf 1 [])) .standard (some Shipping.noticed) Shipping.quiet ∧
      turn.item.state = .added ∧ turn.item.path = [⟨0, 0⟩] ∧ turn.state = some met ∧
      Shipping.orders.relations[0]? = some relation ∧
      GivesForeignKey Shipping.orders relation Shipping.noted.type met given ∧
      turn.requests = [.insert .transaction (insert.build .postgres)] ∧
      ((persist Shipping.notes .postgres .transaction changes (some (Shipping.orderOf 1 []))
        .standard).execution Script.environment (some Shipping.noticed)
          Shipping.quiet).succeeds = true ∧
      given.column ∉ insert.columns := by
  refine ⟨_, _, _, _, ⟨"parent_id", some "parent_id", .bigInt 1⟩,
    ⟨"parcels", [("note", .text "x")]⟩, rfl, @List.mem_of_getElem? _ _ 0 _ rfl, rfl, rfl, rfl,
    rfl, ⟨_, _, rfl, rfl, rfl, rfl, rfl⟩, rfl, rfl, ?_⟩
  decide

/-- The INSERT of a parcel that is marked where the number of its order belongs does not
carry that number. -/
theorem gift_insert_replaces_foreign_key :
    ∃ changes turn met relation given statement,
      Shipping.gifts.compare (some (Shipping.orderOf 1 []))
        (some (Shipping.orderOf 1 [Shipping.parcelOf 0 0 []])) (fun _ _ => true) = .ok changes ∧
      turn ∈ writeTurns Script.environment Shipping.gifts .postgres .transaction changes
        (some (Shipping.orderOf 1 [])) .standard
        (some (Shipping.orderOf 1 [Shipping.parcelOf 0 0 []])) Shipping.quiet ∧
      turn.item.state = .added ∧ turn.item.path = [⟨0, 0⟩] ∧ turn.state = some met ∧
      Shipping.marking.relations[0]? = some relation ∧
      GivesForeignKey Shipping.marking relation Shipping.parcel met given ∧
      turn.requests = [.insert .transaction statement] ∧ given.value ∉ statement.params := by
  refine ⟨_, _, _, _, ⟨"parent_id", none, .bigInt 1⟩, _, rfl, @List.mem_of_getElem? _ _ 0 _ rfl,
    rfl, rfl, rfl, rfl, ⟨_, _, rfl, rfl, rfl, rfl, rfl⟩, rfl, ?_⟩
  intro hmem
  cases List.mem_singleton.1 hmem

end AggregateSync
