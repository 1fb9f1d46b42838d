import AggregateSync.Proofs.Graph.Identity
import AggregateSync.Proofs.Session.Order

/-!
# The row that an UPDATE addresses

The key of an UPDATE is read from the member after it took its foreign key.  So it is the
identity of the member unless the foreign key is part of the key and its parent gives
another value than the member had: then the UPDATE addresses the row of somebody else.
-/

namespace AggregateSync

/-- The value goes to a property that shares its field with a key, and changes it. -/
def ClassMapping.Rekeys (mapping : ClassMapping) (e : Entity) (given : ForeignKeyValue) : Prop :=
  ∃ name property key converted, given.property = some name ∧
    mapping.property? name = some property ∧ key ∈ mapping.keys ∧ key.field = property.field ∧
    property.field.type.read given.value = .ok converted ∧
    converted.keyForm ≠ (e.read key.field).keyForm

/-- The foreign key that the parent gives, as the graph shows the parent, changes the key of
the member. -/
inductive Member.IsRekeyed (registry : Registry) (members : List Member) (met : Entity)
    (member : Member) : Prop
  | intro {parent : Member} {segment : Segment} {relation : Relation} {holder : Entity}
      {given : ForeignKeyValue} (hparent : parent ∈ members)
      (hpath : member.path = parent.path ++ [segment])
      (hrelation : parent.mapping.relations[segment.relation]? = some relation)
      (hholder : registry.resolve met parent.path = .ok holder)
      (hgives : GivesForeignKey parent.mapping relation member.mapping.type holder given)
      (hrekeys : member.mapping.Rekeys member.entity given)

/-- The columns of properties, each with its reading. -/
theorem ClassMapping.entries_eq_zip (e : Entity) (properties : List Property) :
    ClassMapping.entries e properties =
      (properties.map Property.column).zip (properties.map fun key => e.read key.field) := by
  rw [entries, List.zip_map']

/-! ## When the key changes -/

theorem GivesForeignKey.unique {mapping : ClassMapping} {relation : Relation}
    {child : EntityType} {parent : Entity} {given other : ForeignKeyValue}
    (hgiven : GivesForeignKey mapping relation child parent given)
    (hother : GivesForeignKey mapping relation child parent other) : given = other := by
  obtain ⟨foreignKey, referenced, hforeignKey, hreferenced, _, _, rfl⟩ := hgiven
  obtain ⟨foreignKey', referenced', hforeignKey', hreferenced', _, _, rfl⟩ := hother
  obtain rfl := Option.some.inj (hforeignKey.symm.trans hforeignKey')
  obtain rfl := Option.some.inj (hreferenced.symm.trans hreferenced')
  rfl

theorem ClassMapping.rekeys_of_label {mapping : ClassMapping} {e other : Entity}
    (hlabel : e.label = other.label) (given : ForeignKeyValue) :
    mapping.Rekeys e given ↔ mapping.Rekeys other given := by
  simp only [Rekeys, Entity.read_of_label hlabel]

/-- Taking a foreign key changes the key exactly if the value rekeys. -/
theorem TakesForeignKey.keyForms_iff {mapping : ClassMapping} {e shown : Entity}
    {foreignKey : Option ForeignKeyValue} {extra : Option (String × Value)}
    (htakes : TakesForeignKey mapping e foreignKey shown extra) :
    (∀ key ∈ mapping.keys, (shown.read key.field).keyForm = (e.read key.field).keyForm) ↔
      ¬ ∃ given, foreignKey = some given ∧ mapping.Rekeys e given := by
  cases htakes with
  | none =>
      refine iff_of_true (fun _ _ => rfl) ?_
      rintro ⟨_, hgiven, _⟩
      cases hgiven
  | column =>
      refine iff_of_true (fun _ _ => rfl) ?_
      rintro ⟨_, hgiven, _, _, _, _, hname, _⟩
      cases hgiven
      cases hname
  | @property column name value property converted hproperty hread =>
      have hwritten : (e.write property.field converted).read property.field = converted :=
        Entity.read_write (FieldType.holds_of_read hread)
      constructor
      case mp =>
        rintro hsame ⟨_, hgiven, name', found, key, read, hname, hfound, hkey, hfield, hread',
          hdiffer⟩
        cases hgiven
        cases hname
        obtain rfl := Option.some.inj (hproperty.symm.trans hfound)
        obtain rfl := Except.ok.inj (hread.symm.trans hread')
        apply hdiffer
        rw [← hsame key hkey, hfield, hwritten]
      case mpr =>
        intro hkept key hkey
        by_cases hfield : key.field = property.field
        · by_contra hdiffer
          rw [hfield, hwritten] at hdiffer
          exact hkept ⟨_, rfl, name, property, key, converted, rfl, hproperty, hkey, hfield, hread,
            by rwa [hfield]⟩
        · rw [Entity.read_write_of_ne hfield]

/-- The foreign key of a member rekeys it exactly if it is refreshed and the parent gives one
that does. -/
theorem IsTraversal.isRekeyed_iff {registry : Registry} {root met : Entity}
    {members : List Member} {member : Member} {change : Change} {snapshot : Option Entity}
    {propagate : Bool} {link : ParentLink} (htraversal : IsTraversal registry root members)
    (hshape : root.SameShape met) (hmember : member ∈ members)
    (hdescribes : change.Describes .current member)
    (hlink : parentLink registry change snapshot (some met) propagate = .ok link) :
    (∃ given, link.foreignKey = some given ∧ member.mapping.Rekeys member.entity given) ↔
      propagate = true ∧ member.IsRekeyed registry members met := by
  have hmet : Side.current.graph snapshot (some met) = some met := rfl
  constructor
  case mp =>
    rintro ⟨given, hgiven, hrekeys⟩
    have hroot : member.path ≠ [] := by
      intro hempty
      rw [parentLink_root (hdescribes.path.trans hempty)] at hlink
      cases hlink
      cases hgiven
    obtain ⟨parent, hparent, _, segment, _, hbelow, _⟩ := htraversal.exists_parent hmember hroot
    obtain ⟨segment, relation, holder, hpath, hrelation, hholder, hfinds⟩ :=
      htraversal.exists_parentLink hmember hparent ⟨segment, hbelow⟩ hdescribes hmet hshape
    obtain ⟨_, hfound⟩ := hfinds propagate link hlink
    rw [hgiven] at hfound
    cases propagate with
    | false => cases hfound
    | true =>
        obtain ⟨_, hsame, hgives⟩ := hfound
        cases hsame
        exact ⟨rfl, .intro hparent hpath hrelation hholder hgives hrekeys⟩
  case mpr =>
    rintro ⟨rfl, @⟨parent, segment, relation, holder, given, hparent, hpath, hrelation, hholder,
      hgives, hrekeys⟩⟩
    obtain ⟨segment', relation', holder', hpath', hrelation', hholder', hfinds⟩ :=
      htraversal.exists_parentLink hmember hparent ⟨segment, hpath⟩ hdescribes hmet hshape
    obtain rfl : segment = segment' :=
      List.head_eq_of_cons_eq (List.append_cancel_left (hpath.symm.trans hpath'))
    obtain rfl := Option.some.inj (hrelation.symm.trans hrelation')
    obtain rfl := Except.ok.inj (hholder.symm.trans hholder')
    obtain ⟨_, other, hother, hgivesOther⟩ := hfinds true link hlink
    exact ⟨given, by rw [hother, hgives.unique hgivesOther], hrekeys⟩

/-- The WHERE of an UPDATE compares the key columns in their order, and then the column of the
subset constant.  The values of the key columns are the identity of the member, up to key
form, unless the foreign key is refreshed and that rekeys the member; then they are not. -/
theorem persist_addresses_identity {ω : Type} {environment : Environment ω}
    {registry : Registry} {dialect : Dialect} {channel : Channel}
    {snapshot current : Option Entity} {options : PersistOptions} {filter : PropertyFilter}
    {changes : List Change} {before after : List Member} (world : ω)
    (hcompare : registry.compare snapshot current filter = .ok changes)
    (hbefore : registry.members snapshot = .ok before)
    (hafter : registry.members current = .ok after) :
    ∀ turn ∈ writeTurns environment registry dialect channel changes snapshot options current
        world, turn.item.state = .modified →
      ∃ member ∈ after, ∃ key met, turn.item.Describes .current member ∧
        turn.item.key = some key ∧ turn.state = some met ∧
        ∀ request ∈ turn.requests, ∃ (update : Update) (values : List Value)
            (constant : Option SubsetColumn),
          request = .execute channel (update.build dialect) ∧
          update.table = member.mapping.table ∧
          values.length = member.mapping.keys.length ∧
          update.filter = Expr.columnsAre?
            ((member.mapping.keys.map Property.column).zip values ++
              (constant.map SubsetColumn.entry).toList) ∧
          (values.map Value.keyForm = key.values ↔
            ¬ (options.onUpdate = true ∧ member.IsRekeyed registry after met)) := by
  have hdifference := Registry.isDifference_of_compare hcompare hbefore hafter
  intro turn hturn hmodified
  obtain ⟨i, hi⟩ := List.mem_iff_getElem?.1 hturn
  rcases hdifference.scheduled_cases (List.mem_of_getElem? (Task.afterTurns_take hi).1) with
    ⟨hother, _⟩ | ⟨hother, _⟩ | ⟨_, member, hmember, old, hold, hdescribes, hsame, hdiffer⟩
  · cases hother.symm.trans hmodified
  · cases hother.symm.trans hmodified
  obtain ⟨root, rfl, htraversal⟩ := Registry.exists_traversal hafter hmember
  obtain ⟨met, e, hmet, hshape, hlabel, hasks⟩ := modifiedTurn_asksOnce htraversal
    (Registry.nodup_paths hbefore) hdifference hturn hmember hdescribes hmodified hdiffer
  have hsaved : member.key.isSome := by
    obtain ⟨key, _, hkey, _⟩ := hsame
    rw [hkey]
    rfl
  have hkey := (htraversal.known member hmember).key_of_isSome hsaved
  refine ⟨member, hmember, _, met, hdescribes, hdescribes.key.trans hkey, hmet, ?_⟩
  intro request hrequest
  rcases hasks with ⟨hnone, _⟩ | ⟨_, hasked, link, shown, extra, hlink, htakes, rfl⟩
  case inl =>
    rw [Turn.requests, hnone] at hrequest
    cases hrequest
  case inr =>
    rw [Turn.requests, hasked, List.mem_singleton] at hrequest
    refine ⟨memberUpdate member.mapping shown extra link.subset,
      member.mapping.keyReadings shown, link.subset, hrequest, rfl, List.length_map _, ?_, ?_⟩
    · rw [memberUpdate, ClassMapping.entries_eq_zip shown member.mapping.keys]
      rfl
    · rw [← htraversal.isRekeyed_iff hshape hmember hdescribes hlink]
      simp only [← ClassMapping.rekeys_of_label hlabel]
      rw [← htakes.keyForms_iff, IdentityKey.ofValues, ClassMapping.keyReadings,
        ClassMapping.keyReadings, List.map_map, List.map_map, List.map_inj_left]
      simp only [Function.comp_apply, Entity.read_of_label hlabel]

theorem repacked_addresses_identity :
    ∃ (changes : List Change) (turn : Turn (Option Entity) Script Change) (member : Member)
        (key : IdentityKey) (values : List Value) (constant : Option SubsetColumn),
      Shipping.registry.compare (some Shipping.packed) (some Shipping.repacked)
        (fun _ _ => true) = .ok changes ∧
      turn ∈ writeTurns Script.environment Shipping.registry .postgres .transaction changes
        (some Shipping.packed) ⟨false, false⟩ (some Shipping.repacked) Shipping.quiet ∧
      turn.item.state = .modified ∧ turn.item.Describes .current member ∧
      turn.item.key = some key ∧
      (∃ update : Update, turn.requests = [.execute .transaction (update.build .postgres)] ∧
        update.filter = Expr.columnsAre? ((member.mapping.keys.map Property.column).zip values ++
          (constant.map SubsetColumn.entry).toList)) ∧
      values.map Value.keyForm = key.values := by
  obtain ⟨member, _, key, met, hdescribes, hkey, _, hwrites⟩ :=
    @persist_addresses_identity Script Script.environment Shipping.registry .postgres
      .transaction (some Shipping.packed) (some Shipping.repacked) ⟨false, false⟩
      (fun _ _ => true) _ _ _ Shipping.quiet rfl rfl rfl _ (@List.mem_of_getElem? _ _ 1 _ rfl)
      rfl
  obtain ⟨update, values, constant, hrequest, _, _, hfilter, hidentity⟩ :=
    hwrites _ (List.mem_singleton_self _)
  refine ⟨_, _, member, key, values, constant, rfl, @List.mem_of_getElem? _ _ 1 _ rfl, rfl,
    hdescribes, hkey, ⟨update, congrArg (fun request => [request]) hrequest, hfilter⟩, ?_⟩
  exact hidentity.2 fun hrekeyed => Bool.false_ne_true hrekeyed.1

namespace Shipping

def lineParentField : Field := ⟨0, "parent_id", .bigInt⟩

def numberField : Field := ⟨1, "n", .bigInt⟩

def line : EntityType := ⟨4, "Line", [lineParentField, numberField, noteField]⟩

/-- Parcels that hold lines. -/
def listing : ClassMapping where
  type := parcel
  table := "parcels"
  keys := [.generatedKey "id" idField]
  properties := [.plain "parent_id" parentField]
  relations := [⟨"lines", parcel, 0, .many line (some parentKey), none, []⟩]
  initialFields := []
  initialMembers := []
  sound := rfl

/-- Lines, counted in each parcel. -/
def lines : ClassMapping where
  type := line
  table := "lines"
  keys := [.key "parent_id" lineParentField, .key "n" numberField]
  properties := [.plain "note" noteField]
  relations := []
  initialFields := []
  initialMembers := []
  sound := rfl

def lists : Registry := ⟨[orders, listing, lines], rfl⟩

def listOf (id : Int64) (lines : List Entity) : Entity :=
  .mk parcel [(idField, .bigInt id), (parentField, .bigInt 1)]
    (lines.map fun line => (.many 4 0, line))

def lineOf (parent number : Int64) (note : String) : Entity :=
  .mk line [(lineParentField, .bigInt parent), (numberField, .bigInt number),
    (noteField, .text note)] []

/-- Two parcels with a first line each. -/
def listed : Entity := orderOf 1 [listOf 1 [lineOf 1 1 "glass"], listOf 2 [lineOf 2 1 "books"]]

/-- The line of the first parcel has another text and stands in the second parcel, under the
number that it had. -/
def relisted : Entity := orderOf 1 [listOf 1 [], listOf 2 [lineOf 2 1 "books", lineOf 1 1 "vase"]]

end Shipping

/-- The UPDATE of a line that moved to another parcel addresses the line with its number
there. -/
theorem relisted_addresses_other :
    ∃ changes turn key, ∃ update : Update,
      Shipping.lists.compare (some Shipping.listed) (some Shipping.relisted) (fun _ _ => true) =
        .ok changes ∧
      turn ∈ writeTurns Script.environment Shipping.lists .postgres .transaction changes
        (some Shipping.listed) .standard (some Shipping.relisted) Shipping.quiet ∧
      turn.item.state = .modified ∧ turn.item.key = some key ∧
      turn.requests = [.execute .transaction (update.build .postgres)] ∧
      update.filter = Expr.columnsAre? [("parent_id", .bigInt 2), ("n", .bigInt 1)] ∧
      [Value.bigInt 2, .bigInt 1].map Value.keyForm ≠ key.values := by
  refine ⟨_, _, _, memberUpdate Shipping.lines (Shipping.lineOf 2 1 "vase") none none, rfl,
    @List.mem_of_getElem? _ _ 0 _ rfl, rfl, rfl, rfl, rfl, ?_⟩
  intro hsame
  exact absurd (Value.bigInt.inj (List.cons.inj hsame).1) (by decide)

end AggregateSync
