import AggregateSync.Proofs.Graph.Partition
import AggregateSync.Proofs.Graph.Resolution
import AggregateSync.Proofs.Sql.Assignments
import AggregateSync.Session.Persist

/-!
# The statements of members

Preparing a write reads the graph and can fail in several ways; what it sends is
decided by the class, the member, and what the row says about its parent.
`memberInsert`, `memberUpdate` and `memberDelete` give the statements in terms of these
alone, and the theorems of this module say when they are prepared.
-/

namespace AggregateSync

/-- The condition that several columns have given values, if there are any. -/
def Expr.columnsAre? (entries : List (String × Value)) : Option Expr :=
  Expr.all? (entries.map fun entry => Expr.columnIs entry.1 entry.2)

/-- The column that a subset constant is stored in, with the constant. -/
def SubsetColumn.entry (subset : SubsetColumn) : String × Value :=
  (subset.column, subset.value)

/-- The constant of the relation, if it is stored in a column. -/
def constantAt? (subset : Option SubsetColumn) (column : String) : Option Value :=
  (subset.filter fun constant => constant.column = column).map SubsetColumn.value

namespace ClassMapping

/-- The columns of properties with what the fields of an entity show. -/
def entries (e : Entity) (properties : List Property) : List (String × Value) :=
  properties.map fun property => (property.column, e.read property.field)

/-- What the last of some properties that are stored in a column shows. -/
def lastShown? (e : Entity) (properties : List Property) (column : String) : Option Value :=
  (entries e properties).reverse.lookup column

/-- The value of a property stands in its column unless another property of the column differs. -/
theorem lastShown?_eq_some {e : Entity} {properties : List Property} {property : Property}
    (hproperty : property ∈ properties)
    (hagree : ∀ other ∈ properties, other.column = property.column →
      e.read other.field = e.read property.field) :
    lastShown? e properties property.column = some (e.read property.field) := by
  apply lookup_eq_some_of_agree
  · rw [List.mem_reverse]
    exact List.mem_map_of_mem hproperty
  · intro entry hentry hsame
    rw [List.mem_reverse] at hentry
    obtain ⟨other, hother, rfl⟩ := List.mem_map.1 hentry
    exact hagree other hother hsame

/-- Is the key one that the database is yet to assign? -/
def awaits (e : Entity) (key : Property) : Bool :=
  key.generated && (e.read key.field).isUnsaved

theorem exists_generatedKey {mapping : ClassMapping} {shown : Entity}
    (hawaits : mapping.keys.any (awaits shown) = true) :
    ∃ key, mapping.generatedKey? = some key := by
  rw [← Option.isSome_iff_exists, generatedKey?, List.find?_isSome]
  obtain ⟨key, hkey, htrue⟩ := List.any_eq_true.1 hawaits
  rw [awaits, Bool.and_eq_true] at htrue
  exact ⟨key, hkey, htrue.1⟩

end ClassMapping

/-- The row of a new member. -/
def memberInsert (mapping : ClassMapping) (e : Entity) (extra : Option (String × Value))
    (subset : Option SubsetColumn) : Insert :=
  ⟨mapping.table, assignAll
    (ClassMapping.entries e (mapping.keys.filter fun key => !ClassMapping.awaits e key) ++
      ClassMapping.entries e mapping.writableProperties ++ extra.toList ++
      (subset.map SubsetColumn.entry).toList)⟩

/-- The change of the row of a member. -/
def memberUpdate (mapping : ClassMapping) (e : Entity) (extra : Option (String × Value))
    (subset : Option SubsetColumn) : Update :=
  ⟨mapping.table,
    assignAll (ClassMapping.entries e mapping.writableProperties ++ extra.toList),
    Expr.columnsAre? (ClassMapping.entries e mapping.keys ++
      (subset.map SubsetColumn.entry).toList)⟩

/-- The foreign key as a condition, unless it is part of the key already. -/
def ClassMapping.parentEntries (mapping : ClassMapping) :
    Option ForeignKeyValue → List (String × Value)
  | none => []
  | some foreignKey =>
    if mapping.keys.any fun key => key.column == foreignKey.column then []
    else [(foreignKey.column, foreignKey.value)]

/-- The removal of the row of a member. -/
def memberDelete (mapping : ClassMapping) (e : Entity) (foreignKey : Option ForeignKeyValue)
    (subset : Option SubsetColumn) : Delete :=
  ⟨mapping.table, Expr.columnsAre? (ClassMapping.entries e mapping.keys ++
    mapping.parentEntries foreignKey ++ (subset.map SubsetColumn.entry).toList)⟩

/-- How a member takes the value of its foreign key: not at all, as a further column, or
in a property, which shows the value converted to its type. -/
inductive TakesForeignKey (mapping : ClassMapping) (e : Entity) :
    Option ForeignKeyValue → Entity → Option (String × Value) → Prop where
  | none : TakesForeignKey mapping e none e none
  | column (column : String) (value : Value) :
      TakesForeignKey mapping e (some ⟨column, .none, value⟩) e (some (column, value))
  | property (column name : String) (value : Value) {property : Property} {shown : Value}
      (hproperty : mapping.property? name = some property)
      (hread : property.field.type.read value = .ok shown) :
      TakesForeignKey mapping e (some ⟨column, some name, value⟩)
        (e.write property.field shown) .none

/-- What some written properties leave in the column of the foreign key: its value if it is no
property, and otherwise what the last of them that is stored in the column shows.  This need not
be the property that the foreign key names, and if the named one is read-only or stored
elsewhere there may be none. -/
def ForeignKeyValue.written? (given : ForeignKeyValue) (shown : Entity)
    (properties : List Property) : Option Value :=
  if given.property.isNone then some given.value
  else ClassMapping.lastShown? shown properties given.column

/-! ## Conditions -/

theorem Expr.conjoin_columnsAre? (entries : List (String × Value)) (entry : String × Value) :
    some (Expr.conjoin (Expr.columnsAre? entries) (Expr.columnIs entry.1 entry.2)) =
      Expr.columnsAre? (entries ++ [entry]) := by
  cases entries with
  | nil => rfl
  | cons first rest =>
      simp only [Expr.columnsAre?, Expr.all?, Expr.conjoin, List.map_cons, List.cons_append,
        List.map_append, List.map_nil, List.foldl_append, List.foldl_cons, List.foldl_nil]

theorem Expr.columnsAre?_isSome {entries : List (String × Value)} (hentries : entries ≠ []) :
    (Expr.columnsAre? entries).isSome := by
  cases entries with
  | nil => exact absurd rfl hentries
  | cons first rest => rfl

/-! ## Reading a member -/

namespace ClassMapping

variable {mapping : ClassMapping} {e : Entity}

theorem set_eq_ok (hsame : e.type.same mapping.type = true) {property : Property}
    {value : Value} {after : Entity} :
    mapping.set property value e = .ok after ↔
      ∃ shown, property.field.type.read value = .ok shown ∧
        after = e.write property.field shown := by
  rw [set, Property.set]
  cases property.field.type.read value with
  | error fault => simp
  | ok shown => simp [hsame, eq_comm]

theorem valuesOf_of_same (hsame : e.type.same mapping.type = true)
    (properties : List Property) :
    mapping.valuesOf e properties =
      .ok (properties.map fun property => (property, e.read property.field)) := by
  apply Result.mapM_eq_map
  intro property _
  rw [get_of_same hsame]
  rfl

theorem keys_ne_nil (mapping : ClassMapping) : mapping.keys ≠ [] := by
  intro hkeys
  have hsound := mapping.sound
  rw [ClassDeclaration.fault?, hkeys] at hsound
  cases hsound

end ClassMapping

theorem keyFilter_of_same {mapping : ClassMapping} {e : Entity}
    (hsame : e.type.same mapping.type = true) :
    ∃ condition, keyFilter mapping e = .ok condition ∧
      Expr.columnsAre? (ClassMapping.entries e mapping.keys) = some condition := by
  have hentries : ClassMapping.entries e mapping.keys ≠ [] := by
    simpa [ClassMapping.entries] using mapping.keys_ne_nil
  obtain ⟨condition, hcondition⟩ :=
    Option.isSome_iff_exists.1 (Expr.columnsAre?_isSome hentries)
  refine ⟨condition, ?_, hcondition⟩
  rw [keyFilter, ClassMapping.valuesOf_of_same hsame, Result.ok_bind]
  rw [Expr.columnsAre?, ClassMapping.entries, List.map_map] at hcondition
  rw [List.map_map]
  simp only [Function.comp_def] at hcondition ⊢
  rw [hcondition]
  rfl

/-- A foreign key is applied without failure exactly in the ways of
`TakesForeignKey`. -/
theorem applyForeignKey_eq_ok {mapping : ClassMapping} {e after : Entity}
    (hsame : e.type.same mapping.type = true) {foreignKey : Option ForeignKeyValue}
    {extra : Option (String × Value)} :
    applyForeignKey mapping e foreignKey = .ok (after, extra) ↔
      TakesForeignKey mapping e foreignKey after extra := by
  constructor
  · intro happly
    cases foreignKey with
    | none =>
        cases happly
        exact .none
    | some foreignKey =>
        obtain ⟨column, property?, value⟩ := foreignKey
        cases property? with
        | none =>
            cases happly
            exact .column column value
        | some name =>
            obtain ⟨property, hproperty, happly⟩ := Result.bind_eq_ok.1 happly
            obtain ⟨written, hwritten, happly⟩ := Result.bind_eq_ok.1 happly
            obtain ⟨shown, hread, rfl⟩ := (ClassMapping.set_eq_ok hsame).1 hwritten
            cases happly
            exact .property column name value (ClassMapping.requireProperty_eq_ok.1 hproperty)
              hread
  · intro htakes
    cases htakes with
    | none => rfl
    | column column value => rfl
    | property column name value hproperty hread =>
        have hset := (ClassMapping.set_eq_ok hsame).2 ⟨_, hread, rfl⟩
        rw [applyForeignKey]
        simp only [ClassMapping.requireProperty_eq_ok.2 hproperty, Result.ok_bind, hset]
        rfl

theorem TakesForeignKey.type_eq {mapping : ClassMapping} {e after : Entity}
    {foreignKey : Option ForeignKeyValue} {extra : Option (String × Value)}
    (htakes : TakesForeignKey mapping e foreignKey after extra) : after.type = e.type := by
  cases htakes <;> simp

theorem TakesForeignKey.members_eq {mapping : ClassMapping} {e after : Entity}
    {foreignKey : Option ForeignKeyValue} {extra : Option (String × Value)}
    (htakes : TakesForeignKey mapping e foreignKey after extra) :
    after.members = e.members := by
  cases htakes <;> simp

section Taken

variable {mapping : ClassMapping} {e shown : Entity} {given : ForeignKeyValue}
  {extra : Option (String × Value)}

/-- A foreign key that is a property shows there, converted, and comes as no further column. -/
theorem TakesForeignKey.exists_shows
    (htakes : TakesForeignKey mapping e (some given) shown extra) {name : String}
    (hname : given.property = some name) :
    extra = .none ∧ ∃ property, mapping.property? name = some property ∧
      property.field.type.read given.value = .ok (shown.read property.field) := by
  cases htakes with
  | column => cases hname
  | property _ _ _ hproperty hread =>
      cases hname
      refine ⟨rfl, _, hproperty, ?_⟩
      rwa [Entity.read_write (FieldType.holds_of_read hread)]

/-- Taking a foreign key changes no field but that of its property. -/
theorem TakesForeignKey.read_eq (htakes : TakesForeignKey mapping e (some given) shown extra)
    {field : Field} (hother : ∀ name property, given.property = some name →
      mapping.property? name = some property → property.field ≠ field) :
    shown.read field = e.read field := by
  cases htakes with
  | column => rfl
  | property _ _ _ hproperty _ =>
      exact Entity.read_write_of_ne fun hfield => hother _ _ rfl hproperty hfield.symm

/-- What is written of a member leaves in the column of the foreign key what it takes. -/
theorem TakesForeignKey.lookup_eq_written
    (htakes : TakesForeignKey mapping e (some given) shown extra) (properties : List Property) :
    (extra.toList.lookup given.column).or
        (ClassMapping.lastShown? shown properties given.column) =
      given.written? shown properties := by
  cases htakes with
  | column =>
      rw [Option.toList_some, List.lookup_cons, beq_self_eq_true]
      rfl
  | property => rfl

end Taken

/-- Entities that show the same take a foreign key in the same way. -/
theorem TakesForeignKey.of_label {mapping : ClassMapping} {e other after : Entity}
    {foreignKey : Option ForeignKeyValue} {extra : Option (String × Value)}
    (htakes : TakesForeignKey mapping e foreignKey after extra)
    (hlabel : e.label = other.label) :
    ∃ after', TakesForeignKey mapping other foreignKey after' extra ∧
      after.label = after'.label := by
  cases htakes with
  | none => exact ⟨other, .none, hlabel⟩
  | column column value => exact ⟨other, .column column value, hlabel⟩
  | property column name value hproperty hread =>
      refine ⟨_, .property column name value hproperty hread, ?_⟩
      obtain ⟨type, fields, members⟩ := e
      obtain ⟨type', fields', members'⟩ := other
      obtain ⟨htype, hfields⟩ := Prod.mk.inj hlabel
      obtain rfl : type = type' := htype
      obtain rfl : fields = fields' := hfields
      rfl

theorem ClassMapping.entries_of_label {e other : Entity} (hlabel : e.label = other.label)
    (properties : List Property) :
    ClassMapping.entries e properties = ClassMapping.entries other properties := by
  rw [entries, entries]
  apply List.map_congr_left
  intro property _
  rw [Entity.read_of_label hlabel]

theorem memberUpdate_of_label {mapping : ClassMapping} {e other : Entity}
    (hlabel : e.label = other.label) (extra : Option (String × Value))
    (subset : Option SubsetColumn) :
    memberUpdate mapping e extra subset = memberUpdate mapping other extra subset := by
  simp only [memberUpdate, ClassMapping.entries_of_label hlabel]

theorem ClassMapping.writableProperties_ne_nil {filter : PropertyFilter}
    {mapping : ClassMapping} {old e : Entity} (hdiffer : differences filter mapping old e ≠ []) :
    mapping.writableProperties ≠ [] := by
  intro hnone
  apply hdiffer
  rw [differences, hnone]
  rfl

theorem memberUpdate_isEmpty_of_differences {filter : PropertyFilter} {mapping : ClassMapping}
    {old e : Entity} (hdiffer : differences filter mapping old e ≠ []) (shown : Entity)
    (extra : Option (String × Value)) (subset : Option SubsetColumn) :
    (memberUpdate mapping shown extra subset).isEmpty = false := by
  have hassigned : assignAll (ClassMapping.entries shown mapping.writableProperties ++
      extra.toList) ≠ [] := by
    apply assignAll_ne_nil
    simp [ClassMapping.entries, ClassMapping.writableProperties_ne_nil hdiffer]
  rw [Update.isEmpty, memberUpdate, List.isEmpty_eq_false_iff]
  exact hassigned

/-! ## What a row says about the parent -/

/-- The value of the foreign key that a parent gives to a child of a class. -/
def GivesForeignKey (mapping : ClassMapping) (relation : Relation) (child : EntityType)
    (parent : Entity) (value : ForeignKeyValue) : Prop :=
  ∃ foreignKey referenced, relation.foreignKey? child = some foreignKey ∧
    mapping.property? foreignKey.referenced = some referenced ∧
    (parent.read referenced.field).isNull = false ∧
    (referenced.generated && (parent.read referenced.field).isUnsaved) = false ∧
    value = ⟨foreignKey.column, foreignKey.property, parent.read referenced.field⟩

theorem ClassMapping.foreignKeyValue_eq_ok {mapping : ClassMapping} {relation : Relation}
    {child : EntityType} {parent : Entity} (hsame : parent.type.same mapping.type = true)
    {value : ForeignKeyValue} :
    mapping.foreignKeyValue relation child parent = .ok value ↔
      GivesForeignKey mapping relation child parent value := by
  rw [foreignKeyValue, GivesForeignKey]
  cases relation.foreignKey? child with
  | none => simp [bind, Except.bind]
  | some foreignKey =>
      change (mapping.requireProperty foreignKey.referenced >>= _) = _ ↔ _
      rw [Result.bind_eq_ok]
      simp only [requireProperty_eq_ok, get_of_same hsame, Result.ok_bind,
        Option.some.injEq]
      constructor
      · rintro ⟨referenced, hreferenced, hvalue⟩
        split at hvalue
        · cases hvalue
        · next hpresent =>
            simp only [Bool.or_eq_true, not_or, Bool.not_eq_true] at hpresent
            cases hvalue
            exact ⟨foreignKey, referenced, rfl, hreferenced, hpresent.1, hpresent.2, rfl⟩
      · rintro ⟨_, referenced, rfl, hreferenced, hnull, hunsaved, rfl⟩
        refine ⟨referenced, hreferenced, ?_⟩
        rw [hnull, hunsaved]
        rfl

/-- The graph of a side. -/
def Side.graph (side : Side) (snapshot current : Option Entity) : Option Entity :=
  match side with
  | .current => current
  | .snapshot => snapshot

section ParentLink

variable {registry : Registry} {change : Change} {snapshot current : Option Entity}
  {propagate : Bool}

theorem parentLink_root (hpath : change.path = []) :
    parentLink registry change snapshot current propagate = .ok ⟨none, none⟩ := by
  rw [parentLink, hpath]
  rfl

section Read

variable {path : Path} {segment : Segment} {root parent : Entity} {mapping : ClassMapping}
  {relation : Relation}

/-- The link of a member whose parent can be read in the graph of its side. -/
theorem parentLink_eq (hpath : change.path = path ++ [segment])
    (hrelation : change.relation = some segment.relation)
    (hgraph : change.side.graph snapshot current = some root)
    (hparent : registry.resolve root path = .ok parent)
    (hmapping : registry.mappingFor parent = .ok mapping)
    (hindex : mapping.relations[segment.relation]? = some relation) :
    parentLink registry change snapshot current propagate =
      if propagate then do
        let value ← mapping.foreignKeyValue relation change.type parent
        return ⟨some value, relation.subset⟩
      else return ⟨none, relation.subset⟩ := by
  have hread : parentLink registry change snapshot current propagate = (do
      let parent ← registry.resolve root path
      let mapping ← registry.mappingFor parent
      let relation ← mapping.relationAt segment.relation
      if propagate then
        let value ← mapping.foreignKeyValue relation change.type parent
        return ⟨some value, relation.subset⟩
      else return ⟨none, relation.subset⟩) := by
    rw [parentLink, hpath, Path.parent?_append_singleton, hrelation]
    cases hside : change.side <;> rw [hside, Side.graph] at hgraph <;> rw [hgraph] <;> rfl
  rw [hread, hparent, Result.ok_bind, hmapping, Result.ok_bind,
    ClassMapping.relationAt_eq_ok.2 hindex, Result.ok_bind]

/-- What the link says, if it is read. -/
theorem parentLink_eq_ok (hpath : change.path = path ++ [segment])
    (hrelation : change.relation = some segment.relation)
    (hgraph : change.side.graph snapshot current = some root)
    (hparent : registry.resolve root path = .ok parent)
    (hmapping : registry.mappingFor parent = .ok mapping)
    (hindex : mapping.relations[segment.relation]? = some relation) {link : ParentLink} :
    parentLink registry change snapshot current propagate = .ok link ↔
      link.subset = relation.subset ∧
        if propagate then ∃ value, link.foreignKey = some value ∧
          GivesForeignKey mapping relation change.type parent value
        else link.foreignKey = none := by
  rw [parentLink_eq hpath hrelation hgraph hparent hmapping hindex]
  obtain ⟨foreignKey, subset⟩ := link
  cases propagate with
  | false =>
      simp only [Bool.false_eq_true, if_false, Result.pure_eq_ok, ParentLink.mk.injEq]
      constructor
      · rintro ⟨rfl, rfl⟩
        exact ⟨rfl, rfl⟩
      · rintro ⟨rfl, rfl⟩
        exact ⟨rfl, rfl⟩
  | true =>
      simp only [if_true, Result.bind_eq_ok, Result.pure_eq_ok, ParentLink.mk.injEq,
        ClassMapping.foreignKeyValue_eq_ok (Registry.same_of_mappingFor hmapping)]
      constructor
      · rintro ⟨value, hgives, rfl, rfl⟩
        exact ⟨rfl, value, rfl, hgives⟩
      · rintro ⟨rfl, value, rfl, hgives⟩
        exact ⟨value, hgives, rfl, rfl⟩

end Read

end ParentLink

/-! ## Members in their graph -/

/-- The member that a change tells of, as a graph holds it. -/
structure Change.StandsIn (change : Change) (registry : Registry) (root : Entity)
    (mapping : ClassMapping) (e : Entity) (address : Address) : Prop where
  mapped : registry.find? change.type.id = some mapping
  resolve : registry.resolve root change.path = .ok e
  address : registry.addressOf? change.path root = some address
  same : e.type.same mapping.type = true

namespace Change.StandsIn

variable {change : Change} {registry : Registry} {root : Entity} {mapping : ClassMapping}
  {e : Entity} {address : Address}

theorem mappingById (hstands : change.StandsIn registry root mapping e address) :
    registry.mappingById change.type.id = .ok mapping := by
  rw [Registry.mappingById, hstands.mapped]

theorem at? (hstands : change.StandsIn registry root mapping e address) :
    root.at? address = some e := by
  obtain ⟨found, hfound, hat⟩ := Registry.addressOf?_of_descend hstands.resolve
  rw [hstands.address, Option.some.injEq] at hfound
  rwa [hfound]

theorem locate (hstands : change.StandsIn registry root mapping e address) :
    registry.locate root change.path = .ok ⟨e, root.putAt address⟩ := by
  obtain ⟨found, hfound, hplace⟩ := Registry.descendToPlace_of_descend hstands.resolve
  rw [hstands.address, Option.some.injEq] at hfound
  rw [Registry.locate, hplace, hfound]

/-- The member stands in every graph of the shape. -/
theorem of_sameShape (hstands : change.StandsIn registry root mapping e address)
    {other : Entity} (hshape : root.SameShape other) :
    ∃ e', change.StandsIn registry other mapping e' address ∧ e'.type = e.type := by
  obtain ⟨e', hresolve, hbelow⟩ := Registry.descend_of_sameShape hshape hstands.resolve
  refine ⟨e', ⟨hstands.mapped, hresolve, ?_, ?_⟩, hbelow.type_eq.symm⟩
  · rw [← Registry.addressOf?_of_sameShape hshape, hstands.address]
  · rw [← hbelow.type_eq]
    exact hstands.same

/-- Once the member itself is replaced, the replacement stands in the graph. -/
theorem putAt (hstands : change.StandsIn registry root mapping e address) {after : Entity}
    (htype : after.type = e.type) (hmembers : after.members = e.members) :
    change.StandsIn registry (root.putAt address after) mapping after address := by
  have hshape := Entity.SameShape.putAt hstands.at? htype hmembers
  obtain ⟨e', hstands', _⟩ := hstands.of_sameShape hshape
  have hat := hstands'.at?
  rw [Entity.at?_putAt_self after hstands.at?] at hat
  cases hat
  exact hstands'

end Change.StandsIn

theorem IsTraversal.standsIn {registry : Registry} {root : Entity} {members : List Member}
    (htraversal : IsTraversal registry root members) {member : Member}
    (hmember : member ∈ members) {change : Change} {side : Side}
    (hdescribes : change.Describes side member) :
    ∃ address, change.StandsIn registry root member.mapping member.entity address := by
  have hresolve := htraversal.resolve hmember
  obtain ⟨address, haddress, _⟩ := Registry.addressOf?_of_descend hresolve
  have hknown := htraversal.known member hmember
  have hfind := Registry.mappingFor_eq_ok.1 hknown.1
  refine ⟨address, ?_, ?_, ?_, hknown.same_type⟩
  · rw [hdescribes.type, Registry.same_of_find? hfind, hfind]
  · rw [hdescribes.path, hresolve]
  · rw [hdescribes.path, haddress]

/-- The parent of a member is read in every graph of the same shape. -/
theorem IsTraversal.exists_holder {registry : Registry} {root : Entity} {members : List Member}
    (htraversal : IsTraversal registry root members) {child parent : Member}
    (hchild : child ∈ members) (hparent : parent ∈ members)
    (hbelow : child.IsDirectlyBelow parent) {met : Entity} (hshape : root.SameShape met) :
    ∃ segment relation holder, child.path = parent.path ++ [segment] ∧
      child.relation = some segment.relation ∧
      parent.mapping.relations[segment.relation]? = some relation ∧
      registry.resolve met parent.path = .ok holder ∧
      registry.mappingFor holder = .ok parent.mapping := by
  obtain ⟨_, segment, relation, hpath, hindex, hrelation, _⟩ :=
    htraversal.isChildOf_of_isDirectlyBelow hchild hparent hbelow
  obtain ⟨holder, hresolve, hsame⟩ :=
    Registry.descend_of_sameShape hshape (htraversal.resolve hparent)
  refine ⟨segment, relation, holder, hpath, hindex, hrelation, hresolve, ?_⟩
  rw [← Registry.mappingFor_congr hsame.type_eq]
  exact (htraversal.known parent hparent).1

/-- The parent of a member, in a graph of the same shape, and what a row says about it. -/
theorem IsTraversal.exists_parentLink {registry : Registry} {root : Entity}
    {members : List Member} (htraversal : IsTraversal registry root members)
    {child parent : Member} (hchild : child ∈ members) (hparent : parent ∈ members)
    (hbelow : child.IsDirectlyBelow parent) {change : Change} {side : Side}
    (hdescribes : change.Describes side child) {snapshot current : Option Entity} {met : Entity}
    (hgraph : side.graph snapshot current = some met) (hshape : root.SameShape met) :
    ∃ segment relation holder, child.path = parent.path ++ [segment] ∧
      parent.mapping.relations[segment.relation]? = some relation ∧
      registry.resolve met parent.path = .ok holder ∧
      ∀ propagate link, parentLink registry change snapshot current propagate = .ok link →
        link.subset = relation.subset ∧
          if propagate then ∃ value, link.foreignKey = some value ∧
            GivesForeignKey parent.mapping relation child.mapping.type holder value
          else link.foreignKey = none := by
  obtain ⟨segment, relation, holder, hpath, hindex, hrelation, hresolve, hmapping⟩ :=
    htraversal.exists_holder hchild hparent hbelow hshape
  rw [← hdescribes.side] at hgraph
  refine ⟨segment, relation, holder, hpath, hrelation, hresolve, ?_⟩
  intro propagate link hlink
  rw [← hdescribes.type]
  exact (parentLink_eq_ok (hdescribes.path.trans hpath) (hdescribes.relation.trans hindex)
    hgraph hresolve hmapping hrelation).1 hlink

/-! ## Prepared writes -/

/-- The properties with their values, as columns. -/
def columnEntries (entries : List (Property × Value)) : List (String × Value) :=
  entries.map fun entry => (entry.1.column, entry.2)

theorem columnEntries_read (e : Entity) (properties : List Property) :
    columnEntries (properties.map fun property => (property, e.read property.field)) =
      ClassMapping.entries e properties :=
  List.map_map

theorem Insert.foldl_value_column (entries : List (Property × Value)) (insert : Insert) :
    entries.foldl (fun insert entry => insert.value entry.1.column entry.2) insert =
      ⟨insert.table, (columnEntries entries).foldl
        (fun assigned entry => assign entry.1 entry.2 assigned) insert.assignments⟩ := by
  rw [← foldl_value, columnEntries, List.foldl_map]

theorem Update.foldl_set_column (entries : List (Property × Value)) (update : Update) :
    entries.foldl (fun update entry => update.set entry.1.column entry.2) update =
      ⟨update.table, (columnEntries entries).foldl
        (fun assigned entry => assign entry.1 entry.2 assigned) update.assignments,
        update.filter⟩ := by
  rw [← foldl_set, columnEntries, List.foldl_map]

/-- What a new row assigns, in turn: the values of its properties, the foreign key that has no
property, and the subset constant. -/
def rowEntries (keys properties : List (Property × Value)) (extra : Option (String × Value))
    (subset : Option SubsetColumn) : List (String × Value) :=
  columnEntries ((keys.filter fun entry => !awaitsKey entry) ++ properties) ++ extra.toList ++
    (subset.map SubsetColumn.entry).toList

theorem newRow_eq (mapping : ClassMapping) (keys properties : List (Property × Value))
    (extra : Option (String × Value)) (subset : Option SubsetColumn) :
    newRow mapping keys properties extra subset =
      ⟨mapping.table, assignAll (rowEntries keys properties extra subset)⟩ := by
  rw [newRow, Insert.foldl_value_column, rowEntries]
  cases extra with
  | none =>
      cases subset with
      | none => simp [assignAll, Insert.intoTable]
      | some subset =>
          simp [assignAll, Insert.intoTable, Insert.value, SubsetColumn.entry]
  | some extra =>
      cases subset with
      | none => simp [assignAll, Insert.intoTable, Insert.value]
      | some subset =>
          simp [assignAll, Insert.intoTable, Insert.value, SubsetColumn.entry]

/-- The row of a new member, from the values that were read. -/
theorem newRow_eq_memberInsert (mapping : ClassMapping) (e : Entity)
    (extra : Option (String × Value)) (subset : Option SubsetColumn) :
    newRow mapping (mapping.keys.map fun property => (property, e.read property.field))
        (mapping.writableProperties.map fun property => (property, e.read property.field))
        extra subset =
      memberInsert mapping e extra subset := by
  have hown : columnEntries ((mapping.keys.map fun property =>
        (property, e.read property.field)).filter (fun entry => !awaitsKey entry) ++
          mapping.writableProperties.map fun property => (property, e.read property.field)) =
      ClassMapping.entries e (mapping.keys.filter fun key => !ClassMapping.awaits e key) ++
        ClassMapping.entries e mapping.writableProperties := by
    rw [List.filter_map, columnEntries, List.map_append]
    exact congrArg₂ (· ++ ·) (columnEntries_read ..) (columnEntries_read ..)
  rw [newRow_eq, rowEntries, hown, memberInsert]

theorem Delete.withFilter_columnIs (table : String) (entries : List (String × Value))
    (column : String) (value : Value) :
    (Delete.mk table (Expr.columnsAre? entries)).withFilter (Expr.columnIs column value) =
      ⟨table, Expr.columnsAre? (entries ++ [(column, value)])⟩ := by
  rw [Delete.withFilter, Expr.conjoin_columnsAre? entries (column, value)]

theorem Update.withFilter_columnIs (table : String) (assignments entries : List (String × Value))
    (column : String) (value : Value) :
    (Update.mk table assignments (Expr.columnsAre? entries)).withFilter
        (Expr.columnIs column value) =
      ⟨table, assignments, Expr.columnsAre? (entries ++ [(column, value)])⟩ := by
  rw [Update.withFilter, Expr.conjoin_columnsAre? entries (column, value)]

/-- What an UPDATE assigns, from the values that were read. -/
theorem assigned_eq (mapping : ClassMapping) (e : Entity) (extra : Option (String × Value)) :
    (extra.elim ((mapping.writableProperties.map fun property =>
          (property, e.read property.field)).foldl
        (fun update entry => update.set entry.1.column entry.2) (Update.ofTable mapping.table))
      fun entry => ((mapping.writableProperties.map fun property =>
          (property, e.read property.field)).foldl
        (fun update entry => update.set entry.1.column entry.2)
          (Update.ofTable mapping.table)).set entry.1 entry.2) =
      ⟨mapping.table,
        assignAll (ClassMapping.entries e mapping.writableProperties ++ extra.toList), none⟩ := by
  rw [Update.foldl_set_column, columnEntries_read]
  cases extra with
  | none => rw [Option.elim_none, Option.toList_none, List.append_nil]; rfl
  | some entry => rw [Option.elim_some, Option.toList_some, assignAll_concat]; rfl

/-- What an UPDATE is narrowed to. -/
theorem narrowed_eq {mapping : ClassMapping} {e : Entity} {condition : Expr}
    (hcondition : Expr.columnsAre? (ClassMapping.entries e mapping.keys) = some condition)
    (assignments : List (String × Value)) (subset : Option SubsetColumn) :
    (subset.elim ((Update.mk mapping.table assignments none).withFilter condition)
        fun subset => ((Update.mk mapping.table assignments none).withFilter
          condition).withFilter subset.condition) =
      ⟨mapping.table, assignments, Expr.columnsAre? (ClassMapping.entries e mapping.keys ++
        (subset.map SubsetColumn.entry).toList)⟩ := by
  have haddressed : (Update.mk mapping.table assignments none).withFilter condition =
      ⟨mapping.table, assignments,
        Expr.columnsAre? (ClassMapping.entries e mapping.keys)⟩ := by
    rw [hcondition]
    rfl
  rw [haddressed]
  cases subset with
  | none => rw [Option.elim_none, Option.map_none, Option.toList_none, List.append_nil]
  | some subset =>
      rw [Option.elim_some, SubsetColumn.condition, Update.withFilter_columnIs]
      rfl

section Prepared

variable {registry : Registry} {dialect : Dialect} {change : Change} {root e : Entity}
  {mapping : ClassMapping} {address : Address} {snapshot current : Option Entity}
  {propagate : Bool}

/-- The INSERT that is prepared is that of the member with its foreign key. -/
theorem prepareInsert_eq_ok (hstands : change.StandsIn registry root mapping e address)
    {after : Entity} {write : PreparedWrite} :
    prepareInsert registry dialect snapshot change root = .ok (after, write) ↔
      ∃ link shown extra,
        parentLink registry change snapshot (some root) true = .ok link ∧
        TakesForeignKey mapping e link.foreignKey shown extra ∧
        after = root.putAt address shown ∧
        write = ⟨(memberInsert mapping shown extra link.subset).build dialect, mapping.type,
          shown.describe, mapping.keys.any (ClassMapping.awaits shown)⟩ := by
  rw [prepareInsert]
  simp only [Result.bind_eq_ok, hstands.mappingById, hstands.locate, Result.pure_eq_ok,
    Except.ok.injEq, exists_eq_left', Prod.exists, applyForeignKey_eq_ok hstands.same,
    Prod.mk.injEq]
  apply exists_congr
  intro link
  constructor
  · rintro ⟨hlink, shown, extra, htakes, keys, hkeys, properties, hproperties, rfl, rfl⟩
    have hsame : shown.type.same mapping.type = true := by
      rw [htakes.type_eq]
      exact hstands.same
    rw [ClassMapping.valuesOf_of_same hsame] at hkeys hproperties
    cases hkeys
    cases hproperties
    refine ⟨shown, extra, hlink, htakes, rfl, ?_⟩
    rw [← newRow_eq_memberInsert, List.any_map]
    rfl
  · rintro ⟨shown, extra, hlink, htakes, rfl, rfl⟩
    have hsame : shown.type.same mapping.type = true := by
      rw [htakes.type_eq]
      exact hstands.same
    refine ⟨hlink, shown, extra, htakes, _, ClassMapping.valuesOf_of_same hsame _, _,
      ClassMapping.valuesOf_of_same hsame _, rfl, ?_⟩
    rw [← newRow_eq_memberInsert, List.any_map]
    rfl

/-- The DELETE that is prepared is that of the member in the snapshot. -/
theorem prepareDelete_eq_ok (hstands : change.StandsIn registry root mapping e address)
    {write : PreparedWrite} :
    prepareDelete registry dialect (some root) current propagate change = .ok write ↔
      ∃ link, parentLink registry change (some root) current propagate = .ok link ∧
        write = ⟨(memberDelete mapping e link.foreignKey link.subset).build dialect,
          mapping.type, e.describe, false⟩ := by
  obtain ⟨condition, hfilter, hcondition⟩ := keyFilter_of_same hstands.same
  rw [prepareDelete, Result.bind_eq_ok]
  apply exists_congr
  intro link
  apply and_congr_right
  intro _
  simp only [hstands.mappingById, Result.ok_bind, hstands.resolve, hfilter, pure, Except.pure,
    Except.ok.injEq]
  rw [eq_comm]
  apply Eq.congr_right
  have haddressed : (Delete.fromTable mapping.table).withFilter condition =
      ⟨mapping.table, Expr.columnsAre? (ClassMapping.entries e mapping.keys)⟩ := by
    rw [hcondition]
    rfl
  have hnarrowed : (link.foreignKey.elim ((Delete.fromTable mapping.table).withFilter condition)
      fun foreignKey =>
        if mapping.keys.any fun key => key.column == foreignKey.column then
          (Delete.fromTable mapping.table).withFilter condition
        else ((Delete.fromTable mapping.table).withFilter condition).withFilter
          (Expr.columnIs foreignKey.column foreignKey.value)) =
      ⟨mapping.table, Expr.columnsAre? (ClassMapping.entries e mapping.keys ++
        mapping.parentEntries link.foreignKey)⟩ := by
    rw [haddressed]
    cases link.foreignKey with
    | none => rw [ClassMapping.parentEntries, List.append_nil, Option.elim_none]
    | some foreignKey =>
        rw [ClassMapping.parentEntries, Option.elim_some, Delete.withFilter_columnIs]
        split
        · rw [List.append_nil]
        · rfl
  rw [hnarrowed, memberDelete]
  cases link.subset with
  | none => rw [Option.elim_none, Option.map_none, Option.toList_none, List.append_nil]
  | some subset =>
      rw [Option.elim_some, SubsetColumn.condition, Delete.withFilter_columnIs]
      rfl

/-- The UPDATE that is prepared is that of the member with its foreign key; it is left
out if it would assign nothing. -/
theorem prepareUpdate_eq_ok (hstands : change.StandsIn registry root mapping e address)
    {after : Entity} {write? : Option PreparedWrite} :
    prepareUpdate registry dialect snapshot propagate change root = .ok (after, write?) ↔
      ∃ link shown extra,
        parentLink registry change snapshot (some root) propagate = .ok link ∧
        TakesForeignKey mapping e link.foreignKey shown extra ∧
        after = root.putAt address shown ∧
        write? = if (memberUpdate mapping shown extra link.subset).isEmpty then none
          else some ⟨(memberUpdate mapping shown extra link.subset).build dialect,
            mapping.type, shown.describe, false⟩ := by
  rw [prepareUpdate]
  simp only [Result.bind_eq_ok, hstands.mappingById, hstands.locate,
    Except.ok.injEq, exists_eq_left', Prod.exists, applyForeignKey_eq_ok hstands.same]
  apply exists_congr
  intro link
  have hrest : ∀ {shown : Entity}, shown.type.same mapping.type = true →
      ∀ (assignments : List (String × Value)),
        (if (Update.mk mapping.table assignments none).isEmpty then
          pure (root.putAt address shown, none)
        else do
          let condition ← keyFilter mapping shown
          pure (root.putAt address shown, some ⟨(link.subset.elim
            ((Update.mk mapping.table assignments none).withFilter condition)
            fun subset => ((Update.mk mapping.table assignments none).withFilter
              condition).withFilter subset.condition).build dialect, mapping.type,
            shown.describe, false⟩) : Result (Entity × Option PreparedWrite)) =
        .ok (root.putAt address shown, if assignments.isEmpty then none
          else some ⟨(Update.mk mapping.table assignments (Expr.columnsAre?
            (ClassMapping.entries shown mapping.keys ++
              (link.subset.map SubsetColumn.entry).toList))).build dialect, mapping.type,
            shown.describe, false⟩) := by
    intro shown hsame assignments
    obtain ⟨condition, hfilter, hcondition⟩ := keyFilter_of_same hsame
    rw [hfilter, Result.ok_bind, narrowed_eq hcondition, Update.isEmpty]
    split <;> rfl
  constructor
  · rintro ⟨hlink, shown, extra, htakes, properties, hproperties, hprepared⟩
    have hsame : shown.type.same mapping.type = true := by
      rw [htakes.type_eq]
      exact hstands.same
    rw [ClassMapping.valuesOf_of_same hsame] at hproperties
    cases hproperties
    rw [assigned_eq, hrest hsame] at hprepared
    obtain ⟨rfl, rfl⟩ := Prod.mk.inj (Except.ok.inj hprepared)
    exact ⟨shown, extra, hlink, htakes, rfl, rfl⟩
  · rintro ⟨shown, extra, hlink, htakes, rfl, rfl⟩
    have hsame : shown.type.same mapping.type = true := by
      rw [htakes.type_eq]
      exact hstands.same
    refine ⟨hlink, shown, extra, htakes, _, ClassMapping.valuesOf_of_same hsame _, ?_⟩
    rw [assigned_eq, hrest hsame]
    rfl

end Prepared

end AggregateSync
