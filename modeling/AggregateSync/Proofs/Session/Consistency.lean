import AggregateSync.Proofs.Graph.Growth
import AggregateSync.Proofs.Session.Batching
import AggregateSync.Proofs.Session.Loading
import AggregateSync.Proofs.Session.Statements
import AggregateSync.Proofs.Value.Width

/-!
# Loaded children refer to their parents

A load gives a row to a parent because the foreign key of the row has the key form of the value
that the key refers to.  The child is read from the same row: where its foreign key is a property
of its own, the property shows what its type makes of the value in the row, and writing the value
of the parent there makes the same of a value of the same key form.  So an update after a load
leaves the foreign key as it is.
-/

namespace AggregateSync

/-! ## What a child was read from -/

namespace ClassMapping

variable {mapping : ClassMapping} {row : Row} {column : String} {value : Value} {field : Field}
  {start e : Entity}

theorem fill_shows (hvalue : row.value? column = some value) {properties : List Property}
    (hcolumn : ∀ property ∈ properties, property.field = field → property.column = column)
    (hfill : mapping.fill row properties start = .ok e)
    (hshows : field ∈ properties.map Property.field ∨
      field.type.read value = .ok (start.read field)) :
    field.type.read value = .ok (e.read field) := by
  induction properties generalizing start with
  | nil =>
      cases hfill
      exact hshows.resolve_left List.not_mem_nil
  | cons property rest ih =>
      obtain ⟨hfirst, hrest⟩ := List.forall_mem_cons.1 hcolumn
      rw [fill] at hfill
      by_cases hfield : property.field = field
      case pos =>
        -- the property is filled from the column, and so is every later one of the field
        rw [hfirst hfield, hvalue] at hfill
        obtain ⟨written, hwritten, hfill⟩ := Result.bind_eq_ok.1 hfill
        obtain ⟨shown, hread, rfl⟩ := exists_write_of_set hwritten
        refine ih hrest hfill (.inr ?_)
        rw [← hfield, Entity.read_write (FieldType.holds_of_read hread), hread]
      case neg =>
        have hlater : field ∈ rest.map Property.field ∨
            field.type.read value = .ok (start.read field) :=
          hshows.imp_left fun hmem => (List.mem_cons.1 hmem).resolve_left (Ne.symm hfield)
        split at hfill
        · obtain ⟨written, hwritten, hfill⟩ := Result.bind_eq_ok.1 hfill
          obtain ⟨shown, _, rfl⟩ := exists_write_of_set hwritten
          refine ih hrest hfill ?_
          rwa [Entity.read_write_of_ne (Ne.symm hfield)]
        · exact ih hrest hfill hlater

/-- A field that is stored in one column shows what its type makes of the value there. -/
theorem hydrate_shows (hvalue : row.value? column = some value)
    (hcolumn : ∀ property ∈ mapping.columns, property.field = field → property.column = column)
    (hfield : field ∈ mapping.columns.map Property.field) (hread : mapping.hydrate row = .ok e) :
    field.type.read value = .ok (e.read field) :=
  fill_shows hvalue hcolumn hread (.inl hfield)

end ClassMapping

/-- A child was read, before anything was attached to it, from a row that a foreign key of the
relation brought to its parent. -/
inductive Relation.Brings (registry : Registry) (relation : Relation) (parent child : Entity) : Prop
  | intro {holder mapping : ClassMapping} {target : Target} {foreignKey : ForeignKey}
      {referenced : Property} {row : Row} {loaded : Entity}
      (hholder : registry.find? parent.type.id = some holder)
      (htarget : target ∈ relation.targets) (hkey : target.foreignKey = some foreignKey)
      (hreferenced : holder.property? foreignKey.referenced = some referenced)
      (hmapping : registry.find? target.type.id = some mapping)
      (hread : mapping.hydrate row = .ok loaded) (hlabel : loaded.label = child.label)
      (hgiven : (parent.read referenced.field).isNull = false)
      (hrefers : (parent.read referenced.field).sameEntry
        ((row.value? foreignKey.column).getD .null) = true)

theorem Relation.isOfLabels_brings (registry : Registry) :
    Entity.IsOfLabels (Relation.Brings registry) := by
  rintro relation parent parent' child child' hparent hchild
    ⟨hholder, htarget, hkey, hreferenced, hmapping, hread, hlabel, hgiven, hrefers⟩
  have htype : parent.type = parent'.type := (Prod.mk.inj hparent).1
  rw [Entity.read_of_label hparent] at hgiven hrefers
  exact ⟨htype ▸ hholder, htarget, hkey, hreferenced, hmapping, hread, hlabel.trans hchild, hgiven,
    hrefers⟩

/-! ## What writing its parent's value does to a child -/

/-- The foreign key of a child is a property of its own: it is the only one that the relation
declares for the class of the child, and names a property that is stored in its column. -/
structure Relation.StoresKeyIn (relation : Relation) (registry : Registry) (child : Entity)
    (foreignKey : ForeignKey) (mapping : ClassMapping) (property : Property) : Prop where
  mapped : registry.find? child.type.id = some mapping
  declared : relation.foreignKey? child.type = some foreignKey
  only : ∀ target ∈ relation.targets, target.type.same child.type = true →
    ∀ other, target.foreignKey = some other → other = foreignKey
  named : ∃ name, foreignKey.property = some name ∧ mapping.property? name = some property
  stored : ∀ other ∈ mapping.columns, other.field = property.field →
    other.column = foreignKey.column

/-- A child refers to its parent: where it stores its foreign key in a property, writing the value
of the parent there succeeds and leaves the value of the property as it is up to key form.  That
value is what the parent gives to the child, unless it looks like a key that the database has yet
to assign. -/
def Relation.Refers (registry : Registry) (relation : Relation) (parent child : Entity) : Prop :=
  ∀ foreignKey mapping property,
    relation.StoresKeyIn registry child foreignKey mapping property →
    ∃ holder referenced, registry.find? parent.type.id = some holder ∧
      holder.property? foreignKey.referenced = some referenced ∧
      let value := parent.read referenced.field
      let given : ForeignKeyValue := ⟨foreignKey.column, foreignKey.property, value⟩
      (holder.foreignKeyValue relation child.type parent = .ok given ↔
        (referenced.generated && value.isUnsaved) = false) ∧
      (value.isZeroFree = true → ∃ written,
        applyForeignKey mapping child (some given) = .ok (written, none) ∧
        (written.read property.field).SameForm (child.read property.field))

section Refers

variable {registry : Registry} {relation : Relation} {parent child : Entity}
  {foreignKey : ForeignKey} {mapping holder : ClassMapping} {property referenced : Property}
  {value other : Value}

/-- The property shows what its type makes of the value that brought the child to its parent. -/
theorem Relation.Brings.exists_shown (hbrings : relation.Brings registry parent child)
    (hstores : relation.StoresKeyIn registry child foreignKey mapping property) :
    ∃ holder referenced value, registry.find? parent.type.id = some holder ∧
      holder.property? foreignKey.referenced = some referenced ∧
      (parent.read referenced.field).isNull = false ∧
      (parent.read referenced.field).sameEntry value = true ∧
      property.field.type.read value = .ok (child.read property.field) := by
  obtain @⟨holder, found, target, key, referenced, row, loaded, hholder, htarget, hkey,
    hreferenced, hmapping, hread, hlabel, hgiven, hrefers⟩ := hbrings
  have hclass := Registry.same_of_find? hmapping
  have htype : child.type = found.type :=
    (Prod.mk.inj hlabel).1.symm.trans (ClassMapping.type_of_hydrate hread)
  obtain rfl : found = mapping := by
    have hmapped := hstores.mapped
    rw [htype, hclass, hmapping] at hmapped
    exact Option.some.inj hmapped
  obtain rfl : key = foreignKey := by
    refine hstores.only target htarget ?_ key hkey
    rw [htype, EntityType.same, beq_iff_eq, hclass]
  -- the row has a value in the column, since nobody refers to NULL
  obtain ⟨value, hvalue⟩ : ∃ value, row.value? key.column = some value := by
    refine Option.ne_none_iff_exists'.1 fun hnone => ?_
    rw [hnone, Option.getD_none] at hrefers
    rw [Value.isNull_of_sameEntry_null hrefers] at hgiven
    cases hgiven
  rw [hvalue, Option.getD_some] at hrefers
  obtain ⟨_, _, hproperty⟩ := hstores.named
  have hfield : property.field ∈ found.columns.map Property.field :=
    List.mem_map_of_mem (List.mem_of_find?_eq_some hproperty)
  have hshows := ClassMapping.hydrate_shows hvalue hstores.stored hfield hread
  rw [Entity.read_of_label hlabel] at hshows
  exact ⟨holder, referenced, value, hholder, hreferenced, hgiven, hrefers, hshows⟩

/-- Writing a value of the same key form as the one that the property was read from. -/
theorem Relation.StoresKeyIn.exists_written
    (hstores : relation.StoresKeyIn registry child foreignKey mapping property)
    (hform : other.SameForm value)
    (hshows : property.field.type.read value = .ok (child.read property.field)) :
    ∃ written, applyForeignKey mapping child
        (some ⟨foreignKey.column, foreignKey.property, other⟩) = .ok (written, none) ∧
      (written.read property.field).SameForm (child.read property.field) := by
  have hsame : child.type.same mapping.type = true :=
    beq_iff_eq.2 (Registry.same_of_find? hstores.mapped).symm
  obtain ⟨name, hname, hproperty⟩ := hstores.named
  have hrelated := property.field.type.read_related hform
  rw [hshows] at hrelated
  obtain ⟨shown, hshown, halike⟩ := hrelated.exists_ok
  refine ⟨child.write property.field shown, ?_, ?_⟩
  · rw [hname, applyForeignKey_eq_ok hsame]
    exact .property foreignKey.column name other hproperty hshown
  · rw [Entity.read_write (FieldType.holds_of_read hshown)]
    exact halike.form

/-- The child is given the value of the parent, unless that awaits the database. -/
theorem Relation.StoresKeyIn.foreignKeyValue_iff
    (hstores : relation.StoresKeyIn registry child foreignKey mapping property)
    (hholder : registry.find? parent.type.id = some holder)
    (hreferenced : holder.property? foreignKey.referenced = some referenced)
    (hgiven : (parent.read referenced.field).isNull = false) :
    holder.foreignKeyValue relation child.type parent =
        .ok ⟨foreignKey.column, foreignKey.property, parent.read referenced.field⟩ ↔
      (referenced.generated && (parent.read referenced.field).isUnsaved) = false := by
  have hsame : parent.type.same holder.type = true :=
    beq_iff_eq.2 (Registry.same_of_find? hholder).symm
  rw [ClassMapping.foreignKeyValue_eq_ok hsame]
  constructor
  · rintro ⟨key, found, hkey, hfound, _, hsaved, _⟩
    obtain rfl := Option.some.inj (hstores.declared.symm.trans hkey)
    obtain rfl := Option.some.inj (hreferenced.symm.trans hfound)
    exact hsaved
  · exact fun hsaved =>
      ⟨foreignKey, referenced, hstores.declared, hreferenced, hgiven, hsaved, rfl⟩

/-- A child refers to the parent that its row was brought to. -/
theorem Relation.Brings.refers (hbrings : relation.Brings registry parent child) :
    relation.Refers registry parent child := by
  intro foreignKey mapping property hstores
  obtain ⟨holder, referenced, value, hholder, hreferenced, hgiven, hrefers, hshows⟩ :=
    hbrings.exists_shown hstores
  refine ⟨holder, referenced, hholder, hreferenced,
    hstores.foreignKeyValue_iff hholder hreferenced hgiven, fun hzero => ?_⟩
  exact hstores.exists_written (Value.sameForm_of_sameEntry hzero hrefers) hshows

end Refers

/-! ## What a level brings -/

section Levels

variable {registry : Registry} {dialect : Dialect} {level : Numbered} {fetches : List Fetch}
  {fetch : Fetch} {rows : List Row}

theorem LoadedNode.IsNew.of_hydrate {node : LoadedNode} {e : Entity} {id : Nat}
    {mapping : ClassMapping} {row : Row} (hentity : node.entity = some e)
    (hmapping : registry.find? id = some mapping) (hread : mapping.hydrate row = .ok e) :
    node.IsNew registry := by
  refine ⟨e, mapping, hentity, ?_, ClassMapping.members_of_hydrate hread⟩
  rw [ClassMapping.type_of_hydrate hread, Registry.same_of_find? hmapping, hmapping]

/-- A query that is planned for a level brings its parents what it is answered. -/
theorem exists_brings_of_planned (hplan : planLevel registry dialect level = .ok fetches)
    (hfetch : fetch ∈ fetches) {given : List LoadedNode}
    (hrouted : routeRows registry fetch rows = .ok given) {node : LoadedNode}
    (hnode : node ∈ given) :
    node.IsNew registry ∧ ∃ owner parent mapping relation child,
      node.parent = some owner ∧ (owner, parent) ∈ level ∧
      registry.find? parent.type.id = some mapping ∧
      mapping.relations[node.relation]? = some relation ∧ node.entity = some child ∧
      relation.Brings registry parent child := by
  obtain ⟨demand, hdemand, hmeets⟩ := exists_item_of_forall₂ (planLevel_areMetBy hplan).met hfetch
  obtain ⟨hholder, hindex, htarget, hparents⟩ :=
    Registry.of_mem_demands (List.mem_filter.1 hdemand).1
  obtain ⟨foreignKey, mapping, referenced, row, ⟨owner, parent⟩, e, -, rfl, hgives⟩ :=
    hmeets.exists_gives hrouted hnode
  have hchild := hgives.childMapped
  obtain ⟨hlevel, hsame, _⟩ := hparents _ hgives.concerned
  rw [EntityType.same, beq_iff_eq] at hsame
  rw [← hsame] at hholder
  have hrefers := hgives.refers
  rw [Fetch.foreignKeyOf, hgives.column] at hrefers
  refine ⟨.of_hydrate rfl hchild hgives.read, owner, parent, demand.mapping, demand.relation,
    e, rfl, hlevel, hholder, ?_, rfl, hholder, htarget, hgives.key, hgives.declared, hchild,
    hgives.read, rfl, hgives.present, hrefers⟩
  rw [← hindex, ← hmeets.index]

/-- The parents of a level are those of its nodes. -/
theorem bind_entity_of_numbered {nodes : List LoadedNode} {numbers : List Nat}
    (hnumbered : numbered nodes numbers = .ok level) :
    ∀ parent ∈ level, nodes[parent.1]?.bind LoadedNode.entity = some parent.2 := by
  intro parent hparent
  obtain ⟨number, _, hentry⟩ := exists_item_of_forall₂ (Result.mapM_eq_ok.1 hnumbered) hparent
  obtain ⟨⟨node, e⟩, hoccupied, hentry⟩ := Result.bind_eq_ok.1 hentry
  obtain rfl := Result.pure_eq_ok.1 hentry
  rw [occupied] at hoccupied
  split at hoccupied
  case h_1 => cases hoccupied
  case h_2 found hfound =>
    split at hoccupied
    case h_1 he =>
      cases hoccupied
      rw [hfound, Option.bind_some, he]
    case h_2 => cases hoccupied

/-- All that is loaded below a level was brought to its owners. -/
theorem LoadsBelow.joins {nodes complete : List LoadedNode} {numbers : List Nat}
    {deliveries : List Delivery} {below : List (List Nat)}
    (hloads : LoadsBelow registry dialect nodes numbers deliveries complete below)
    (hnodes : ∀ node ∈ nodes, node.IsNew registry ∧
      node.Joins registry (Relation.Brings registry) nodes) :
    ∀ node ∈ complete, node.IsNew registry ∧
      node.Joins registry (Relation.Brings registry) complete := by
  induction hloads with
  | last => exact hnodes
  | @further nodes _ _ parents here _ _ hparents hplan hrouted _ ih =>
      refine ih (List.forall_mem_append.2 ⟨fun node hnode => ?_, fun node hnode => ?_⟩)
      · exact (hnodes node hnode).imp_right fun hjoins => hjoins.append _
      · obtain ⟨delivery, hdelivery, hnode⟩ := List.mem_flatMap.1 hnode
        obtain ⟨hnew, owner, parent, mapping, relation, child, howner, hparent, hmapped⟩ :=
          exists_brings_of_planned hplan (List.mem_map_of_mem hdelivery) (hrouted _ hdelivery) hnode
        refine ⟨hnew, LoadedNode.Joins.append (fun other hother => ?_) _⟩
        obtain rfl := Option.some.inj (howner.symm.trans hother)
        exact ⟨parent, mapping, relation, child, bind_entity_of_numbered hparents _ hparent,
          hmapped⟩

end Levels

/-! ## Whole loads -/

/-- A loaded graph is consistent already: in every tree that a load with children gives, each
attached child refers to its parent by the relation that it was attached through. -/
theorem load_is_consistent {environment : Environment ω} {registry : Registry} {dialect : Dialect}
    {budget : Nat} {root : EntityType} {constraints : Constraints} {world : ω}
    {trees : List Entity}
    (htrees : ((load registry dialect budget root constraints true).execution environment ()
      world).outcome = .ok (some trees)) :
    ∀ e ∈ trees, e.IsGrown registry (Relation.Refers registry) := by
  generalize hexecution : (load registry dialect budget root constraints true).execution environment
    () world = execution at htrees
  obtain ⟨_, ⟨⟩, after, requests⟩ := execution
  subst htrees
  obtain ⟨mapping, rows, roots, deliveries, nodes, below, hmapping, hroots, hloads, hassemble, -⟩ :=
    load_eq_ok hexecution
  have hstart : ∀ node ∈ roots.map LoadedNode.root, node.IsNew registry ∧
      node.Joins registry (Relation.Brings registry) (roots.map LoadedNode.root) := by
    refine List.forall_mem_map.2 fun e he => ⟨?_, nofun⟩
    obtain ⟨row, _, hread⟩ := exists_item_of_forall₂ (Result.mapM_eq_ok.1 hroots) he
    exact .of_hydrate rfl hmapping hread
  have hnodes := hloads.joins hstart
  have hbrought := isGrown_of_assemble hloads.isGathered_of_roots.arena
    (Relation.isOfLabels_brings registry) (fun node hnode => (hnodes node hnode).1)
    (fun node hnode => (hnodes node hnode).2) hassemble
  exact fun e he => (hbrought e he).mono fun _ _ _ => Relation.Brings.refers

/-- The parcels of the first order have its number, and writing it there changes nothing. -/
theorem stocked_parcel_refers :
    ((load Shipping.registry .sqlite 4 Shipping.order .none true).execution Script.environment ()
      Shipping.stocked).outcome = .ok (some Shipping.stockedTrees) ∧
    (∀ e ∈ Shipping.stockedTrees,
      e.IsGrown Shipping.registry (Relation.Refers Shipping.registry)) ∧
    Shipping.parcelsOfOrder.StoresKeyIn Shipping.registry (Shipping.parcelOf 2 1 [])
      Shipping.parentKey Shipping.parcels (.plain "parent_id" Shipping.parentField) ∧
    ∃ written, applyForeignKey Shipping.parcels (Shipping.parcelOf 2 1 [])
        (some ⟨"parent_id", some "parent_id", .bigInt 1⟩) = .ok (written, none) ∧
      (written.read Shipping.parentField).SameForm (.bigInt 1) := by
  have hload : ((load Shipping.registry .sqlite 4 Shipping.order .none true).execution
      Script.environment () Shipping.stocked).outcome = .ok (some Shipping.stockedTrees) := rfl
  have hgrown := load_is_consistent hload
  have hstores : Shipping.parcelsOfOrder.StoresKeyIn Shipping.registry (Shipping.parcelOf 2 1 [])
      Shipping.parentKey Shipping.parcels (.plain "parent_id" Shipping.parentField) := by
    refine ⟨rfl, rfl, List.forall_mem_singleton.2 fun _ other hother => ?_, ⟨_, rfl, rfl⟩,
      by decide⟩
    exact (Option.some.inj hother).symm
  have hmember : Shipping.parcelOf 2 1 [] ∈ (Shipping.orderOf 1 [Shipping.parcelOf 2 1 [],
      Shipping.parcelOf 1 1 [Shipping.itemOf 1 1]]).children Shipping.parcelsOfOrder.slot :=
    List.mem_cons_self
  obtain ⟨hrefers, -⟩ := (hgrown _ List.mem_cons_self).of_mem_children rfl rfl (by decide)
    List.mem_cons_self hmember
  obtain ⟨holder, referenced, hholder, hreferenced, -, hwritten⟩ := hrefers _ _ _ hstores
  cases hholder
  cases hreferenced
  exact ⟨hload, hgrown, hstores, hwritten rfl⟩

end AggregateSync
