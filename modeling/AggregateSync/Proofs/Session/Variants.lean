import AggregateSync.Proofs.Session.ForeignKeys
import AggregateSync.Proofs.Session.Planning

/-!
# Foreign keys of variants

The discriminator of a parent selects a target.  A query asks for the children of a class by
the foreign key of the first target of the class that one of its parents selects; an INSERT
gives a child the foreign key of the first target of its class that is declared.  Where all
targets of a class have one foreign key, it is that of the selected target.  Otherwise a child
may be inserted under a parent that no query for the parent will find.
-/

namespace AggregateSync

namespace Relation

/-- The targets that parents select, in the order of the parents. -/
def selections (relation : Relation) (discriminator : Property) (parents : Numbered) :
    List Target :=
  parents.filterMap fun parent => relation.selectedBy? discriminator parent.2

/-- The foreign key of the first target of a class that parents select. -/
def selectedKey? (relation : Relation) (discriminator : Property) (parents : Numbered)
    (type : EntityType) : Option ForeignKey :=
  ((relation.selections discriminator parents).find? fun target => target.type.same type).bind
    Target.foreignKey

/-- All targets of the class of a target have its foreign key. -/
def SharesKeyOf (relation : Relation) (target : Target) : Prop :=
  ∀ other ∈ relation.targets, other.type.same target.type = true →
    other.foreignKey = target.foreignKey

variable {relation : Relation} {target : Target}

/-- Among targets, there is a first one of the class of each. -/
theorem exists_first_target {targets : List Target} (htarget : target ∈ targets) :
    ∃ first ∈ targets, (targets.find? fun other => other.type.same target.type) = some first ∧
      first.type.same target.type = true := by
  have hsome : (targets.find? fun other => other.type.same target.type).isSome = true :=
    List.find?_isSome.2 ⟨target, htarget, beq_self_eq_true target.type.id⟩
  obtain ⟨first, hfirst⟩ := Option.isSome_iff_exists.1 hsome
  have hsame := List.find?_some hfirst
  exact ⟨first, List.mem_of_find?_eq_some hfirst, hfirst, hsame⟩

theorem SharesKeyOf.foreignKey?_eq (hshares : relation.SharesKeyOf target)
    (htarget : target ∈ relation.targets) :
    relation.foreignKey? target.type = target.foreignKey := by
  obtain ⟨first, hmem, hfirst, hsame⟩ := exists_first_target htarget
  rw [foreignKey?, target?, hfirst]
  exact hshares first hmem hsame

theorem SharesKeyOf.selectedKey?_eq {discriminator : Property} {parents : Numbered}
    {parent : Nat × Entity} (hshares : relation.SharesKeyOf target) (hparent : parent ∈ parents)
    (hselects : relation.selectedBy? discriminator parent.2 = some target) :
    relation.selectedKey? discriminator parents target.type = target.foreignKey := by
  have hselected : target ∈ relation.selections discriminator parents :=
    List.mem_filterMap.2 ⟨parent, hparent, hselects⟩
  obtain ⟨first, hmem, hfirst, hsame⟩ := exists_first_target hselected
  obtain ⟨other, _, hother⟩ := List.mem_filterMap.1 hmem
  rw [selectedKey?, hfirst]
  exact hshares first (relation.mem_targets_of_selectedBy? hother) hsame

/-- A class is given the foreign key that any other by its number is. -/
theorem givesForeignKey_congr (relation : Relation) {mapping : ClassMapping}
    {child other : EntityType} (hsame : child.same other = true) {parent : Entity}
    {given : ForeignKeyValue} : GivesForeignKey mapping relation child parent given ↔
      GivesForeignKey mapping relation other parent given := by
  have hkey : relation.foreignKey? child = relation.foreignKey? other := by
    rw [EntityType.same, beq_iff_eq] at hsame
    simp only [foreignKey?, target?, EntityType.same, hsame]
  rw [GivesForeignKey, GivesForeignKey, hkey]

end Relation

/-- A query asks by a foreign key for the children that a parent has through a relation: it
selects the rows whose foreign key column has one of some values, and under one of them, which
is that of the parent in key form, it has the number of the parent. -/
structure Fetch.AsksBy (fetch : Fetch) (registry : Registry) (dialect : Dialect)
    (relation : Relation) (index : Nat) (foreignKey : ForeignKey) (owner : Nat) (value : Value) :
    Prop where
  index : fetch.index = index
  relation : fetch.relation = relation
  column : fetch.foreignKeyColumn = foreignKey.column
  statement : ∃ child, registry.find? fetch.child.id = some child ∧ fetch.statement =
    (childQuery fetch.relation foreignKey child (fetch.owners.map Prod.fst)).build dialect
  owner : IsGroupedIn Value.sameEntry fetch.owners (value, owner)

section Plans

variable {registry : Registry} {dialect : Dialect} {mapping : ClassMapping}
  {relation : Relation} {index : Nat} {fetches : List Fetch}

/-- Where no parent is asked for twice through a relation, one query asks for it. -/
theorem Fetch.eq_of_nodup_claims (hnodup : (fetches.flatMap Fetch.claims).Nodup)
    {fetch other : Fetch} (hfetch : fetch ∈ fetches) (hother : other ∈ fetches)
    (hindex : other.index = fetch.index) {owner : Nat} (howner : owner ∈ fetch.ownerNumbers)
    (howner' : owner ∈ other.ownerNumbers) : other = fetch := by
  have hsymm : Std.Symm (Function.onFun List.Disjoint Fetch.claims) :=
    ⟨fun _ _ hapart _ hleft hright => hapart hright hleft⟩
  by_contra hdiffer
  have hapart := (List.nodup_flatMap.1 hnodup).2.forall hother hfetch hdiffer
  exact hapart (List.mem_map_of_mem howner') (hindex ▸ List.mem_map_of_mem howner)

theorem Fetch.AsksBy.mem_ownerNumbers {fetch : Fetch} {foreignKey : ForeignKey} {owner : Nat}
    {value : Value} (hasks : fetch.AsksBy registry dialect relation index foreignKey owner value) :
    owner ∈ fetch.ownerNumbers := by
  obtain ⟨group, hgroup, howner, _⟩ := hasks.owner
  exact List.mem_flatMap.2 ⟨group, hgroup, howner⟩

/-- What is planned for parents of a class, one of which has a value to refer to, asks for the
children of this one. -/
theorem exists_asksBy_of_planRelation {target : Target} {parents : Numbered} {fetch? : Option Fetch}
    (hmapping : registry.find? mapping.type.id = some mapping)
    (hsound : relation.IsSound registry mapping) (htarget : target ∈ relation.targets)
    (hsame : ∀ parent ∈ parents, parent.2.type.same mapping.type = true)
    (hplan : planRelation registry dialect relation index target parents = .ok fetch?) :
    ∃ foreignKey referenced, target.foreignKey = some foreignKey ∧
      mapping.property? foreignKey.referenced = some referenced ∧
      ∀ parent ∈ parents, (parent.2.read referenced.field).isNull = false →
        ∃ fetch, fetch? = some fetch ∧ fetch.child = target.type ∧
          fetch.AsksBy registry dialect relation index foreignKey parent.1
            (parent.2.read referenced.field) := by
  cases hforeignKey : target.foreignKey with
  | none =>
      rw [planRelation, hforeignKey] at hplan
      cases hplan
  | some foreignKey =>
      obtain ⟨child, hchild, hchecked⟩ := hsound.target target htarget
      obtain ⟨⟨referenced, hreferenced⟩, _⟩ := hchecked foreignKey hforeignKey
      have hparent := hsound.parent
      rw [EntityType.same, beq_iff_eq] at hparent
      refine ⟨foreignKey, referenced, rfl, hreferenced, fun parent hmember hgiven => ?_⟩
      rw [planRelation_eq hforeignKey (hparent ▸ hmapping) hreferenced hchild hsame] at hplan
      have howner : IsGroupedIn Value.sameEntry
          (grouped Value.sameEntry (givenValues referenced parents))
          (parent.2.read referenced.field, parent.1) :=
        isGroupedIn_grouped (List.mem_map.2 ⟨parent, List.mem_filter.2 ⟨hmember, by simp [hgiven]⟩,
          rfl⟩)
      obtain ⟨group, hgroup, _⟩ := id howner
      have hsome : (grouped Value.sameEntry (givenValues referenced parents)).isEmpty = false :=
        List.isEmpty_eq_false_iff.2 (List.ne_nil_of_mem hgroup)
      simp only [hsome, Bool.false_eq_true, if_false, Except.ok.injEq] at hplan
      exact ⟨_, hplan.symm, rfl, ⟨rfl, rfl, rfl, ⟨child, hchild, rfl⟩, howner⟩⟩

/-- Among the plans for a variant relation is one for the class that a parent selects. -/
theorem exists_plan_of_planParents {discriminator : String} {variants : List Variant}
    {property : Property} {parents : Numbered} {parent : Nat × Entity} {target : Target}
    (hform : relation.form = .variant discriminator variants)
    (hproperty : mapping.property? discriminator = some property)
    (hplan : planParents registry dialect mapping relation index parents = .ok fetches)
    (hparent : parent ∈ parents)
    (hselects : relation.selectedBy? property parent.2 = some target) :
    ∃ first group fetch?, ((relation.selections property parents).find? fun other =>
        other.type.same target.type) = some first ∧
      group ⊆ parents ∧ parent ∈ group ∧
      planRelation registry dialect relation index first group = .ok fetch? ∧
      fetch?.toList ⊆ fetches := by
  rw [planParents, hform] at hplan
  dsimp only at hplan
  rw [ClassMapping.requireProperty_eq_ok.2 hproperty, Result.ok_bind] at hplan
  obtain ⟨selected, hselected, hplan⟩ := Result.bind_eq_ok.1 hplan
  obtain ⟨planned, hplanned, hplan⟩ := Result.bind_eq_ok.1 hplan
  obtain rfl := Result.pure_eq_ok.1 hplan
  have htargets : selected.map Prod.fst = relation.selections property parents := by
    rw [selectedTargets_eq_ok hselected, List.map_filterMap]
    simp [Relation.selections, Function.comp_def]
  have hentry : (target, parent) ∈ selected := by
    rw [selectedTargets_eq_ok hselected]
    exact List.mem_filterMap.2 ⟨parent, hparent, by rw [hselects]; rfl⟩
  have hcomm (target other : Target) : target.type.same other.type = other.type.same target.type :=
    EntityType.same_comm _ _
  have htrans (target other third : Target) (hleft : target.type.same other.type = true) :
      other.type.same third.type = true → target.type.same third.type = true :=
    EntityType.same_trans hleft
  have hentered : parent ∈ entered (fun target other : Target => target.type.same other.type)
      (grouped (fun target other : Target => target.type.same other.type) selected) target := by
    rw [entered_grouped hcomm htrans]
    exact List.mem_map.2 ⟨_, List.mem_filter.2 ⟨hentry, beq_self_eq_true target.type.id⟩, rfl⟩
  obtain ⟨group, hgroup, hkey, hitems⟩ := exists_group_of_entered hentered
  rw [find?_grouped htrans, htargets] at hkey
  obtain ⟨fetch?, hfetch, hplan⟩ :=
    exists_result_of_forall₂ (Result.mapM_eq_ok.1 hplanned) hgroup
  refine ⟨group.1, group.2, fetch?, hkey, ?_, hitems ▸ hentered, hplan, ?_⟩
  · exact fun other => (grouped_forall (P := fun _ parent => parent ∈ parents)
      (fun _ _ _ _ => id) (fun entry hentry => (mem_of_selectedTargets hselected entry hentry).2)
      group hgroup).2 other
  · intro fetch hmember
    exact List.mem_filterMap.2 ⟨_, hfetch, Option.mem_toList.1 hmember⟩

theorem exists_plan_of_planRelations {parents : Numbered} {first offset : Nat}
    {relations : List Relation}
    (hplan : planRelations registry dialect mapping parents first relations = .ok fetches)
    (hrelation : relations[offset]? = some relation) :
    ∃ here, planParents registry dialect mapping relation (first + offset) parents = .ok here ∧
      here ⊆ fetches := by
  induction relations generalizing first offset fetches with
  | nil => cases hrelation
  | cons head rest ih =>
      obtain ⟨here, hhere, hplan⟩ := Result.bind_eq_ok.1 hplan
      obtain ⟨others, hothers, hplan⟩ := Result.bind_eq_ok.1 hplan
      obtain rfl := Result.pure_eq_ok.1 hplan
      cases offset with
      | zero =>
          cases hrelation
          exact ⟨here, hhere, List.subset_append_left _ _⟩
      | succ offset =>
          obtain ⟨found, hfound, hsubset⟩ := ih hothers hrelation
          rw [Nat.add_right_comm, Nat.add_assoc] at hfound
          exact ⟨found, hfound, List.Subset.trans hsubset (List.subset_append_right _ _)⟩

theorem exists_plan_of_planClasses {classes : List (EntityType × Numbered)}
    {group : EntityType × Numbered}
    (hplan : planClasses registry dialect classes = .ok fetches) (hgroup : group ∈ classes)
    (hmapping : registry.find? group.1.id = some mapping) :
    ∃ here, planRelations registry dialect mapping group.2 0 mapping.relations = .ok here ∧
      here ⊆ fetches := by
  induction classes generalizing fetches with
  | nil => cases hgroup
  | cons head rest ih =>
      obtain ⟨found, hfound, hplan⟩ := Result.bind_eq_ok.1 hplan
      obtain ⟨here, hhere, hplan⟩ := Result.bind_eq_ok.1 hplan
      obtain ⟨others, hothers, hplan⟩ := Result.bind_eq_ok.1 hplan
      obtain rfl := Result.pure_eq_ok.1 hplan
      rcases List.mem_cons.1 hgroup with rfl | hrest
      · rw [Registry.mappingById_eq_ok, hmapping] at hfound
        cases hfound
        exact ⟨here, hhere, List.subset_append_left _ _⟩
      · obtain ⟨found, hfound, hsubset⟩ := ih hothers hrest
        exact ⟨found, hfound, List.Subset.trans hsubset (List.subset_append_right _ _)⟩

/-- For a relation of a class, a level is planned for all its entities of the class. -/
theorem exists_plan_of_planLevel {level : Numbered} {parent : Nat × Entity}
    (hplan : planLevel registry dialect level = .ok fetches) (hparent : parent ∈ level)
    (hmapping : registry.find? parent.2.type.id = some mapping)
    (hrelation : mapping.relations[index]? = some relation) :
    ∃ here, planParents registry dialect mapping relation index
        (level.filter fun other => other.2.type.same mapping.type) = .ok here ∧
      here ⊆ fetches := by
  have hentered : entered EntityType.same
      (grouped EntityType.same (level.map fun entry => (entry.2.type, entry))) mapping.type =
        level.filter fun other => other.2.type.same mapping.type := by
    rw [entered_grouped EntityType.same_comm fun _ _ _ => EntityType.same_trans, List.filter_map,
      List.map_map]
    exact List.map_id _
  have htype := Registry.same_of_find? hmapping
  have hmember : parent ∈ level.filter fun other => other.2.type.same mapping.type :=
    List.mem_filter.2 ⟨hparent, by rw [EntityType.same, htype, beq_self_eq_true]⟩
  rw [← hentered] at hmember ⊢
  obtain ⟨group, hgroup, hkey, hitems⟩ := exists_group_of_entered hmember
  have hsame := List.find?_some hkey
  rw [EntityType.same, beq_iff_eq, htype] at hsame
  obtain ⟨below, hbelow, hsubset⟩ :=
    exists_plan_of_planClasses hplan hgroup (hsame ▸ hmapping)
  obtain ⟨here, hhere, hinner⟩ := exists_plan_of_planRelations hbelow hrelation
  rw [Nat.zero_add, hitems] at hhere
  exact ⟨here, hhere, List.Subset.trans hinner hsubset⟩

/-- For a parent that selects a target and has a value to refer to, one query of its level asks
by the foreign key of the first target of the class that a parent of the class selects. -/
theorem exists_asksBy_of_planLevel {level : Numbered} {parent : Nat × Entity}
    {discriminator : String} {variants : List Variant} {property : Property} {target : Target}
    (hmapping : registry.find? parent.2.type.id = some mapping)
    (hrelation : mapping.relations[index]? = some relation)
    (hform : relation.form = .variant discriminator variants)
    (hproperty : mapping.property? discriminator = some property)
    (hplan : planLevel registry dialect level = .ok fetches) (hparent : parent ∈ level)
    (hselects : relation.selectedBy? property parent.2 = some target) :
    ∃ foreignKey referenced,
      relation.selectedKey? property (level.filter fun other =>
        other.2.type.same mapping.type) target.type = some foreignKey ∧
      mapping.property? foreignKey.referenced = some referenced ∧
      ((parent.2.read referenced.field).isNull = false → ∃ fetch ∈ fetches,
        fetch.child.same target.type = true ∧
        fetch.AsksBy registry dialect relation index foreignKey parent.1
          (parent.2.read referenced.field)) := by
  have htype := Registry.same_of_find? hmapping
  have hmember : parent ∈ level.filter fun other => other.2.type.same mapping.type :=
    List.mem_filter.2 ⟨hparent, by rw [EntityType.same, htype, beq_self_eq_true]⟩
  obtain ⟨here, hhere, hsubset⟩ := exists_plan_of_planLevel hplan hparent hmapping hrelation
  obtain ⟨first, group, fetch?, hfirst, hgroup, hasked, hfetch, hinner⟩ :=
    exists_plan_of_planParents hform hproperty hhere hmember hselects
  obtain ⟨other, _, hother⟩ := List.mem_filterMap.1 (List.mem_of_find?_eq_some hfirst)
  have hsame := List.find?_some hfirst
  obtain ⟨foreignKey, referenced, hforeignKey, hreferenced, hasks⟩ :=
    exists_asksBy_of_planRelation (htype ▸ hmapping)
      (registry.isSound (List.mem_of_find?_eq_some hmapping) (List.mem_of_getElem? hrelation))
      (relation.mem_targets_of_selectedBy? hother)
      (fun member hmem => (List.mem_filter.1 (hgroup hmem)).2) hfetch
  refine ⟨foreignKey, referenced, ?_, hreferenced, fun hgiven => ?_⟩
  · rw [Relation.selectedKey?, hfirst]
    exact hforeignKey
  · obtain ⟨fetch, rfl, hchild, hby⟩ := hasks parent hasked hgiven
    refine ⟨fetch, hsubset (hinner (List.mem_singleton_self _)), ?_, hby⟩
    rw [hchild]
    exact hsame

end Plans

/-- Both ends of a variant relation, for each declared target.  The children of a parent that
selects the target are asked for by the foreign key of the first target of its class that a
parent of the level selects; a child of its class that is inserted carries that of the first
target of the class that is declared.  If the targets of the class share their foreign key, both
are the foreign key of the target. -/
theorem variant_children_refer (registry : Registry) {mapping : ClassMapping}
    {relation : Relation} {index : Nat} {discriminator : String} {variants : List Variant}
    {property : Property} {target : Target}
    (hrelation : mapping.relations[index]? = some relation)
    (hform : relation.form = .variant discriminator variants)
    (hproperty : mapping.property? discriminator = some property)
    (htarget : target ∈ relation.targets) :
    (∀ dialect level fetches, planLevel registry dialect level = .ok fetches →
      ∀ parent ∈ level, registry.find? parent.2.type.id = some mapping →
        relation.selectedBy? property parent.2 = some target →
      ∃ foreignKey referenced,
        relation.selectedKey? property (level.filter fun other =>
          other.2.type.same mapping.type) target.type = some foreignKey ∧
        (relation.SharesKeyOf target → target.foreignKey = some foreignKey) ∧
        mapping.property? foreignKey.referenced = some referenced ∧
        ((parent.2.read referenced.field).isNull = false →
          ∃ fetch ∈ fetches, fetch.child.same target.type = true ∧
            fetch.AsksBy registry dialect relation index foreignKey parent.1
              (parent.2.read referenced.field) ∧
            ((level.map Prod.fst).Nodup → ∀ other ∈ fetches, other.index = index →
              parent.1 ∈ other.ownerNumbers → other = fetch))) ∧
    (∀ (ω : Type) (environment : Environment ω) (dialect : Dialect) (channel : Channel)
      (snapshot current : Option Entity) (options : PersistOptions) (filter : PropertyFilter)
      (changes : List Change) (before after : List Member) (world : ω),
      registry.compare snapshot current filter = .ok changes →
      registry.members snapshot = .ok before → registry.members current = .ok after →
      ∀ turn ∈ writeTurns environment registry dialect channel changes snapshot options current
        world, turn.item.state = .added →
      ∀ child ∈ after, turn.item.Describes .current child →
      ∀ parent ∈ after, parent.mapping = mapping →
      ∀ place, child.path = parent.path ++ [⟨index, place⟩] →
        child.mapping.type.same target.type = true →
      ∃ met holder, turn.state = some met ∧ registry.resolve met parent.path = .ok holder ∧
        ((turn.requests = [] ∧ ((persist registry dialect channel changes snapshot
            options).execution environment current world).succeeds = false) ∨
          ∃ foreignKey given shown extra,
            relation.foreignKey? target.type = some foreignKey ∧
            (relation.SharesKeyOf target → target.foreignKey = some foreignKey) ∧
            given.column = foreignKey.column ∧ given.property = foreignKey.property ∧
            GivesForeignKey mapping relation target.type holder given ∧
            let insert := memberInsert child.mapping shown extra relation.subset
            turn.requests =
              [insertRequest channel child.mapping shown (insert.build dialect)] ∧
            CarriesForeignKey child.mapping given relation.subset shown insert ∧
            (foreignKey.IsStoredBy child.mapping shown →
              foreignKey.column ∈ insert.columns))) := by
  constructor
  case left =>
    intro dialect level fetches hplan parent hparent hmapping hselects
    obtain ⟨foreignKey, referenced, hselected, hreferenced, hasks⟩ :=
      exists_asksBy_of_planLevel hmapping hrelation hform hproperty hplan hparent hselects
    have hmember : parent ∈ level.filter fun other => other.2.type.same mapping.type :=
      List.mem_filter.2 ⟨hparent, by
        rw [EntityType.same, Registry.same_of_find? hmapping, beq_self_eq_true]⟩
    refine ⟨foreignKey, referenced, hselected, fun hshares => ?_, hreferenced, fun hgiven => ?_⟩
    · rw [← hselected, hshares.selectedKey?_eq hmember hselects]
    · obtain ⟨fetch, hfetch, hchild, hby⟩ := hasks hgiven
      refine ⟨fetch, hfetch, hchild, hby, fun hnodup other hother hindex howner => ?_⟩
      exact Fetch.eq_of_nodup_claims (planLevel_spec hnodup hplan).2 hfetch hother
        (hindex.trans hby.index.symm) hby.mem_ownerNumbers howner
  case right =>
    intro ω environment dialect channel snapshot current options filter changes before after world
      hcompare hbefore hafter turn hturn hadded child hchild hdescribes parent hparent hmapping
      place hpath hsame
    subst hmapping
    obtain ⟨met, holder, hmet, hresolve, hwritten⟩ := addedTurn_carries hcompare hbefore hafter
      hturn hadded hchild hparent hdescribes hpath hrelation
    refine ⟨met, holder, hmet, hresolve, ?_⟩
    rcases hwritten with ⟨hnone, hfails⟩ | ⟨given, shown, extra, hgives, hrequest, hcarries⟩
    · refine .inl ⟨hnone, Bool.eq_false_iff.2 fun hsucceeds => ?_⟩
      rw [persist_succeeds_iff.1 hsucceeds turn hturn] at hfails
      cases hfails
    · rw [relation.givesForeignKey_congr hsame] at hgives
      obtain ⟨foreignKey, _, hforeignKey, _, _, _, hvalue⟩ := id hgives
      have hcolumn : given.column = foreignKey.column := by rw [hvalue]
      have hname : given.property = foreignKey.property := by rw [hvalue]
      refine .inr ⟨foreignKey, given, shown, extra, hforeignKey, fun hshares => ?_, hcolumn, hname,
        hgives, hrequest, hcarries, hcarries.column_mem hcolumn hname⟩
      rw [← hforeignKey, hshares.foreignKey?_eq htarget]

namespace Checkout

def idField : Field := ⟨0, "id", .bigInt⟩

def kindField : Field := ⟨1, "kind", .text⟩

def order : EntityType := ⟨0, "Order", [idField, kindField]⟩

def payment : EntityType := ⟨1, "Payment", [idField]⟩

/-- Payments in cash, which refer to their order in a column. -/
def inCash (column : String) : Target :=
  ⟨payment, some ⟨column, none, "id"⟩, some (.text "cash")⟩

/-- The payment of an order, in cash or by card. -/
def paymentOfOrder (column : String) : Relation :=
  ⟨"payment", order, 0, .variant "kind" [
    ⟨.text "card", payment, some ⟨"card_order", none, "id"⟩⟩,
    ⟨.text "cash", payment, some ⟨column, none, "id"⟩⟩], none, []⟩

def orders (column : String) : ClassMapping where
  type := order
  table := "orders"
  keys := [.generatedKey "id" idField]
  properties := [.plain "kind" kindField]
  relations := [paymentOfOrder column]
  initialFields := []
  initialMembers := []
  sound := rfl

def payments : ClassMapping where
  type := payment
  table := "payments"
  keys := [.generatedKey "id" idField]
  properties := []
  relations := []
  initialFields := []
  initialMembers := []
  sound := rfl

def registry (column : String) : Registry := ⟨[orders column, payments], rfl⟩

def orderOf (id : Int64) (kind : String) (payments : List Entity) : Entity :=
  .mk order [(idField, .bigInt id), (kindField, .text kind)]
    (payments.map fun payment => (.dynamic 0, payment))

def paymentOf (id : Int64) : Entity := .mk payment [(idField, .bigInt id)] []

/-- An order that is to be paid in cash. -/
def unpaid : Entity := orderOf 1 "cash" []

/-- The order with a new payment. -/
def paid : Entity := orderOf 1 "cash" [paymentOf 0]

/-- Payments by card and in cash refer to their order in one column. -/
theorem sharesKeyOf_inCash :
    (paymentOfOrder "card_order").SharesKeyOf (inCash "card_order") := by
  intro other hother _
  rcases List.mem_pair.1 hother with rfl | rfl <;> rfl

end Checkout

theorem cash_payment_refers :
    ∃ fetch changes turn foreignKey given shown insert,
      (Checkout.paymentOfOrder "card_order").selectedBy? (.plain "kind" Checkout.kindField)
        Checkout.unpaid = some (Checkout.inCash "card_order") ∧
      (Checkout.inCash "card_order").foreignKey = some foreignKey ∧
      planLevel (Checkout.registry "card_order") .postgres [(0, Checkout.unpaid)] =
        .ok [fetch] ∧
      fetch.AsksBy (Checkout.registry "card_order") .postgres
        (Checkout.paymentOfOrder "card_order") 0 foreignKey 0 (.bigInt 1) ∧
      (Checkout.registry "card_order").compare (some Checkout.unpaid) (some Checkout.paid)
        (fun _ _ => true) = .ok changes ∧
      turn ∈ writeTurns Script.environment (Checkout.registry "card_order") .postgres
        .transaction changes (some Checkout.unpaid) .standard (some Checkout.paid)
        Shipping.quiet ∧
      turn.requests =
        [insertRequest .transaction Checkout.payments shown (insert.build .postgres)] ∧
      given.column = foreignKey.column ∧
      CarriesForeignKey Checkout.payments given none shown insert ∧
      foreignKey.column ∈ insert.columns := by
  have htarget : Checkout.inCash "card_order" ∈ (Checkout.paymentOfOrder "card_order").targets :=
    List.mem_cons_of_mem _ (List.mem_singleton_self _)
  obtain ⟨hloaded, hwritten⟩ := @variant_children_refer (Checkout.registry "card_order")
    (Checkout.orders "card_order") _ 0 _ _ (.plain "kind" Checkout.kindField) _ rfl rfl rfl htarget
  obtain ⟨foreignKey, _, _, hshared, hreferenced, hasks⟩ := hloaded .postgres
    [(0, Checkout.unpaid)] _ rfl _ (List.mem_singleton_self _) rfl rfl
  cases hshared Checkout.sharesKeyOf_inCash
  cases hreferenced
  obtain ⟨fetch, hfetch, _, hby, _⟩ := hasks rfl
  obtain rfl := List.mem_singleton.1 hfetch
  obtain ⟨_, _, _, _, hinsert⟩ := hwritten Script Script.environment .postgres .transaction
    (some Checkout.unpaid) (some Checkout.paid) .standard (fun _ _ => true) _ _ _ Shipping.quiet
    rfl rfl rfl _ (@List.mem_of_getElem? _ _ 0 _ rfl) rfl _ (@List.mem_of_getElem? _ _ 1 _ rfl)
    ⟨rfl, rfl, rfl, rfl, rfl⟩ _ (@List.mem_of_getElem? _ _ 0 _ rfl) rfl 0 rfl rfl
  rcases hinsert with ⟨hnone, _⟩ |
    ⟨_, given, shown, _, _, hshared', hcolumn, _, _, hrequest, hcarries, hstored⟩
  · cases hnone
  · cases hshared' Checkout.sharesKeyOf_inCash
    exact ⟨_, _, _, _, given, shown, _, rfl, rfl, rfl, hby, rfl,
      @List.mem_of_getElem? _ _ 0 _ rfl, hrequest, hcolumn, hcarries,
      hstored fun _ hname => nomatch hname⟩

/-- Where card and cash have different columns, an order that is to be paid in cash asks for its
payment by the column of cash, or by that of cards if it stands behind an order that is paid by
card; and its new payment is inserted with the column of cards. -/
theorem cash_payment_refers_as_card :
    (Checkout.paymentOfOrder "cash_order").selectedBy? (.plain "kind" Checkout.kindField)
      Checkout.unpaid = some (Checkout.inCash "cash_order") ∧
    (∃ fetch, planLevel (Checkout.registry "cash_order") .postgres [(0, Checkout.unpaid)] =
      .ok [fetch] ∧ fetch.foreignKeyColumn = "cash_order") ∧
    (∃ fetch, planLevel (Checkout.registry "cash_order") .postgres
      [(0, Checkout.orderOf 2 "card" []), (1, Checkout.unpaid)] = .ok [fetch] ∧
      fetch.foreignKeyColumn = "card_order" ∧ fetch.ownerNumbers = [0, 1]) ∧
    ∃ changes turn statement,
      (Checkout.registry "cash_order").compare (some Checkout.unpaid) (some Checkout.paid)
        (fun _ _ => true) = .ok changes ∧
      turn ∈ writeTurns Script.environment (Checkout.registry "cash_order") .postgres
        .transaction changes (some Checkout.unpaid) .standard (some Checkout.paid)
        Shipping.quiet ∧
      turn.item.state = .added ∧ turn.requests = [.insert .transaction statement] ∧
      statement.sql = "INSERT INTO \"payments\" (\"card_order\") VALUES ($1)" :=
  ⟨rfl, ⟨_, rfl, rfl⟩, ⟨_, rfl, rfl, rfl⟩, _, _, _, rfl, @List.mem_of_getElem? _ _ 0 _ rfl, rfl,
    rfl, rfl⟩

end AggregateSync
