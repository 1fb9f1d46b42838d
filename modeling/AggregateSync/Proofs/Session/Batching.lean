import AggregateSync.Proofs.Session.Routing
import AggregateSync.Proofs.Session.Variants
import AggregateSync.Proofs.Sql.Symbols
import AggregateSync.Proofs.Value.Hashing
import AggregateSync.Proofs.Value.Reflexive
import Mathlib.Algebra.Order.BigOperators.Group.List
import Mathlib.Algebra.Order.Group.Nat
import Mathlib.Algebra.Ring.Nat

/-!
# One query for all parents of a level

What the parents of a level demand is computed here from their classes and discriminators
alone: for each class, each of its relations and each class of children that the relation
selects for them, the parents concerned.  A level is planned exactly one query for each of
these demands where a parent has a value to refer to.  The query binds the first of all equal
values, so neither the number of queries nor that of repeated values grows with the parents.
-/

namespace AggregateSync

theorem Expr.paramsOfItems_literals (values : List Value) :
    Expr.paramsOfItems (values.map Expr.literal) = values.filter Value.isBound := by
  induction values with
  | nil => rfl
  | cons value rest ih =>
      rw [List.map_cons, Expr.paramsOfItems, ih, Expr.params_literal, ← List.filter_append]
      rfl

/-- The condition that a column has one of some values. -/
abbrev Expr.among (column : String) (values : List Value) : Expr :=
  .isIn (Expr.named column) (values.map Expr.literal) false

theorem Expr.params_among (column : String) (values : List Value) :
    (Expr.among column values).params = values.filter Value.isBound := by
  cases values with
  | nil => rfl
  | cons value rest =>
      rw [Expr.among, List.map_cons, Expr.params, ← Expr.paramsOfItems, ← List.map_cons,
        Expr.paramsOfItems_literals]
      rfl

/-- What a query for children is, part by part. -/
theorem childQuery_eq (relation : Relation) (foreignKey : ForeignKey) (child : ClassMapping)
    (values : List Value) : childQuery relation foreignKey child values =
      ⟨child.table,
        if (child.columns.map Property.column).contains foreignKey.column
          then child.columns.map Property.column
          else child.columns.map Property.column ++ [foreignKey.column],
        some (relation.subset.elim (Expr.among foreignKey.column values) fun subset =>
          (Expr.among foreignKey.column values).and (Expr.columnIs subset.column subset.value)),
        relation.order.map RelationOrder.term, none, none⟩ := by
  have hsorted (order : List RelationOrder) (select : Select) :
      order.foldl (fun select order => select.withOrder order.term) select =
        { select with order := select.order ++ order.map RelationOrder.term } := by
    induction order generalizing select with
    | nil => simp
    | cons term rest ih => rw [List.foldl_cons, ih]; simp [Select.withOrder]
  rw [childQuery, hsorted]
  cases relation.subset <;> rfl

/-- The constants of a relation's subset. -/
def Relation.subsetValues (relation : Relation) : List Value :=
  relation.subset.toList.map SubsetColumn.value

/-- A query for children binds the values of the parents, then the constant of the subset. -/
theorem params_childQuery (relation : Relation) (foreignKey : ForeignKey)
    (child : ClassMapping) (values : List Value) (dialect : Dialect) :
    ((childQuery relation foreignKey child values).build dialect).params =
      (values ++ relation.subsetValues).filter Value.isBound := by
  rw [Select.build, childQuery_eq, List.filter_append, Relation.subsetValues]
  cases relation.subset with
  | none => simp [filterParams, Expr.params_among]
  | some subset =>
      exact congrArg₂ (· ++ ·) (Expr.params_among foreignKey.column values)
        (Expr.params_literal subset.value)

/-! ## What the parents of a level demand -/

/-- The children of one class that parents of one class have through a relation. -/
structure Demand where
  mapping : ClassMapping
  relation : Relation
  index : Nat
  /-- The first target of the class of the children that one of the parents selects. -/
  target : Target
  /-- The parents concerned. -/
  parents : Numbered

namespace Demand

/-- The property that the foreign keys of the children carry. -/
def referenced? (demand : Demand) : Option Property :=
  demand.target.foreignKey.bind fun foreignKey =>
    demand.mapping.property? foreignKey.referenced

/-- The values that the parents concerned have there, without NULL. -/
def values (demand : Demand) : List Value :=
  demand.referenced?.elim [] fun referenced =>
    (givenValues referenced demand.parents).map Prod.fst

/-- The demands are for different children: through different relations, of different classes,
or of parents of different classes. -/
def IsApart (demand other : Demand) : Prop :=
  ¬ (demand.mapping.type.same other.mapping.type = true ∧ demand.index = other.index ∧
    demand.target.type.same other.target.type = true)

end Demand

namespace Relation

/-- Do the targets lead to one class of children? -/
def sameChild (target other : Target) : Bool := target.type.same other.type

theorem sameChild_comm (target other : Target) : sameChild target other = sameChild other target :=
  EntityType.same_comm target.type other.type

theorem sameChild_trans (target other third : Target) (hleft : sameChild target other = true)
    (hright : sameChild other third = true) : sameChild target third = true :=
  EntityType.same_trans hleft hright

/-- The target whose class the child of a parent has. -/
def targetOf? (relation : Relation) (mapping : ClassMapping) (parent : Entity) : Option Target :=
  match relation.form with
  | .many child foreignKey | .one child foreignKey => some ⟨child, foreignKey, none⟩
  | .variant discriminator _ =>
    (mapping.property? discriminator).bind fun property => relation.selectedBy? property parent

/-- The targets of parents, the first one of each class, with the parents whose target is of the
class. -/
def shares (relation : Relation) (mapping : ClassMapping) (parents : Numbered) :
    List (Target × Numbered) :=
  (firsts sameChild (parents.filterMap fun parent => relation.targetOf? mapping parent.2)).map
    fun target => (target, parents.filter fun parent =>
      (relation.targetOf? mapping parent.2).any fun selected => sameChild selected target)

end Relation

/-- What parents of a class demand through some relations, the first of which has an index. -/
def ClassMapping.demands (mapping : ClassMapping) (parents : Numbered) (first : Nat)
    (relations : List Relation) : List Demand :=
  (relations.zipIdx first).flatMap fun entry =>
    (entry.1.shares mapping parents).map fun share =>
      ⟨mapping, entry.1, entry.2, share.1, share.2⟩

namespace Registry

/-- The classes of a level, in the order in which they are first seen. -/
def classesOf (registry : Registry) (level : Numbered) : List ClassMapping :=
  (firsts EntityType.same (level.map fun parent => parent.2.type)).filterMap fun type =>
    registry.find? type.id

/-- What the parents of a level demand. -/
def demands (registry : Registry) (level : Numbered) : List Demand :=
  (registry.classesOf level).flatMap fun mapping =>
    mapping.demands (level.filter fun parent => parent.2.type.same mapping.type) 0
      mapping.relations

/-- The number of targets of all relations. -/
def targetCount (registry : Registry) : Nat :=
  (registry.mappings.map fun mapping =>
    (mapping.relations.map fun relation => relation.targets.length).sum).sum

end Registry

/-! ## Plans meet demands -/

/-- A query that is planned to meet a demand. -/
structure Fetch.Meets (fetch : Fetch) (registry : Registry) (dialect : Dialect)
    (demand : Demand) : Prop where
  relation : fetch.relation = demand.relation
  index : fetch.index = demand.index
  child : fetch.child = demand.target.type
  owners : ∃ referenced, demand.referenced? = some referenced ∧
    fetch.owners = grouped Value.sameEntry (givenValues referenced demand.parents)
  statement : ∃ foreignKey child, demand.target.foreignKey = some foreignKey ∧
    fetch.foreignKeyColumn = foreignKey.column ∧ registry.find? fetch.child.id = some child ∧
    fetch.statement = (childQuery demand.relation foreignKey child
      (firsts Value.sameEntry demand.values)).build dialect

theorem Fetch.Meets.params_eq {fetch : Fetch} {registry : Registry} {dialect : Dialect}
    {demand : Demand} (hmeets : fetch.Meets registry dialect demand) :
    fetch.statement.params = (firsts Value.sameEntry demand.values ++
      demand.relation.subsetValues).filter Value.isBound := by
  obtain ⟨_, _, _, _, _, hstatement⟩ := hmeets.statement
  rw [hstatement, params_childQuery]

theorem Fetch.Meets.isServed {fetch : Fetch} {registry : Registry} {dialect : Dialect}
    {demand : Demand} (hmeets : fetch.Meets registry dialect demand) : fetch.IsServed := by
  obtain ⟨_, _, howners⟩ := hmeets.owners
  rw [IsServed, howners]
  intro group hgroup
  exact (grouped_forall (P := fun _ _ => True) (by simp) (by simp) group hgroup).1

/-- Who is given a row has a value that is equal to its foreign key. -/
theorem Fetch.Meets.exists_parent {fetch : Fetch} {registry : Registry} {dialect : Dialect}
    {demand : Demand} {row : Row} {owner : Nat}
    (hmeets : fetch.Meets registry dialect demand) (howner : owner ∈ fetch.ownersOf row) :
    ∃ referenced e, demand.referenced? = some referenced ∧ (owner, e) ∈ demand.parents ∧
      (e.read referenced.field).isNull = false ∧
      (e.read referenced.field).sameEntry (fetch.foreignKeyOf row) = true := by
  obtain ⟨referenced, hreferenced, howners⟩ := hmeets.owners
  rw [Fetch.ownersOf, howners, entered_grouped Value.sameEntry_comm
    fun _ _ _ => Value.sameEntry_trans] at howner
  obtain ⟨entry, hentry, rfl⟩ := List.mem_map.1 howner
  obtain ⟨hgiven, hsame⟩ := List.mem_filter.1 hentry
  obtain ⟨⟨number, e⟩, hparent, rfl⟩ := List.mem_map.1 hgiven
  obtain ⟨hparent, hpresent⟩ := List.mem_filter.1 hparent
  exact ⟨referenced, e, hreferenced, hparent, by simpa using hpresent, hsame⟩

/-- A row that answered a query is read as an entity and given to one of the parents concerned: one
whose value for the foreign key is present and equal to that of the row. -/
structure Fetch.Gives (fetch : Fetch) (registry : Registry) (dialect : Dialect) (demand : Demand)
    (foreignKey : ForeignKey) (child : ClassMapping) (referenced : Property) (row : Row)
    (parent : Nat × Entity) (e : Entity) : Prop where
  key : demand.target.foreignKey = some foreignKey
  column : fetch.foreignKeyColumn = foreignKey.column
  childMapped : registry.find? demand.target.type.id = some child
  statement : fetch.statement = (childQuery demand.relation foreignKey child
    (firsts Value.sameEntry demand.values)).build dialect
  declared : demand.mapping.property? foreignKey.referenced = some referenced
  read : child.hydrate row = .ok e
  concerned : parent ∈ demand.parents
  present : (parent.2.read referenced.field).isNull = false
  refers : (parent.2.read referenced.field).sameEntry (fetch.foreignKeyOf row) = true

/-- A routed node is a row that the query gives to a parent. -/
theorem Fetch.Meets.exists_gives {fetch : Fetch} {registry : Registry} {dialect : Dialect}
    {demand : Demand} (hmeets : fetch.Meets registry dialect demand) {rows : List Row}
    {given : List LoadedNode} (hrouted : routeRows registry fetch rows = .ok given)
    {node : LoadedNode} (hnode : node ∈ given) :
    ∃ foreignKey child referenced row parent e, row ∈ rows ∧
      node = ⟨some e, some parent.1, fetch.index⟩ ∧
      fetch.Gives registry dialect demand foreignKey child referenced row parent e := by
  obtain ⟨foreignKey, child, hkey, hcolumn, hchild, hstatement⟩ := hmeets.statement
  rw [routeRows, Registry.mappingById_eq_ok.2 hchild, Result.ok_bind,
    Fetch.giveRows_eq_ok hmeets.isServed fun _ _ => rfl] at hrouted
  obtain ⟨hroutable, rfl⟩ := hrouted
  obtain ⟨row, hrow, hnode⟩ := List.mem_flatMap.1 hnode
  obtain ⟨owner, howner, rfl⟩ := List.mem_map.1 hnode
  obtain ⟨e, hread⟩ := hroutable.readable row hrow
  obtain ⟨referenced, parent, hreferenced, hparent, hpresent, hrefers⟩ :=
    hmeets.exists_parent howner
  rw [Demand.referenced?, hkey, Option.bind_some] at hreferenced
  refine ⟨foreignKey, child, referenced, row, (owner, parent), e, hrow, ?_, hkey, hcolumn,
    hmeets.child ▸ hchild, hstatement, hreferenced, hread, hparent, hpresent, hrefers⟩
  rw [hread]
  rfl

/-- Queries that are planned for demands: one for each that has a value to ask for. -/
structure AreMetBy (registry : Registry) (dialect : Dialect) (demands : List Demand)
    (fetches : List Fetch) : Prop where
  referenced : ∀ demand ∈ demands, ∃ referenced, demand.referenced? = some referenced
  met : List.Forall₂ (fun demand fetch => Fetch.Meets fetch registry dialect demand)
    (demands.filter fun demand => !demand.values.isEmpty) fetches

section Plans

variable {registry : Registry} {dialect : Dialect} {mapping : ClassMapping} {relation : Relation}
  {index : Nat} {parents : Numbered} {fetches : List Fetch}

theorem areMetBy_nil : AreMetBy registry dialect [] [] := ⟨by simp, .nil⟩

theorem AreMetBy.append {demands others : List Demand} {further : List Fetch}
    (hdemands : AreMetBy registry dialect demands fetches)
    (hothers : AreMetBy registry dialect others further) :
    AreMetBy registry dialect (demands ++ others) (fetches ++ further) := by
  refine ⟨List.forall_mem_append.2 ⟨hdemands.referenced, hothers.referenced⟩, ?_⟩
  rw [List.filter_append]
  exact List.rel_append hdemands.met hothers.met

/-- A query is planned for a demand, unless no parent has a value to refer to. -/
theorem planRelation_areMetBy {target : Target} {fetch? : Option Fetch}
    (hmapping : registry.find? mapping.type.id = some mapping)
    (hsound : relation.IsSound registry mapping) (htarget : target ∈ relation.targets)
    (hsame : ∀ parent ∈ parents, parent.2.type.same mapping.type = true)
    (hplan : planRelation registry dialect relation index target parents = .ok fetch?) :
    AreMetBy registry dialect [⟨mapping, relation, index, target, parents⟩] fetch?.toList := by
  cases hforeignKey : target.foreignKey with
  | none =>
      rw [planRelation, hforeignKey] at hplan
      cases hplan
  | some foreignKey =>
      obtain ⟨child, hchild, hchecked⟩ := hsound.target target htarget
      obtain ⟨⟨referenced, hreferenced⟩, _⟩ := hchecked foreignKey hforeignKey
      have hparent := hsound.parent
      rw [EntityType.same, beq_iff_eq] at hparent
      rw [planRelation_eq hforeignKey (hparent ▸ hmapping) hreferenced hchild hsame] at hplan
      have hrefers : Demand.referenced? ⟨mapping, relation, index, target, parents⟩ =
          some referenced := by
        rw [Demand.referenced?, hforeignKey]
        exact hreferenced
      have hvalues : Demand.values ⟨mapping, relation, index, target, parents⟩ =
          (givenValues referenced parents).map Prod.fst := by
        rw [Demand.values, hrefers]
        rfl
      have htrans (a b c : Value) (hleft : a.sameEntry b = true) (hright : b.sameEntry c = true) :
          a.sameEntry c = true := Value.sameEntry_trans hleft hright
      have hkeys : (grouped Value.sameEntry (givenValues referenced parents)).map Prod.fst =
          firsts Value.sameEntry ((givenValues referenced parents).map Prod.fst) :=
        map_fst_grouped htrans _
      have hempty : (grouped Value.sameEntry (givenValues referenced parents)).isEmpty =
          ((givenValues referenced parents).map Prod.fst).isEmpty := by
        rw [← List.isEmpty_map (f := Prod.fst), hkeys]
        cases givenValues referenced parents <;> rfl
      refine ⟨by simpa using ⟨referenced, hrefers⟩, ?_⟩
      rw [List.filter_singleton, hvalues]
      simp only [hempty] at hplan
      cases hnone : ((givenValues referenced parents).map Prod.fst).isEmpty with
      | true =>
          rw [hnone] at hplan
          cases hplan
          exact .nil
      | false =>
          rw [hnone] at hplan
          cases hplan
          refine .cons ⟨rfl, rfl, rfl, ⟨referenced, hrefers, rfl⟩, foreignKey, child, hforeignKey,
            rfl, hchild, ?_⟩ .nil
          rw [hvalues, ← hkeys]

theorem Relation.mem_targets_of_targetOf? {parent : Entity} {target : Target}
    (htarget : relation.targetOf? mapping parent = some target) : target ∈ relation.targets := by
  rw [targetOf?] at htarget
  split at htarget
  case h_1 hform | h_2 hform =>
    rw [← Option.some.inj htarget, targets, hform]
    exact List.mem_singleton_self _
  case h_3 =>
    obtain ⟨_, _, hselects⟩ := Option.bind_eq_some_iff.1 htarget
    exact relation.mem_targets_of_selectedBy? hselects

/-- A share is of one of the targets and of some of the parents. -/
theorem Relation.mem_shares {share : Target × Numbered}
    (hshare : share ∈ relation.shares mapping parents) :
    share.1 ∈ relation.targets ∧ share.2 ⊆ parents := by
  obtain ⟨target, htarget, rfl⟩ := List.mem_map.1 hshare
  obtain ⟨_, _, hselects⟩ := List.mem_filterMap.1 ((firsts_sublist _).subset htarget)
  exact ⟨mem_targets_of_targetOf? hselects, fun _ hparent => (List.mem_filter.1 hparent).1⟩

/-- Grouping parents by their targets gives the shares. -/
theorem grouped_targets (relation : Relation) (mapping : ClassMapping) (parents : Numbered) :
    grouped Relation.sameChild (parents.filterMap fun parent =>
        (relation.targetOf? mapping parent.2).map fun target => (target, parent)) =
      relation.shares mapping parents := by
  have htargets : (parents.filterMap fun parent =>
      (relation.targetOf? mapping parent.2).map fun target => (target, parent)).map Prod.fst =
        parents.filterMap fun parent => relation.targetOf? mapping parent.2 := by
    simp [List.map_filterMap, Function.comp_def]
  have hgroup (target : Target) : ((parents.filterMap fun parent =>
      (relation.targetOf? mapping parent.2).map fun target => (target, parent)).filter
        fun entry => Relation.sameChild entry.1 target).map Prod.snd =
          parents.filter fun parent => (relation.targetOf? mapping parent.2).any
            fun selected => Relation.sameChild selected target := by
    rw [List.filter_filterMap, List.map_filterMap, ← List.filterMap_eq_filter]
    refine List.filterMap_congr fun parent _ => ?_
    cases hselected : relation.targetOf? mapping parent.2 with
    | none => simp [Option.guard, hselected]
    | some selected =>
        cases hsame : Relation.sameChild selected target <;>
          simp [Option.guard, hselected, hsame]
  rw [grouped_eq Relation.sameChild_comm Relation.sameChild_trans
    fun entry _ => beq_self_eq_true entry.1.type.id, htargets, Relation.shares]
  exact List.map_congr_left fun target _ => congrArg (Prod.mk target) (hgroup target)

/-- All parents share the only target that there is. -/
theorem Relation.shares_of_forall {target : Target}
    (htarget : ∀ parent, relation.targetOf? mapping parent = some target) (parent : Nat × Entity)
    (rest : Numbered) :
    relation.shares mapping (parent :: rest) = [(target, parent :: rest)] := by
  have hsame : Relation.sameChild target target = true := beq_self_eq_true target.type.id
  have hfirsts : firsts Relation.sameChild ((parent :: rest).map fun _ => target) = [target] := by
    rw [List.map_cons, firsts, List.filter_eq_nil_iff.2 fun other hother => ?_]
    obtain ⟨_, _, rfl⟩ := List.mem_map.1 ((firsts_sublist _).subset hother)
    rw [hsame]
    exact Bool.false_ne_true
  simp only [shares, htarget, List.filterMap_eq_map', hfirsts, Option.any_some, hsame,
    List.filter_true, List.map_singleton]

theorem planTargets_areMetBy {shares : List (Target × Numbered)} {planned : List (Option Fetch)}
    (hmapping : registry.find? mapping.type.id = some mapping)
    (hsound : relation.IsSound registry mapping)
    (hshares : ∀ share ∈ shares, share.1 ∈ relation.targets ∧
      ∀ parent ∈ share.2, parent.2.type.same mapping.type = true)
    (hplanned : List.Forall₂ (fun share fetch? => planRelation registry dialect relation index
      share.1 share.2 = .ok fetch?) shares planned) :
    AreMetBy registry dialect (shares.map fun share =>
      ⟨mapping, relation, index, share.1, share.2⟩) (planned.filterMap id) := by
  induction hplanned with
  | nil => exact areMetBy_nil
  | @cons share fetch? rest planned hfirst _ ih =>
      rw [List.forall_mem_cons] at hshares
      have hhere := planRelation_areMetBy hmapping hsound hshares.1.1 hshares.1.2 hfirst
      have hboth := hhere.append (ih hshares.2)
      cases fetch? <;> exact hboth

/-- The queries for one relation meet what its parents demand through it. -/
theorem planParents_areMetBy (hmapping : registry.find? mapping.type.id = some mapping)
    (hsound : relation.IsSound registry mapping)
    (hsame : ∀ parent ∈ parents, parent.2.type.same mapping.type = true)
    (hplan : planParents registry dialect mapping relation index parents = .ok fetches) :
    AreMetBy registry dialect ((relation.shares mapping parents).map fun share =>
      ⟨mapping, relation, index, share.1, share.2⟩) fetches := by
  rw [planParents] at hplan
  split at hplan
  case h_1 child foreignKey hform | h_2 child foreignKey hform =>
    obtain ⟨fetch?, hfetch, hplan⟩ := Result.bind_eq_ok.1 hplan
    obtain rfl := Result.pure_eq_ok.1 hplan
    have htarget (parent : Entity) : relation.targetOf? mapping parent =
        some ⟨child, foreignKey, none⟩ := by rw [Relation.targetOf?, hform]
    have hmem : ⟨child, foreignKey, none⟩ ∈ relation.targets := by
      rw [Relation.targets, hform]
      exact List.mem_singleton_self _
    have hmet := planRelation_areMetBy hmapping hsound hmem hsame hfetch
    cases parents with
    | nil =>
        have hvalues : Demand.values ⟨mapping, relation, index, ⟨child, foreignKey, none⟩, []⟩ =
            [] := by
          obtain ⟨referenced, hreferenced⟩ := hmet.referenced _ (List.mem_singleton_self _)
          rw [Demand.values, hreferenced]
          rfl
        have hnone := hmet.met
        rw [List.filter_singleton, hvalues] at hnone
        exact ⟨by simp [Relation.shares, firsts], hnone⟩
    | cons parent rest =>
        rw [Relation.shares_of_forall htarget]
        exact hmet
  case h_3 discriminator variants hform =>
    obtain ⟨property, hproperty, hplan⟩ := Result.bind_eq_ok.1 hplan
    obtain ⟨selected, hselected, hplan⟩ := Result.bind_eq_ok.1 hplan
    obtain ⟨planned, hplanned, hplan⟩ := Result.bind_eq_ok.1 hplan
    obtain rfl := Result.pure_eq_ok.1 hplan
    have htarget (parent : Entity) : relation.targetOf? mapping parent =
        relation.selectedBy? property parent := by
      simp only [Relation.targetOf?, hform, ClassMapping.requireProperty_eq_ok.1 hproperty,
        Option.bind_some]
    have hgroups : grouped (fun target other : Target => target.type.same other.type) selected =
        relation.shares mapping parents := by
      rw [← grouped_targets, selectedTargets_eq_ok hselected]
      simp only [htarget]
      rfl
    rw [hgroups, Result.mapM_eq_ok] at hplanned
    refine planTargets_areMetBy hmapping hsound (fun share hshare => ?_) hplanned
    obtain ⟨hmem, hparents⟩ := Relation.mem_shares hshare
    exact ⟨hmem, fun parent hparent => hsame parent (hparents hparent)⟩

theorem planRelations_areMetBy {first : Nat} {relations : List Relation}
    (hmapping : registry.find? mapping.type.id = some mapping)
    (hsound : ∀ relation ∈ relations, relation.IsSound registry mapping)
    (hsame : ∀ parent ∈ parents, parent.2.type.same mapping.type = true)
    (hplan : planRelations registry dialect mapping parents first relations = .ok fetches) :
    AreMetBy registry dialect (mapping.demands parents first relations) fetches := by
  induction relations generalizing first fetches with
  | nil =>
      cases hplan
      exact areMetBy_nil
  | cons relation rest ih =>
      obtain ⟨here, hhere, hplan⟩ := Result.bind_eq_ok.1 hplan
      obtain ⟨others, hothers, hplan⟩ := Result.bind_eq_ok.1 hplan
      obtain rfl := Result.pure_eq_ok.1 hplan
      rw [List.forall_mem_cons] at hsound
      rw [ClassMapping.demands, List.zipIdx_cons, List.flatMap_cons]
      exact (planParents_areMetBy hmapping hsound.1 hsame hhere).append (ih hsound.2 hothers)

/-- The queries of a level meet its demands. -/
theorem planLevel_areMetBy {level : Numbered}
    (hplan : planLevel registry dialect level = .ok fetches) :
    AreMetBy registry dialect (registry.demands level) fetches := by
  have hgroups : grouped EntityType.same (level.map fun parent => (parent.2.type, parent)) =
      (firsts EntityType.same (level.map fun parent => parent.2.type)).map fun type =>
        (type, level.filter fun parent => parent.2.type.same type) := by
    rw [grouped_eq EntityType.same_comm (fun _ _ _ => EntityType.same_trans)
      fun entry _ => beq_self_eq_true entry.1.id, List.map_map]
    simp only [List.filter_map, List.map_map, Function.comp_def, List.map_id']
  rw [planLevel, hgroups] at hplan
  rw [Registry.demands, Registry.classesOf]
  generalize firsts EntityType.same (level.map fun parent => parent.2.type) = types at hplan
  induction types generalizing fetches with
  | nil =>
      cases hplan
      exact areMetBy_nil
  | cons type rest ih =>
      obtain ⟨mapping, hmapping, hplan⟩ := Result.bind_eq_ok.1 hplan
      obtain ⟨here, hhere, hplan⟩ := Result.bind_eq_ok.1 hplan
      obtain ⟨others, hothers, hplan⟩ := Result.bind_eq_ok.1 hplan
      obtain rfl := Result.pure_eq_ok.1 hplan
      rw [Registry.mappingById_eq_ok] at hmapping
      have htype := Registry.same_of_find? hmapping
      have hparents : (level.filter fun parent => parent.2.type.same type) =
          level.filter fun parent => parent.2.type.same mapping.type :=
        List.filter_congr fun parent _ => by rw [EntityType.same, EntityType.same, htype]
      rw [List.filterMap_cons]
      simp only [hmapping, List.flatMap_cons]
      refine AreMetBy.append (planRelations_areMetBy (htype ▸ hmapping)
        (fun relation => registry.isSound (List.mem_of_find?_eq_some hmapping))
        (fun parent hparent => (List.mem_filter.1 hparent).2) ?_) (ih hothers)
      rwa [hparents] at hhere

end Plans

/-! ## No demand is raised twice -/

section Demands

variable {registry : Registry} {mapping : ClassMapping} {relation : Relation} {parents : Numbered}

theorem Relation.sameChild_iff {target other : Target} :
    Relation.sameChild target other = true ↔ target.type.id = other.type.id := by
  rw [Relation.sameChild, EntityType.same, beq_iff_eq]

/-- The targets that parents share are of different classes. -/
theorem Relation.pairwise_shares (relation : Relation) (mapping : ClassMapping)
    (parents : Numbered) : (relation.shares mapping parents).Pairwise fun share other =>
      Relation.sameChild share.1 other.1 = false := by
  exact List.pairwise_map.2 (pairwise_firsts _)

/-- A relation has as many shares as it has targets at most. -/
theorem Relation.length_shares_le (relation : Relation) (mapping : ClassMapping)
    (parents : Numbered) : (relation.shares mapping parents).length ≤ relation.targets.length := by
  have hnodup : ((relation.shares mapping parents).map fun share => share.1.type.id).Nodup := by
    refine List.pairwise_map.2 ((relation.pairwise_shares mapping parents).imp fun hapart hid => ?_)
    rw [Relation.sameChild_iff.2 hid] at hapart
    cases hapart
  have hsubset : ((relation.shares mapping parents).map fun share => share.1.type.id) ⊆
      relation.targets.map fun target => target.type.id := by
    intro id hid
    obtain ⟨share, hshare, rfl⟩ := List.mem_map.1 hid
    exact List.mem_map_of_mem (mem_shares hshare).1
  simpa using (hnodup.subperm hsubset).length_le

theorem ClassMapping.mem_demands {demand : Demand} {first : Nat} {relations : List Relation}
    (hdemand : demand ∈ mapping.demands parents first relations) : demand.mapping = mapping := by
  obtain ⟨_, _, hdemand⟩ := List.mem_flatMap.1 hdemand
  obtain ⟨_, _, rfl⟩ := List.mem_map.1 hdemand
  rfl

theorem ClassMapping.pairwise_demands (mapping : ClassMapping) (parents : Numbered) (first : Nat)
    (relations : List Relation) :
    (mapping.demands parents first relations).Pairwise Demand.IsApart := by
  rw [demands, List.pairwise_flatMap]
  constructor
  · rintro ⟨relation, index⟩ _
    refine List.pairwise_map.2 ((relation.pairwise_shares mapping parents).imp ?_)
    rintro share other hapart ⟨_, _, hchild⟩
    rw [Relation.sameChild] at hapart
    rw [hapart] at hchild
    cases hchild
  · have hindices : ((relations.zipIdx first).map Prod.snd).Nodup := by
      rw [List.zipIdx_map_snd]
      exact List.nodup_range'
    refine (List.pairwise_map.1 hindices).imp ?_
    rintro entry entry' hdiffer demand hdemand other hother ⟨_, hindex, _⟩
    obtain ⟨_, _, rfl⟩ := List.mem_map.1 hdemand
    obtain ⟨_, _, rfl⟩ := List.mem_map.1 hother
    exact hdiffer hindex

theorem ClassMapping.length_demands_le (mapping : ClassMapping) (parents : Numbered) (first : Nat)
    (relations : List Relation) : (mapping.demands parents first relations).length ≤
      (relations.map fun relation => relation.targets.length).sum := by
  induction relations generalizing first with
  | nil => exact le_rfl
  | cons relation rest ih =>
      rw [demands, List.zipIdx_cons, List.flatMap_cons, List.length_append, List.length_map,
        List.map_cons, List.sum_cons]
      exact Nat.add_le_add (relation.length_shares_le mapping parents) (ih (first + 1))

/-- No class of a level is seen twice. -/
theorem Registry.pairwise_classesOf (registry : Registry) (level : Numbered) :
    (registry.classesOf level).Pairwise fun mapping other =>
      mapping.type.same other.type = false := by
  refine List.Pairwise.filterMap _ ?_ (pairwise_firsts _)
  intro type other hapart mapping hmapping mapping' hmapping'
  rw [EntityType.same, Registry.same_of_find? hmapping, Registry.same_of_find? hmapping']
  exact hapart

theorem Registry.classesOf_subset (registry : Registry) (level : Numbered) :
    registry.classesOf level ⊆ registry.mappings := by
  intro mapping hmapping
  obtain ⟨_, _, hfind⟩ := List.mem_filterMap.1 hmapping
  exact List.mem_of_find?_eq_some hfind

/-- A demand is of a class of the registry, through one of its relations, for a target that is
selected up to the class of the children by each of the parents concerned. -/
theorem Registry.of_mem_demands {level : Numbered} {demand : Demand}
    (hdemand : demand ∈ registry.demands level) :
    registry.find? demand.mapping.type.id = some demand.mapping ∧
      demand.mapping.relations[demand.index]? = some demand.relation ∧
      demand.target ∈ demand.relation.targets ∧
      ∀ parent ∈ demand.parents, parent ∈ level ∧
        parent.2.type.same demand.mapping.type = true ∧
        ∃ selected, demand.relation.targetOf? demand.mapping parent.2 = some selected ∧
          Relation.sameChild selected demand.target = true := by
  obtain ⟨mapping, hmapping, hdemand⟩ := List.mem_flatMap.1 hdemand
  obtain ⟨⟨relation, index⟩, hentry, hdemand⟩ := List.mem_flatMap.1 hdemand
  obtain ⟨share, hshare, rfl⟩ := List.mem_map.1 hdemand
  obtain ⟨type, _, hfind⟩ := List.mem_filterMap.1 hmapping
  refine ⟨Registry.same_of_find? hfind ▸ hfind,
    List.mem_zipIdx_iff_getElem?.1 hentry, (Relation.mem_shares hshare).1,
    fun parent hparent => ?_⟩
  obtain ⟨target, _, rfl⟩ := List.mem_map.1 hshare
  obtain ⟨hmember, hselects⟩ := List.mem_filter.1 hparent
  obtain ⟨hlevel, hsame⟩ := List.mem_filter.1 hmember
  exact ⟨hlevel, hsame, by simpa [Option.any_eq_true] using hselects⟩

/-- No demand of a level is raised twice. -/
theorem Registry.pairwise_demands (registry : Registry) (level : Numbered) :
    (registry.demands level).Pairwise Demand.IsApart := by
  rw [demands, List.pairwise_flatMap]
  refine ⟨fun mapping _ => mapping.pairwise_demands _ _ _,
    (registry.pairwise_classesOf level).imp ?_⟩
  rintro mapping mapping' hapart demand hdemand other hother ⟨hclass, _, _⟩
  rw [ClassMapping.mem_demands hdemand, ClassMapping.mem_demands hother, hapart] at hclass
  cases hclass

/-- The class of every parent is seen. -/
theorem Registry.mem_classesOf {level : Numbered} {parent : Nat × Entity} (hparent : parent ∈ level)
    (hmapping : registry.find? parent.2.type.id = some mapping) :
    mapping ∈ registry.classesOf level := by
  have htype : parent.2.type ∈ level.map fun parent => parent.2.type := List.mem_map_of_mem hparent
  have htrans (type other third : EntityType) (hleft : type.same other = true)
      (hright : other.same third = true) : type.same third = true :=
    EntityType.same_trans hleft hright
  obtain ⟨type, hfirst, hsame⟩ := exists_mem_firsts htrans htype
  refine List.mem_filterMap.2 ⟨type, hfirst, ?_⟩
  rcases hsame with rfl | hsame
  · exact hmapping
  · rw [EntityType.same, beq_iff_eq] at hsame
    rwa [hsame]

/-- What a parent has through a relation is demanded. -/
theorem Registry.exists_demand {level : Numbered} {parent : Nat × Entity} {index : Nat}
    {target : Target} (hparent : parent ∈ level)
    (hmapping : registry.find? parent.2.type.id = some mapping)
    (hrelation : mapping.relations[index]? = some relation)
    (htarget : relation.targetOf? mapping parent.2 = some target) :
    ∃ demand ∈ registry.demands level, demand.mapping = mapping ∧ demand.relation = relation ∧
      demand.index = index ∧ Relation.sameChild demand.target target = true ∧
      parent ∈ demand.parents := by
  have hmember : parent ∈ level.filter fun other => other.2.type.same mapping.type :=
    List.mem_filter.2 ⟨hparent, by
      rw [EntityType.same, Registry.same_of_find? hmapping, beq_self_eq_true]⟩
  have hselected : target ∈ (level.filter fun other => other.2.type.same mapping.type).filterMap
      fun other => relation.targetOf? mapping other.2 :=
    List.mem_filterMap.2 ⟨parent, hmember, htarget⟩
  obtain ⟨first, hfirst, hsame⟩ := exists_mem_firsts Relation.sameChild_trans hselected
  have hchild : Relation.sameChild first target = true := by
    rcases hsame with rfl | hsame
    · exact beq_self_eq_true first.type.id
    · exact hsame
  refine ⟨⟨mapping, relation, index, first, _⟩, List.mem_flatMap.2 ⟨mapping,
    mem_classesOf hparent hmapping, List.mem_flatMap.2 ⟨(relation, index), ?_,
      List.mem_map.2 ⟨(first, _), List.mem_map_of_mem hfirst, rfl⟩⟩⟩, rfl, rfl, rfl, hchild, ?_⟩
  · exact List.mem_zipIdx_iff_getElem?.2 hrelation
  · refine List.mem_filter.2 ⟨hmember, ?_⟩
    rw [htarget, Option.any_some, Relation.sameChild_comm, hchild]

/-- A level has as many demands as there are targets at most, whatever its parents. -/
theorem Registry.length_demands_le (registry : Registry) (level : Numbered) :
    (registry.demands level).length ≤ registry.targetCount := by
  have hnodup : (registry.classesOf level).Nodup := by
    refine (registry.pairwise_classesOf level).imp ?_
    rintro mapping _ hapart rfl
    rw [EntityType.same, beq_self_eq_true] at hapart
    cases hapart
  rw [demands, List.length_flatMap]
  refine (List.sum_le_sum fun mapping _ =>
    mapping.length_demands_le _ 0 mapping.relations).trans ?_
  obtain ⟨counted, hperm, hsub⟩ := hnodup.subperm (registry.classesOf_subset level)
  rw [← (hperm.map _).sum_eq]
  exact (hsub.map _).sum_le_sum fun _ _ => Nat.zero_le _

/-- A level is planned as many queries as there are targets at most. -/
theorem length_le_of_planLevel {dialect : Dialect} {level : Numbered} {fetches : List Fetch}
    (hplan : planLevel registry dialect level = .ok fetches) :
    fetches.length ≤ registry.targetCount := by
  rw [← (planLevel_areMetBy hplan).met.length_eq]
  exact (List.length_filter_le _ _).trans (registry.length_demands_le level)

end Demands

/-! ## One value of each key form -/

/-- A value that is equal to those of its key form and to no other: it has no NaN and no
floating-point zero, and it is not DEFAULT. -/
def Value.IsExact (value : Value) : Prop :=
  value.hasNaN = false ∧ value.isZeroFree = true ∧ value.isBound = true

theorem Value.IsExact.keyEqual_iff {value other : Value} (hexact : value.IsExact) :
    value.keyEqual other = true ↔ value.keyForm = other.keyForm := by
  obtain ⟨hnan, hzero, _⟩ := hexact
  refine ⟨fun hequal => Value.eq_of_equal hequal (by rwa [isZeroFree_keyForm]), fun hform => ?_⟩
  rw [keyEqual, ← hform, equal_self_eq, hasNaN_keyForm, hnan]
  rfl

/-- One value of every key form: the first of those that have it, in their order. -/
structure AreRepresentatives (found values : List Value) : Prop where
  ordered : found.Sublist values
  distinct : (found.map Value.keyForm).Nodup
  covering : ∀ value ∈ values, ∃ first ∈ found, first.keyForm = value.keyForm
  first : ∀ value ∈ found, ∃ earlier later, values = earlier ++ value :: later ∧
    ∀ other ∈ earlier, other.keyForm ≠ value.keyForm

/-- A table of keys has one value of each key form. -/
theorem firsts_areRepresentatives {values : List Value}
    (hexact : ∀ value ∈ values, value.IsExact) :
    AreRepresentatives (firsts Value.sameEntry values) values := by
  have hsame : ∀ value ∈ values, ∀ other ∈ values,
      (value.sameEntry other = true ↔ value.keyForm = other.keyForm) := by
    intro value hvalue other hother
    rw [Value.sameEntry_iff (hexact other hother).2.1, (hexact value hvalue).keyEqual_iff]
  have htrans (a b c : Value) (hleft : a.sameEntry b = true) (hright : b.sameEntry c = true) :
      a.sameEntry c = true := Value.sameEntry_trans hleft hright
  have hsub : (firsts Value.sameEntry values).Sublist values := firsts_sublist values
  have hapart : (firsts Value.sameEntry values).Pairwise fun value other =>
      value.sameEntry other = false := pairwise_firsts values
  constructor
  case ordered => exact hsub
  case distinct =>
    refine List.pairwise_map.2 (hapart.imp_of_mem fun {value other} hvalue hother hdiffer => ?_)
    rw [Ne, ← hsame value (hsub.subset hvalue) other (hsub.subset hother), hdiffer]
    exact Bool.false_ne_true
  case covering =>
    intro value hvalue
    obtain ⟨first, hfirst, rfl | hequal⟩ := exists_mem_firsts htrans hvalue
    · exact ⟨first, hfirst, rfl⟩
    · exact ⟨first, hfirst, (hsame first (hsub.subset hfirst) value hvalue).1 hequal⟩
  case first =>
    intro value hvalue
    have hfind : values.find? (Value.sameEntry · value) = some value := by
      rw [← find?_firsts htrans]
      exact find?_of_pairwise hapart hvalue
        ((hsame value (hsub.subset hvalue) value (hsub.subset hvalue)).2 rfl)
    obtain ⟨_, earlier, later, hsplit, hearlier⟩ := List.find?_eq_some_iff_append.1 hfind
    refine ⟨earlier, later, hsplit, fun other hother hform => ?_⟩
    have hmem : other ∈ values := hsplit ▸ List.mem_append_left _ hother
    have hdiffer := hearlier other hother
    rw [(hsame other hmem value (hsub.subset hvalue)).2 hform] at hdiffer
    cases hdiffer

/-! ## The batches of a level -/

/-- What is bound by a query that meets a demand for exact values. -/
theorem Fetch.Meets.exists_representatives {fetch : Fetch} {registry : Registry}
    {dialect : Dialect} {demand : Demand} (hmeets : fetch.Meets registry dialect demand)
    (hvalues : ∀ value ∈ demand.values, value.IsExact)
    (hsubset : ∀ value ∈ demand.relation.subsetValues, value.isBound = true) :
    ∃ found, AreRepresentatives found demand.values ∧
      fetch.statement.params = found ++ demand.relation.subsetValues := by
  refine ⟨_, firsts_areRepresentatives hvalues, ?_⟩
  rw [hmeets.params_eq, List.filter_append, List.filter_eq_self.2 hsubset,
    List.filter_eq_self.2 fun value hvalue =>
      (hvalues value ((firsts_sublist _).subset hvalue)).2.2]

/-- A level that is planned.  Whatever a parent has through a relation is demanded, no two demands
are for the same children, and each names the property that its parents refer by.  In the order
of the demands there is one query for each where a parent has a value, so that the registry alone
bounds their number.  A query binds the first value of every key form, then the constant of the
relation's subset. -/
theorem planLevel_batches (registry : Registry) (dialect : Dialect) (level : Numbered)
    (fetches : List Fetch) (hplan : planLevel registry dialect level = .ok fetches) :
    (∀ parent ∈ level, ∀ mapping relation index target,
      registry.find? parent.2.type.id = some mapping →
      mapping.relations[index]? = some relation →
      relation.targetOf? mapping parent.2 = some target →
      ∃ demand ∈ registry.demands level, demand.mapping = mapping ∧ demand.relation = relation ∧
        demand.index = index ∧ Relation.sameChild demand.target target = true ∧
        parent ∈ demand.parents) ∧
    (registry.demands level).Pairwise Demand.IsApart ∧
    (∀ demand ∈ registry.demands level, ∃ referenced, demand.referenced? = some referenced) ∧
    List.Forall₂ (fun demand fetch => fetch.Meets registry dialect demand ∧
        ((∀ value ∈ demand.values, value.IsExact) →
          (∀ value ∈ demand.relation.subsetValues, value.isBound = true) →
          ∃ found, AreRepresentatives found demand.values ∧
            fetch.statement.params = found ++ demand.relation.subsetValues))
      ((registry.demands level).filter fun demand => !demand.values.isEmpty) fetches ∧
    fetches.length ≤ registry.targetCount := by
  obtain ⟨hreferenced, hmet⟩ := planLevel_areMetBy hplan
  exact ⟨fun parent hparent mapping relation index target hmapping hrelation htarget =>
    registry.exists_demand hparent hmapping hrelation htarget, registry.pairwise_demands level,
    hreferenced, hmet.imp fun demand fetch hmeets => ⟨hmeets, hmeets.exists_representatives⟩,
    length_le_of_planLevel hplan⟩

/-- Two orders of one number and one of another ask for their payments by one query with two
values. -/
theorem three_orders_batch :
    ∃ fetch found, planLevel (Checkout.registry "card_order") .postgres
        [(0, Checkout.orderOf 1 "cash" []), (1, Checkout.orderOf 2 "card" []),
          (2, Checkout.orderOf 1 "card" [])] = .ok [fetch] ∧
      AreRepresentatives found [.bigInt 1, .bigInt 2, .bigInt 1] ∧
      fetch.statement.params = found := by
  obtain ⟨_, _, _, hmet, _⟩ := planLevel_batches (Checkout.registry "card_order") .postgres
    [(0, Checkout.orderOf 1 "cash" []), (1, Checkout.orderOf 2 "card" []),
      (2, Checkout.orderOf 1 "card" [])] _ rfl
  obtain ⟨demand, hdemand, _, hbinds⟩ :=
    exists_item_of_forall₂ hmet (List.mem_singleton_self _)
  obtain rfl := List.mem_singleton.1 hdemand
  obtain ⟨found, hfound, hparams⟩ := hbinds
    (List.forall_mem_cons.2 ⟨⟨rfl, rfl, rfl⟩, List.forall_mem_cons.2 ⟨⟨rfl, rfl, rfl⟩,
      List.forall_mem_cons.2 ⟨⟨rfl, rfl, rfl⟩, List.forall_mem_nil _⟩⟩⟩) (List.forall_mem_nil _)
  exact ⟨_, found, rfl, hfound, hparams.trans (List.append_nil found)⟩

end AggregateSync
