import AggregateSync.Proofs.Mapping.Soundness
import AggregateSync.Proofs.Session.Grouping
import Mathlib.Data.List.Nodup
import Mathlib.Data.List.Perm.Subperm

/-!
# Planned queries

A query for children is planned from the values that its parents give to foreign keys.
This module says what a planned query knows: the relation and its index, the class and
the foreign key column of the children, and under each value the parents that have it.
The queries of a level share the parents out: through one of its relations a parent is
asked for by one query at most.
-/

namespace AggregateSync

/-- The target that a parent selects by its discriminator. -/
def Relation.selectedBy? (relation : Relation) (discriminator : Property) (parent : Entity) :
    Option Target :=
  let value := parent.read discriminator.field
  if value.isNull then none else relation.targetFor? value

theorem Relation.mem_targets_of_selectedBy? (relation : Relation) {discriminator : Property}
    {parent : Entity} {target : Target}
    (htarget : relation.selectedBy? discriminator parent = some target) :
    target ∈ relation.targets := by
  rw [selectedBy?] at htarget
  split at htarget
  · cases htarget
  · exact List.mem_of_find?_eq_some htarget

/-- The values that parents give to foreign keys, with the numbers of the parents. -/
def givenValues (referenced : Property) (parents : Numbered) : List (Value × Nat) :=
  (parents.filter fun parent => !(parent.2.read referenced.field).isNull).map fun parent =>
    (parent.2.read referenced.field, parent.1)

theorem referencedValues_eq_ok {mapping : ClassMapping} {referenced : Property}
    {parents : Numbered} {entries : List (Value × Nat)}
    (hentries : referencedValues mapping referenced parents = .ok entries) :
    (∀ parent ∈ parents, parent.2.type.same mapping.type = true) ∧
      entries = givenValues referenced parents := by
  induction parents generalizing entries with
  | nil =>
      cases hentries
      exact ⟨by simp, rfl⟩
  | cons parent rest ih =>
      obtain ⟨number, e⟩ := parent
      obtain ⟨value, hvalue, hentries⟩ := Result.bind_eq_ok.1 hentries
      obtain ⟨others, hothers, hentries⟩ := Result.bind_eq_ok.1 hentries
      obtain ⟨hsame, rfl⟩ := ClassMapping.get_eq_ok.1 hvalue
      obtain ⟨hrest, rfl⟩ := ih hothers
      rw [Result.pure_eq_ok] at hentries
      refine ⟨List.forall_mem_cons.2 ⟨hsame, hrest⟩, ?_⟩
      rw [← hentries, givenValues, givenValues, List.filter_cons]
      cases (e.read referenced.field).isNull <;> simp

theorem referencedValues_of_same {mapping : ClassMapping} {parents : Numbered}
    (hsame : ∀ parent ∈ parents, parent.2.type.same mapping.type = true)
    (referenced : Property) :
    referencedValues mapping referenced parents = .ok (givenValues referenced parents) := by
  induction parents with
  | nil => rfl
  | cons parent rest ih =>
      obtain ⟨number, e⟩ := parent
      rw [List.forall_mem_cons] at hsame
      rw [referencedValues, ClassMapping.get_of_same hsame.1, Result.ok_bind, ih hsame.2,
        Result.ok_bind, givenValues, givenValues, List.filter_cons]
      cases (e.read referenced.field).isNull <;> rfl

/-- The query for those children of a relation whose foreign key has one of the values. -/
def childQuery (relation : Relation) (foreignKey : ForeignKey) (child : ClassMapping)
    (values : List Value) : Select :=
  let own := child.columns.map Property.column
  let columns := if own.contains foreignKey.column then own else own ++ [foreignKey.column]
  let rows := ((Select.ofTable child.table).withColumns columns).withFilter
    (.isIn (Expr.named foreignKey.column) (values.map Expr.literal) false)
  let restricted := relation.subset.elim rows fun subset =>
    rows.withFilter (Expr.columnIs subset.column subset.value)
  relation.order.foldl (fun select order => select.withOrder order.term) restricted

/-- What is planned for parents of the class of a relation, all of whose names are found. -/
theorem planRelation_eq {registry : Registry} {relation : Relation} {target : Target}
    {parents : Numbered} {foreignKey : ForeignKey} {mapping child : ClassMapping}
    {referenced : Property} (hforeignKey : target.foreignKey = some foreignKey)
    (hmapping : registry.find? relation.parent.id = some mapping)
    (hreferenced : mapping.property? foreignKey.referenced = some referenced)
    (hchild : registry.find? target.type.id = some child)
    (hsame : ∀ parent ∈ parents, parent.2.type.same mapping.type = true) (dialect : Dialect)
    (index : Nat) :
    planRelation registry dialect relation index target parents = .ok (
      let owners := grouped Value.sameEntry (givenValues referenced parents)
      if owners.isEmpty then none
      else some ⟨relation, index, target.type, foreignKey.column,
        (childQuery relation foreignKey child (owners.map Prod.fst)).build dialect, owners⟩) := by
  rw [planRelation, hforeignKey]
  change (pure foreignKey >>= _) = _
  simp only [pure_bind, Registry.mappingById_eq_ok.2 hmapping, Result.ok_bind,
    ClassMapping.requireProperty_eq_ok.2 hreferenced, referencedValues_of_same hsame,
    Registry.mappingById_eq_ok.2 hchild, childQuery, List.map_map]
  split <;> rfl

/-- What a query knows that was planned for a relation. -/
structure Fetch.IsFor (fetch : Fetch) (registry : Registry) (relation : Relation)
    (index : Nat) (target : Target) (parents : Numbered) (foreignKey : ForeignKey)
    (mapping child : ClassMapping) (referenced : Property) : Prop where
  refers : target.foreignKey = some foreignKey
  mapped : registry.find? relation.parent.id = some mapping
  declared : mapping.property? foreignKey.referenced = some referenced
  childMapped : registry.find? target.type.id = some child
  suited : ∀ parent ∈ parents, parent.2.type.same mapping.type = true
  relation : fetch.relation = relation
  index : fetch.index = index
  child : fetch.child = target.type
  column : fetch.foreignKeyColumn = foreignKey.column
  owners : fetch.owners = grouped Value.sameEntry (givenValues referenced parents)

/-- A query is planned for its relation. -/
theorem planRelation_isFor {registry : Registry} {dialect : Dialect} {relation : Relation}
    {index : Nat} {target : Target} {parents : Numbered} {fetch : Fetch}
    (hplan : planRelation registry dialect relation index target parents =
      .ok (some fetch)) :
    ∃ foreignKey mapping child referenced,
      fetch.IsFor registry relation index target parents foreignKey mapping child
        referenced := by
  rw [planRelation] at hplan
  cases hrefers : target.foreignKey with
  | none =>
      rw [hrefers] at hplan
      cases hplan
  | some foreignKey =>
      rw [hrefers] at hplan
      obtain ⟨_, hpure, hplan⟩ := Result.bind_eq_ok.1 hplan
      obtain rfl := Result.pure_eq_ok.1 hpure
      obtain ⟨mapping, hmapping, hplan⟩ := Result.bind_eq_ok.1 hplan
      obtain ⟨referenced, hreferenced, hplan⟩ := Result.bind_eq_ok.1 hplan
      obtain ⟨entries, hentries, hplan⟩ := Result.bind_eq_ok.1 hplan
      obtain ⟨hsuited, rfl⟩ := referencedValues_eq_ok hentries
      dsimp only at hplan
      split at hplan
      case isTrue => cases hplan
      case isFalse =>
        obtain ⟨child, hchild, hplan⟩ := Result.bind_eq_ok.1 hplan
        cases hplan
        exact ⟨foreignKey, mapping, child, referenced, hrefers,
          Registry.mappingById_eq_ok.1 hmapping,
          ClassMapping.requireProperty_eq_ok.1 hreferenced,
          Registry.mappingById_eq_ok.1 hchild, hsuited, rfl, rfl, rfl, rfl, rfl⟩

namespace Fetch

/-- The parents that a query asks for, under whatever value. -/
def ownerNumbers (fetch : Fetch) : List Nat := fetch.owners.flatMap Prod.snd

/-- The parents that a query asks for, each with the index of the relation. -/
def claims (fetch : Fetch) : List (Nat × Nat) :=
  fetch.ownerNumbers.map fun owner => (fetch.index, owner)

/-- Queries that ask for different parents claim nothing twice. -/
theorem nodup_claims_append {fetches others : List Fetch}
    (hfetches : (fetches.flatMap claims).Nodup) (hothers : (others.flatMap claims).Nodup)
    (hapart : ∀ fetch ∈ fetches, ∀ other ∈ others, ∀ owner ∈ fetch.ownerNumbers,
      owner ∉ other.ownerNumbers) : ((fetches ++ others).flatMap claims).Nodup := by
  rw [List.flatMap_append, List.nodup_append]
  refine ⟨hfetches, hothers, ?_⟩
  intro claim hclaim other hother hsame
  obtain ⟨fetch, hfetch, hclaim⟩ := List.mem_flatMap.1 hclaim
  obtain ⟨owner, howner, rfl⟩ := List.mem_map.1 hclaim
  obtain ⟨fetch', hfetch', hother⟩ := List.mem_flatMap.1 hother
  obtain ⟨owner', howner', rfl⟩ := List.mem_map.1 hother
  rw [(Prod.mk.inj hsame).2] at howner
  exact hapart fetch hfetch fetch' hfetch' owner' howner howner'

/-- No value of a query is without parents. -/
def IsServed (fetch : Fetch) : Prop := ∀ group ∈ fetch.owners, group.2 ≠ []

namespace IsFor

variable {fetch : Fetch} {registry : Registry} {relation : Relation} {index : Nat}
  {target : Target} {parents : Numbered} {foreignKey : ForeignKey}
  {mapping child : ClassMapping} {referenced : Property}

theorem isServed (hfor : fetch.IsFor registry relation index target parents foreignKey mapping
    child referenced) : fetch.IsServed := by
  intro group hgroup
  rw [hfor.owners] at hgroup
  exact (grouped_forall (P := fun _ _ => True) (by simp) (by simp) group hgroup).1

/-- A query asks for each parent once at most. -/
theorem ownerNumbers_subperm (hfor : fetch.IsFor registry relation index target parents
    foreignKey mapping child referenced) :
    fetch.ownerNumbers.Subperm (parents.map Prod.fst) := by
  have hgiven : ((givenValues referenced parents).map Prod.snd).Sublist
      (parents.map Prod.fst) := by
    rw [givenValues, List.map_map]
    exact List.filter_sublist.map _
  rw [ownerNumbers, hfor.owners]
  exact (flatMap_grouped_perm _).subperm.trans hgiven.subperm

end IsFor

/-- A query for a relation of a class asks for parents of the class. -/
structure Suits (fetch : Fetch) (registry : Registry) (parents : Numbered) : Prop where
  served : fetch.IsServed
  targeted : ∃ target ∈ fetch.relation.targets, fetch.child = target.type
  childMapped : ∃ child, registry.find? fetch.child.id = some child
  related : ∀ owner ∈ fetch.ownerNumbers, ∃ e mapping, (owner, e) ∈ parents ∧
    registry.find? e.type.id = some mapping ∧
    mapping.relations[fetch.index]? = some fetch.relation

end Fetch

/-- Queries for one relation that share parents out among them. -/
structure AskFor (fetches : List Fetch) (registry : Registry) (relation : Relation)
    (index : Nat) (parents : Numbered) : Prop where
  relation : ∀ fetch ∈ fetches, fetch.relation = relation
  index : ∀ fetch ∈ fetches, fetch.index = index
  served : ∀ fetch ∈ fetches, fetch.IsServed
  targeted : ∀ fetch ∈ fetches, ∃ target ∈ fetch.relation.targets, fetch.child = target.type
  childMapped : ∀ fetch ∈ fetches, ∃ child, registry.find? fetch.child.id = some child
  shared : (fetches.flatMap Fetch.ownerNumbers).Subperm (parents.map Prod.fst)

section Plans

variable {registry : Registry} {dialect : Dialect} {mapping : ClassMapping}
  {relation : Relation} {index : Nat} {parents : Numbered} {fetches : List Fetch}

theorem planRelation_askFor {target : Target} {fetch? : Option Fetch}
    (htarget : target ∈ relation.targets)
    (hplan : planRelation registry dialect relation index target parents = .ok fetch?) :
    AskFor fetch?.toList registry relation index parents := by
  cases fetch? with
  | none => exact ⟨by simp, by simp, by simp, by simp, by simp, List.nil_subperm⟩
  | some fetch =>
      obtain ⟨_, _, child, _, hfor⟩ := planRelation_isFor hplan
      have hchild := hfor.child ▸ hfor.childMapped
      refine ⟨?_, ?_, ?_, ?_, ?_, ?_⟩ <;>
        simp only [Option.toList_some, List.forall_mem_singleton, List.flatMap_singleton]
      · exact hfor.relation
      · exact hfor.index
      · exact hfor.isServed
      · exact ⟨target, hfor.relation ▸ htarget, hfor.child⟩
      · exact ⟨child, hchild⟩
      · exact hfor.ownerNumbers_subperm

/-- Plans for some parents and for others are a plan for all. -/
theorem AskFor.append {others : List Fetch} {parents' : Numbered}
    (hfetches : AskFor fetches registry relation index parents)
    (hothers : AskFor others registry relation index parents') :
    AskFor (fetches ++ others) registry relation index (parents ++ parents') := by
  constructor
  · exact List.forall_mem_append.2 ⟨hfetches.relation, hothers.relation⟩
  · exact List.forall_mem_append.2 ⟨hfetches.index, hothers.index⟩
  · exact List.forall_mem_append.2 ⟨hfetches.served, hothers.served⟩
  · exact List.forall_mem_append.2 ⟨hfetches.targeted, hothers.targeted⟩
  · exact List.forall_mem_append.2 ⟨hfetches.childMapped, hothers.childMapped⟩
  · rw [List.flatMap_append, List.map_append]
    exact hfetches.shared.append hothers.shared

theorem AskFor.mono {parents' : Numbered}
    (hfetches : AskFor fetches registry relation index parents)
    (hmore : (parents.map Prod.fst).Subperm (parents'.map Prod.fst)) :
    AskFor fetches registry relation index parents' :=
  { hfetches with shared := hfetches.shared.trans hmore }

theorem selectedTargets_eq_ok {discriminator : String} {property : Property}
    {selected : List (Target × (Nat × Entity))}
    (hselected : selectedTargets mapping relation discriminator property parents =
      .ok selected) :
    selected = parents.filterMap fun parent =>
      (relation.selectedBy? property parent.2).map fun target => (target, parent) := by
  induction parents generalizing selected with
  | nil =>
      cases hselected
      rfl
  | cons parent rest ih =>
      obtain ⟨value, hvalue, hselected⟩ := Result.bind_eq_ok.1 hselected
      obtain ⟨_, rfl⟩ := ClassMapping.get_eq_ok.1 hvalue
      rw [List.filterMap_cons, Relation.selectedBy?]
      split at hselected
      case isTrue hnull =>
        rw [if_pos hnull, ih hselected]
        rfl
      case isFalse hgiven =>
        rw [if_neg hgiven]
        split at hselected
        case h_1 => cases hselected
        case h_2 target htarget =>
          obtain ⟨others, hothers, hselected⟩ := Result.bind_eq_ok.1 hselected
          obtain rfl := Result.pure_eq_ok.1 hselected
          rw [htarget, ih hothers]
          rfl

/-- Only parents select targets, and each selects one of those that are declared. -/
theorem mem_of_selectedTargets {discriminator : String} {property : Property}
    {selected : List (Target × (Nat × Entity))}
    (hselected : selectedTargets mapping relation discriminator property parents =
      .ok selected) : ∀ entry ∈ selected, entry.1 ∈ relation.targets ∧ entry.2 ∈ parents := by
  intro entry hentry
  rw [selectedTargets_eq_ok hselected, List.mem_filterMap] at hentry
  obtain ⟨parent, hparent, hentry⟩ := hentry
  obtain ⟨target, htarget, rfl⟩ := Option.map_eq_some_iff.1 hentry
  exact ⟨relation.mem_targets_of_selectedBy? htarget, hparent⟩

theorem selectedTargets_sublist {discriminator : String} {property : Property}
    {selected : List (Target × (Nat × Entity))}
    (hselected : selectedTargets mapping relation discriminator property parents =
      .ok selected) : (selected.map Prod.snd).Sublist parents := by
  rw [selectedTargets_eq_ok hselected, List.map_filterMap]
  have hguard : (fun parent : Nat × Entity => ((relation.selectedBy? property parent.2).map
      fun target => (target, parent)).map Prod.snd) =
        Option.guard fun parent => (relation.selectedBy? property parent.2).isSome := by
    funext parent
    cases htarget : relation.selectedBy? property parent.2 <;> simp [Option.guard, htarget]
  rw [hguard, List.filterMap_eq_filter]
  exact List.filter_sublist

/-- The queries for one relation share the parents out. -/
theorem planParents_askFor
    (hplan : planParents registry dialect mapping relation index parents = .ok fetches) :
    AskFor fetches registry relation index parents := by
  rw [planParents] at hplan
  split at hplan
  case h_1 child foreignKey hform | h_2 child foreignKey hform =>
    obtain ⟨fetch?, hfetch, hplan⟩ := Result.bind_eq_ok.1 hplan
    obtain rfl := Result.pure_eq_ok.1 hplan
    refine planRelation_askFor ?_ hfetch
    rw [Relation.targets, hform]
    exact List.mem_singleton_self _
  case h_3 discriminator variants _ =>
    obtain ⟨property, _, hplan⟩ := Result.bind_eq_ok.1 hplan
    obtain ⟨selected, hselected, hplan⟩ := Result.bind_eq_ok.1 hplan
    obtain ⟨planned, hplanned, hplan⟩ := Result.bind_eq_ok.1 hplan
    obtain rfl := Result.pure_eq_ok.1 hplan
    rw [Result.mapM_eq_ok] at hplanned
    have hgroups : ∀ {groups : List (Target × Numbered)} {planned : List (Option Fetch)},
        (∀ group ∈ groups, group.1 ∈ relation.targets) →
        List.Forall₂ (fun group fetch? => planRelation registry dialect relation index group.1
          group.2 = .ok fetch?) groups planned →
        AskFor (planned.filterMap id) registry relation index (groups.flatMap Prod.snd) := by
      intro groups planned htargets hplanned
      induction hplanned with
      | nil => exact ⟨by simp, by simp, by simp, by simp, by simp, List.nil_subperm⟩
      | @cons group fetch? rest planned hfirst hrest ih =>
          rw [List.forall_mem_cons] at htargets
          have hboth := (planRelation_askFor htargets.1 hfirst).append (ih htargets.2)
          cases fetch? with
          | none => simpa using hboth
          | some fetch => simpa using hboth
    refine (hgroups (fun group hgroup => ?_) hplanned).mono ?_
    · obtain ⟨_, _, hentry⟩ := exists_entry_of_grouped group hgroup
      exact (mem_of_selectedTargets hselected _ hentry).1
    · exact ((flatMap_grouped_perm selected).map Prod.fst).subperm.trans
        ((selectedTargets_sublist hselected).map Prod.fst).subperm

theorem AskFor.claims_eq (hfetches : AskFor fetches registry relation index parents) :
    fetches.flatMap Fetch.claims =
      (fetches.flatMap Fetch.ownerNumbers).map fun owner => (index, owner) := by
  rw [List.map_flatMap]
  apply List.flatMap_congr
  intro fetch hfetch
  rw [Fetch.claims, hfetches.index fetch hfetch]

/-- The queries for all relations of a class from an index on: each is for one of the
relations and for parents of the class, and no parent is asked for twice through one. -/
theorem planRelations_spec {first : Nat} {relations : List Relation}
    (hnodup : (parents.map Prod.fst).Nodup)
    (hplan : planRelations registry dialect mapping parents first relations = .ok fetches) :
    (∀ fetch ∈ fetches, fetch.IsServed ∧
      (∃ target ∈ fetch.relation.targets, fetch.child = target.type) ∧
      (∃ child, registry.find? fetch.child.id = some child) ∧
      (∃ offset, fetch.index = first + offset ∧ relations[offset]? = some fetch.relation) ∧
      ∀ owner ∈ fetch.ownerNumbers, owner ∈ parents.map Prod.fst) ∧
    (fetches.flatMap Fetch.claims).Nodup := by
  induction relations generalizing first fetches with
  | nil =>
      cases hplan
      exact ⟨by simp, .nil⟩
  | cons relation rest ih =>
      obtain ⟨here, hhere, hplan⟩ := Result.bind_eq_ok.1 hplan
      obtain ⟨others, hothers, hplan⟩ := Result.bind_eq_ok.1 hplan
      obtain rfl := Result.pure_eq_ok.1 hplan
      have hask := planParents_askFor hhere
      obtain ⟨hrest, hclaims⟩ := ih hothers
      refine ⟨List.forall_mem_append.2 ⟨fun fetch hfetch => ?_, fun fetch hfetch => ?_⟩, ?_⟩
      · refine ⟨hask.served fetch hfetch, hask.targeted fetch hfetch,
          hask.childMapped fetch hfetch, ⟨0, hask.index fetch hfetch, ?_⟩,
          fun owner howner => ?_⟩
        · rw [hask.relation fetch hfetch]
          rfl
        · exact hask.shared.subset (List.mem_flatMap_of_mem hfetch howner)
      · obtain ⟨hserved, htarget, hchild, ⟨offset, hindex, hrelation⟩, howners⟩ :=
          hrest fetch hfetch
        exact ⟨hserved, htarget, hchild, ⟨offset + 1, by rw [hindex]; omega, hrelation⟩, howners⟩
      · rw [List.flatMap_append, List.nodup_append]
        refine ⟨?_, hclaims, ?_⟩
        · obtain ⟨shared, hperm, hsub⟩ := hask.shared
          rw [hask.claims_eq]
          exact List.Nodup.map (fun owner other hsame => (Prod.mk.inj hsame).2)
            (hperm.nodup_iff.1 (hnodup.sublist hsub))
        · -- the later relations have greater indices
          intro claim hclaim other hother hsame
          rw [hask.claims_eq, List.mem_map] at hclaim
          obtain ⟨owner, _, rfl⟩ := hclaim
          obtain ⟨fetch, hfetch, hother⟩ := List.mem_flatMap.1 hother
          obtain ⟨_, _, _, ⟨offset, hindex, _⟩, _⟩ := hrest fetch hfetch
          obtain ⟨_, _, rfl⟩ := List.mem_map.1 hother
          have hindices := (Prod.mk.inj hsame).1
          omega

/-- The queries for parents of several classes. -/
theorem planClasses_spec {classes : List (EntityType × Numbered)}
    (hclasses : ∀ entry ∈ classes, ∀ parent ∈ entry.2, entry.1.same parent.2.type = true)
    (hnodup : ((classes.flatMap Prod.snd).map Prod.fst).Nodup)
    (hplan : planClasses registry dialect classes = .ok fetches) :
    (∀ fetch ∈ fetches, fetch.Suits registry (classes.flatMap Prod.snd)) ∧
      (fetches.flatMap Fetch.claims).Nodup := by
  induction classes generalizing fetches with
  | nil =>
      cases hplan
      exact ⟨by simp, .nil⟩
  | cons entry rest ih =>
      obtain ⟨type, parents⟩ := entry
      obtain ⟨mapping, hmapping, hplan⟩ := Result.bind_eq_ok.1 hplan
      obtain ⟨here, hhere, hplan⟩ := Result.bind_eq_ok.1 hplan
      obtain ⟨others, hothers, hplan⟩ := Result.bind_eq_ok.1 hplan
      obtain rfl := Result.pure_eq_ok.1 hplan
      rw [List.forall_mem_cons] at hclasses
      rw [List.flatMap_cons, List.map_append, List.nodup_append] at hnodup
      obtain ⟨hparents, hclaims⟩ := planRelations_spec hnodup.1 hhere
      obtain ⟨hsuits, hclaims'⟩ := ih hclasses.2 hnodup.2.1 hothers
      rw [List.flatMap_cons]
      refine ⟨List.forall_mem_append.2 ⟨fun fetch hfetch => ?_, fun fetch hfetch => ?_⟩, ?_⟩
      · obtain ⟨hserved, htarget, hchild, ⟨offset, hindex, hrelation⟩, howners⟩ :=
          hparents fetch hfetch
        refine ⟨hserved, htarget, hchild, fun owner howner => ?_⟩
        obtain ⟨⟨_, e⟩, hmember, rfl⟩ := List.mem_map.1 (howners owner howner)
        have htype := hclasses.1 _ hmember
        rw [EntityType.same, beq_iff_eq] at htype
        refine ⟨e, mapping, List.mem_append_left _ hmember, ?_, ?_⟩
        · rw [← htype]
          exact Registry.mappingById_eq_ok.1 hmapping
        · rw [hindex, Nat.zero_add]
          exact hrelation
      · obtain ⟨hserved, htarget, hchild, hrelated⟩ := hsuits fetch hfetch
        refine ⟨hserved, htarget, hchild, fun owner howner => ?_⟩
        obtain ⟨e, found, hmember, hfound⟩ := hrelated owner howner
        exact ⟨e, found, List.mem_append_right _ hmember, hfound⟩
      · refine Fetch.nodup_claims_append hclaims hclaims' ?_
        intro fetch hfetch other hother owner howner hother'
        obtain ⟨e, _, hmember, _⟩ := (hsuits other hother).related owner hother'
        exact hnodup.2.2 owner ((hparents fetch hfetch).2.2.2.2 owner howner) owner
          (List.mem_map_of_mem hmember) rfl

/-- The entities of a level stand under their class. -/
theorem grouped_type_same (level : Numbered) :
    ∀ group ∈ grouped EntityType.same (level.map fun entry => (entry.2.type, entry)),
      group.2 ≠ [] ∧ ∀ parent ∈ group.2, group.1.same parent.2.type = true := by
  apply grouped_forall
    (P := fun (type : EntityType) (parent : Nat × Entity) => type.same parent.2.type = true)
  · intro type other parent hsame hparent
    rw [EntityType.same, beq_iff_eq] at hsame hparent ⊢
    exact hsame.trans hparent
  · rintro _ hentry
    obtain ⟨parent, _, rfl⟩ := List.mem_map.1 hentry
    exact beq_self_eq_true _

/-- The queries of a level: each asks for parents of one class through one of its relations,
and no parent is asked for twice through one. -/
theorem planLevel_spec {level : Numbered} (hnodup : (level.map Prod.fst).Nodup)
    (hplan : planLevel registry dialect level = .ok fetches) :
    (∀ fetch ∈ fetches, fetch.Suits registry level) ∧ (fetches.flatMap Fetch.claims).Nodup := by
  have hperm : ((grouped EntityType.same
      (level.map fun entry => (entry.2.type, entry))).flatMap Prod.snd).Perm level := by
    refine (flatMap_grouped_perm _).trans (.of_eq ?_)
    rw [List.map_map]
    exact List.map_id level
  have hclasses := grouped_type_same level
  obtain ⟨hsuits, hclaims⟩ := planClasses_spec (fun group hgroup => (hclasses group hgroup).2)
    ((hperm.map _).nodup_iff.2 hnodup) hplan
  refine ⟨fun fetch hfetch => ?_, hclaims⟩
  obtain ⟨hserved, htarget, hchild, hrelated⟩ := hsuits fetch hfetch
  refine ⟨hserved, htarget, hchild, fun owner howner => ?_⟩
  obtain ⟨e, mapping, hmember, hmapping⟩ := hrelated owner howner
  exact ⟨e, mapping, hperm.mem_iff.1 hmember, hmapping⟩

end Plans

/-! ## Errors of a plan -/

section Faults

open Result (FailsWithin failsWithin_ok failsWithin_error)

variable {registry : Registry} {dialect : Dialect} {mapping : ClassMapping}
  {relation : Relation} {parents : Numbered} {strangers : Prop}

theorem selectedTargets_failsWithin
    (hsame : ∀ parent ∈ parents, parent.2.type.same mapping.type = true)
    (discriminator : String) (property : Property) :
    FailsWithin (Error.IsForeseen strangers)
      (selectedTargets mapping relation discriminator property parents) := by
  induction parents with
  | nil => exact failsWithin_ok []
  | cons parent rest ih =>
      rw [List.forall_mem_cons] at hsame
      rw [selectedTargets, ClassMapping.get_of_same hsame.1, Result.ok_bind]
      split
      · exact ih hsame.2
      · split
        · exact failsWithin_error trivial
        · exact (ih hsame.2).bind fun others _ => failsWithin_ok _

section Class

variable (hmapping : registry.find? mapping.type.id = some mapping)
include hmapping

theorem planRelation_failsWithin (hsound : relation.IsSound registry mapping) (index : Nat)
    {target : Target} (htarget : target ∈ relation.targets)
    (hsame : ∀ parent ∈ parents, parent.2.type.same mapping.type = true) :
    FailsWithin (Error.IsForeseen strangers)
      (planRelation registry dialect relation index target parents) := by
  obtain ⟨child, hchild, hchecked⟩ := hsound.target target htarget
  have hparent := hsound.parent
  rw [EntityType.same, beq_iff_eq] at hparent
  cases hforeignKey : target.foreignKey with
  | none =>
      rw [planRelation, hforeignKey]
      exact failsWithin_error trivial
  | some foreignKey =>
      obtain ⟨⟨referenced, hreferenced⟩, _⟩ := hchecked foreignKey hforeignKey
      have hparentMapped : registry.find? relation.parent.id = some mapping := by
        rw [hparent, hmapping]
      rw [planRelation_eq hforeignKey hparentMapped hreferenced hchild hsame]
      exact failsWithin_ok _

theorem planParents_failsWithin (hsound : relation.IsSound registry mapping) (index : Nat)
    (hsame : ∀ parent ∈ parents, parent.2.type.same mapping.type = true) :
    FailsWithin (Error.IsForeseen strangers)
      (planParents registry dialect mapping relation index parents) := by
  rw [planParents]
  split
  case h_1 child foreignKey hform | h_2 child foreignKey hform =>
    refine (planRelation_failsWithin hmapping hsound index ?_ hsame).bind
      fun fetch _ => failsWithin_ok _
    rw [Relation.targets, hform]
    exact List.mem_singleton_self _
  case h_3 discriminator variants hform =>
    obtain ⟨property, hproperty⟩ :=
      hsound.discriminator discriminator (by rw [Relation.discriminator, hform])
    rw [ClassMapping.requireProperty_eq_ok.2 hproperty, Result.ok_bind]
    refine (selectedTargets_failsWithin hsame discriminator property).bind
      fun selected hselected => FailsWithin.bind (.mapM fun group hgroup => ?_)
        fun fetches _ => failsWithin_ok _
    have hmembers := mem_of_selectedTargets hselected
    obtain ⟨_, _, hentry⟩ := exists_entry_of_grouped group hgroup
    refine planRelation_failsWithin hmapping hsound index (hmembers _ hentry).1
      fun parent hparent => hsame parent ?_
    exact (grouped_forall (P := fun _ parent => parent ∈ parents) (fun _ _ _ _ => id)
      (fun entry hentry => (hmembers entry hentry).2) group hgroup).2 parent hparent

theorem planRelations_failsWithin
    (hsame : ∀ parent ∈ parents, parent.2.type.same mapping.type = true) (first : Nat)
    {relations : List Relation}
    (hsound : ∀ relation ∈ relations, relation.IsSound registry mapping) :
    FailsWithin (Error.IsForeseen strangers)
      (planRelations registry dialect mapping parents first relations) := by
  induction relations generalizing first with
  | nil => exact failsWithin_ok []
  | cons relation rest ih =>
      rw [List.forall_mem_cons] at hsound
      exact (planParents_failsWithin hmapping hsound.1 first hsame).bind
        fun fetches _ => (ih (first + 1) hsound.2).bind fun others _ => failsWithin_ok _

end Class

/-- The queries of a level are planned, where its entities are of mapped classes, unless a
relation has no foreign key or a discriminator selects nothing. -/
theorem planLevel_failsWithin {level : Numbered}
    (hknown : ∀ parent ∈ level, registry.Knows parent.2.type) :
    FailsWithin (Error.IsForeseen strangers) (planLevel registry dialect level) := by
  have hgroups : ∀ group ∈ grouped EntityType.same
      (level.map fun entry => (entry.2.type, entry)), ∃ mapping,
        registry.find? group.1.id = some mapping ∧
        ∀ parent ∈ group.2, parent.2.type.same mapping.type = true := by
    intro group hgroup
    obtain ⟨_, _, hentry⟩ := exists_entry_of_grouped group hgroup
    obtain ⟨parent, hparent, hkey⟩ := List.mem_map.1 hentry
    obtain ⟨mapping, hmapping⟩ := hknown parent hparent
    rw [(Prod.mk.inj hkey).1] at hmapping
    refine ⟨mapping, hmapping, fun other hother => ?_⟩
    have hsame := (grouped_type_same level group hgroup).2 other hother
    rw [EntityType.same, beq_iff_eq] at hsame ⊢
    rw [← hsame, Registry.same_of_find? hmapping]
  rw [planLevel]
  generalize grouped EntityType.same (level.map fun entry => (entry.2.type, entry)) = groups
    at hgroups
  induction groups with
  | nil => exact failsWithin_ok []
  | cons group rest ih =>
      rw [List.forall_mem_cons] at hgroups
      obtain ⟨⟨mapping, hmapping, hsame⟩, hrest⟩ := hgroups
      rw [planClasses, Registry.mappingById_eq_ok.2 hmapping, Result.ok_bind]
      have hfind := hmapping
      rw [← Registry.same_of_find? hmapping] at hfind
      exact (planRelations_failsWithin hfind hsame 0 fun relation =>
        registry.isSound (List.mem_of_find?_eq_some hmapping)).bind
          fun fetches _ => (ih hrest).bind fun others _ => failsWithin_ok _

end Faults

end AggregateSync
