import AggregateSync.Proofs.Connection.TwoRuns
import AggregateSync.Proofs.Session.Batching
import AggregateSync.Proofs.Session.Loading
import AggregateSync.Proofs.Sql.BoundValues

/-!
# Loading whatever the widths

A load looks at values in their key form only: when it selects targets by discriminators, when it
puts parents under their values and when it routes rows to them.  So two databases whose answers
differ only in the widths of integers are asked the same, and both loads give the same graph up
to widths, or fail for the same reason.
-/

namespace AggregateSync

open Result (Related)

/-! ## Groups -/

/-- Like entries are put into like groups, where keys that are alike are compared alike. -/
theorem forall₂_grouped {κ α β : Type} {same : κ → κ → Bool} {K : κ → κ → Prop} {R : α → β → Prop}
    (hsame : ∀ a a' b b', K a a' → K b b' → same a b = same a' b')
    {entries : List (κ × α)} {entries' : List (κ × β)}
    (hentries : List.Forall₂ (fun entry entry' => K entry.1 entry'.1 ∧ R entry.2 entry'.2)
      entries entries') :
    List.Forall₂ (fun group group' => K group.1 group'.1 ∧ List.Forall₂ R group.2 group'.2)
      (grouped same entries) (grouped same entries') := by
  have hadd : ∀ {groups : List (κ × List α)} {groups' : List (κ × List β)} {key key' : κ}
      {item : α} {item' : β}, K key key' → R item item' →
      List.Forall₂ (fun group group' => K group.1 group'.1 ∧ List.Forall₂ R group.2 group'.2)
        groups groups' →
      List.Forall₂ (fun group group' => K group.1 group'.1 ∧ List.Forall₂ R group.2 group'.2)
        (addToGroup same key item groups) (addToGroup same key' item' groups') := by
    intro groups groups' key key' item item' hkey hitem hgroups
    induction hgroups with
    | nil => exact .cons ⟨hkey, .cons hitem .nil⟩ .nil
    | @cons group group' _ _ hgroup hrest ih =>
        rw [addToGroup, addToGroup, hsame _ _ _ _ hgroup.1 hkey]
        split
        · exact .cons ⟨hgroup.1, List.rel_append hgroup.2 (.cons hitem .nil)⟩ hrest
        · exact .cons hgroup ih
  exact List.rel_foldl (fun _ _ hgroups _ _ hentry => hadd hentry.1 hentry.2 hgroups) .nil hentries

/-- Like items under the same keys are put into like groups. -/
theorem forall₂_grouped_same {κ α β : Type} (same : κ → κ → Bool) (R : α → β → Prop)
    {entries : List (κ × α)} {entries' : List (κ × β)}
    (hentries : List.Forall₂ (fun entry entry' => entry.1 = entry'.1 ∧ R entry.2 entry'.2)
      entries entries') :
    List.Forall₂ (fun group group' => group.1 = group'.1 ∧ List.Forall₂ R group.2 group'.2)
      (grouped same entries) (grouped same entries') :=
  forall₂_grouped (by rintro a _ b _ rfl rfl; rfl) hentries

/-! ## Queries -/

/-- Values of one key form are both bound, or both DEFAULT. -/
theorem Value.SameForm.literal_alike {value other : Value} (hform : value.SameForm other) :
    (Expr.literal value).Alike Value.SameForm (.literal other) := by
  have hbound : ∀ {value : Value}, value.isInteger = true → value.isBound = true := by
    intro value hinteger
    cases value <;> first | rfl | cases hinteger
  obtain rfl | ⟨_, hvalue, hother, _⟩ := hform.eq_or_integer
  · exact Expr.literal_alike_self .refl value
  · exact .literal (hbound hvalue) (hbound hother) hform

theorem Expr.among_alike {values values' : List Value}
    (hvalues : List.Forall₂ Value.SameForm values values') (column : String) :
    (Expr.among column values).Alike Value.SameForm (Expr.among column values') :=
  .isIn false (.column none column) (List.rel_map (fun _ _ hform => hform.literal_alike) hvalues)

/-- Queries for the children of values of one key form are alike. -/
theorem childQuery_alike (relation : Relation) (foreignKey : ForeignKey) (child : ClassMapping)
    {values values' : List Value} (hvalues : List.Forall₂ Value.SameForm values values')
    (dialect : Dialect) :
    ((childQuery relation foreignKey child values).build dialect).Alike
      ((childQuery relation foreignKey child values').build dialect) := by
  have hamong := Expr.among_alike hvalues foreignKey.column
  have halike : (childQuery relation foreignKey child values).Alike Value.SameForm
      (childQuery relation foreignKey child values') := by
    rw [childQuery_eq, childQuery_eq]
    refine ⟨rfl, rfl, .some ?_, rfl, rfl, rfl⟩
    cases relation.subset with
    | none => exact hamong
    | some subset =>
        exact .binary .and hamong (.binary .eq (.column none subset.column)
          (Expr.literal_alike_self .refl subset.value))
  have hmatches := halike.build dialect
  exact ⟨hmatches.sql, hmatches.params⟩

/-! ## Plans -/

/-- Entities of one number that are alike. -/
def ParentAlike (parent parent' : Nat × Entity) : Prop :=
  parent.1 = parent'.1 ∧ parent.2.Alike parent'.2

/-- Numbered entities that are alike under the same numbers. -/
def Numbered.Alike (parents parents' : Numbered) : Prop :=
  List.Forall₂ ParentAlike parents parents'

/-- Values of one key form with the same owners. -/
def OwnersAlike (owners owners' : List (Value × List Nat)) : Prop :=
  List.Forall₂ (fun group group' => group.1.SameForm group'.1 ∧ group.2 = group'.2) owners owners'

/-- Queries for the same children whose statements are alike. -/
structure Fetch.Alike (fetch other : Fetch) : Prop where
  relation : fetch.relation = other.relation
  index : fetch.index = other.index
  child : fetch.child = other.child
  column : fetch.foreignKeyColumn = other.foreignKeyColumn
  statement : fetch.statement.Alike other.statement
  owners : OwnersAlike fetch.owners other.owners

namespace Relation

/-- Discriminators of one key form select one target. -/
theorem targetFor?_congr (relation : Relation) {value value' : Value}
    (hform : value.SameForm value') : relation.targetFor? value = relation.targetFor? value' := by
  rw [targetFor?, targetFor?]
  refine congrArg (List.find? · relation.targets) (funext fun target => ?_)
  cases target.selector with
  | none => rfl
  | some selector => exact hform.keyEqual_eq selector

/-- Parents that are alike select one target. -/
theorem targetOf?_congr (relation : Relation) (mapping : ClassMapping) {parent parent' : Entity}
    (halike : parent.Alike parent') :
    relation.targetOf? mapping parent = relation.targetOf? mapping parent' := by
  rw [targetOf?, targetOf?]
  split
  · rfl
  · rfl
  · refine congrArg _ (funext fun property => ?_)
    have hform := halike.read property.field
    rw [selectedBy?, selectedBy?, relation.targetFor?_congr hform, hform.isNull_eq]

end Relation

section Plans

variable {parents parents' : Numbered}

theorem referencedValues_related (mapping : ClassMapping) (referenced : Property)
    (hparents : parents.Alike parents') :
    Related Error.Alike (List.Forall₂ fun entry entry' : Value × Nat =>
        entry.1.SameForm entry'.1 ∧ entry.2 = entry'.2)
      (referencedValues mapping referenced parents)
      (referencedValues mapping referenced parents') := by
  induction hparents with
  | nil => exact .ok .nil
  | @cons parent parent' _ _ hparent _ ih =>
      obtain ⟨number, e⟩ := parent
      obtain ⟨number', e'⟩ := parent'
      obtain ⟨rfl, halike⟩ := hparent
      rw [referencedValues, referencedValues]
      refine (referenced.get_related mapping.type halike).bind fun value value' hform => ?_
      refine ih.bind fun others others' hothers => ?_
      rw [hform.isNull_eq]
      split
      · exact .ok hothers
      · exact .ok (.cons ⟨hform, rfl⟩ hothers)

theorem grouped_ownersAlike {entries entries' : List (Value × Nat)}
    (hentries : List.Forall₂ (fun entry entry' : Value × Nat =>
      entry.1.SameForm entry'.1 ∧ entry.2 = entry'.2) entries entries') :
    OwnersAlike (grouped Value.sameEntry entries) (grouped Value.sameEntry entries') := by
  refine (forall₂_grouped (fun _ _ _ _ hform hform' => hform.sameEntry_eq hform') hentries).imp ?_
  rintro group group' ⟨hform, hitems⟩
  exact ⟨hform, List.forall₂_eq_eq_eq ▸ hitems⟩

theorem planRelation_related (registry : Registry) (dialect : Dialect) (relation : Relation)
    (index : Nat) (target : Target) (hparents : parents.Alike parents') :
    Related Error.Alike (Option.Rel Fetch.Alike)
      (planRelation registry dialect relation index target parents)
      (planRelation registry dialect relation index target parents') := by
  rw [planRelation, planRelation]
  cases target.foreignKey with
  | none => exact .error (.same _)
  | some foreignKey =>
      refine related_self_bind (pure foreignKey) fun foreignKey => ?_
      refine related_self_bind (registry.mappingById relation.parent.id) fun mapping => ?_
      refine related_self_bind (mapping.requireProperty foreignKey.referenced) fun referenced => ?_
      refine (referencedValues_related mapping referenced hparents).bind
        fun entries entries' hentries => ?_
      have howners := grouped_ownersAlike hentries
      dsimp only
      rw [isEmpty_eq_of_forall₂ howners]
      split
      · exact .ok .none
      refine related_self_bind (registry.mappingById target.type.id) fun child => ?_
      refine .ok (.some ⟨rfl, rfl, rfl, rfl, ?_, howners⟩)
      have hvalues : List.Forall₂ Value.SameForm
          ((grouped Value.sameEntry entries).map Prod.fst)
          ((grouped Value.sameEntry entries').map Prod.fst) :=
        List.rel_map (fun _ _ hgroup => hgroup.1) howners
      have halike := childQuery_alike relation foreignKey child hvalues dialect
      rw [childQuery, childQuery, List.map_map, List.map_map] at halike
      exact halike

theorem selectedTargets_related (mapping : ClassMapping) (relation : Relation)
    (discriminator : String) (property : Property) (hparents : parents.Alike parents') :
    Related Error.Alike (List.Forall₂ fun entry entry' : Target × (Nat × Entity) =>
        entry.1 = entry'.1 ∧ ParentAlike entry.2 entry'.2)
      (selectedTargets mapping relation discriminator property parents)
      (selectedTargets mapping relation discriminator property parents') := by
  induction hparents with
  | nil => exact .ok .nil
  | @cons parent parent' _ _ hparent _ ih =>
      rw [selectedTargets, selectedTargets]
      refine (property.get_related mapping.type hparent.2).bind fun value value' hform => ?_
      rw [hform.isNull_eq, relation.targetFor?_congr hform, hform.display_eq]
      split
      · exact ih
      · split
        · exact .error (.same _)
        · exact ih.bind fun others others' hothers => .ok (.cons ⟨rfl, hparent⟩ hothers)

theorem planParents_related (registry : Registry) (dialect : Dialect) (mapping : ClassMapping)
    (relation : Relation) (index : Nat) (hparents : parents.Alike parents') :
    Related Error.Alike (List.Forall₂ Fetch.Alike)
      (planParents registry dialect mapping relation index parents)
      (planParents registry dialect mapping relation index parents') := by
  rw [planParents, planParents]
  split
  case h_1 | h_2 =>
    refine (planRelation_related registry dialect relation index _ hparents).bind
      fun fetch? fetch?' hfetch => .ok ?_
    cases hfetch with
    | none => exact .nil
    | some halike => exact .cons halike .nil
  case h_3 discriminator _ _ =>
    refine related_self_bind (mapping.requireProperty discriminator) fun property => ?_
    refine (selectedTargets_related mapping relation discriminator property hparents).bind
      fun selected selected' hselected => ?_
    have hgroups := forall₂_grouped_same (fun target other : Target =>
      target.type.same other.type) ParentAlike hselected
    refine (Related.mapM hgroups ?_).bind fun fetches fetches' hfetches =>
      .ok (List.rel_filterMap (fun _ _ hfetch => hfetch) hfetches)
    rintro ⟨target, group⟩ ⟨target', group'⟩ ⟨rfl, hgroup⟩
    exact planRelation_related registry dialect relation index target hgroup

theorem planRelations_related (registry : Registry) (dialect : Dialect) (mapping : ClassMapping)
    (hparents : parents.Alike parents') (first : Nat) (relations : List Relation) :
    Related Error.Alike (List.Forall₂ Fetch.Alike)
      (planRelations registry dialect mapping parents first relations)
      (planRelations registry dialect mapping parents' first relations) := by
  induction relations generalizing first with
  | nil => exact .ok .nil
  | cons relation rest ih =>
      exact (planParents_related registry dialect mapping relation first hparents).bind
        fun _ _ hfetches => (ih (first + 1)).bind fun _ _ hothers =>
          .ok (List.rel_append hfetches hothers)

theorem planClasses_related (registry : Registry) (dialect : Dialect)
    {classes classes' : List (EntityType × Numbered)}
    (hclasses : List.Forall₂ (fun group group' => group.1 = group'.1 ∧ group.2.Alike group'.2)
      classes classes') : Related Error.Alike (List.Forall₂ Fetch.Alike)
      (planClasses registry dialect classes) (planClasses registry dialect classes') := by
  induction hclasses with
  | nil => exact .ok .nil
  | @cons group group' _ _ hgroup _ ih =>
      obtain ⟨type, parents⟩ := group
      obtain ⟨type', parents'⟩ := group'
      obtain ⟨rfl, hparents⟩ := hgroup
      exact related_self_bind _ fun mapping =>
        (planRelations_related registry dialect mapping hparents 0 mapping.relations).bind
          fun _ _ hfetches => ih.bind fun _ _ hothers => .ok (List.rel_append hfetches hothers)

/-- Levels that are alike are planned alike. -/
theorem planLevel_related (registry : Registry) (dialect : Dialect) {level level' : Numbered}
    (hlevel : level.Alike level') : Related Error.Alike (List.Forall₂ Fetch.Alike)
      (planLevel registry dialect level) (planLevel registry dialect level') := by
  have hentries : List.Forall₂ (fun entry entry' : EntityType × (Nat × Entity) =>
      entry.1 = entry'.1 ∧ ParentAlike entry.2 entry'.2)
      (level.map fun entry => (entry.2.type, entry))
      (level'.map fun entry => (entry.2.type, entry)) :=
    List.rel_map (fun _ _ hentry => ⟨hentry.2.type_eq, hentry⟩) hlevel
  exact planClasses_related registry dialect
    (forall₂_grouped_same EntityType.same ParentAlike hentries)

end Plans

/-! ## Routes -/

/-- Nodes for the same place with entities that are alike. -/
structure LoadedNode.Alike (node other : LoadedNode) : Prop where
  entity : Option.Rel Entity.Alike node.entity other.entity
  parent : node.parent = other.parent
  relation : node.relation = other.relation

section Routes

variable {fetch fetch' : Fetch} {row row' : Row}

theorem Fetch.Alike.rowError_alike (halike : fetch.Alike fetch') (fault : IntegrityFault)
    {value value' : Value} (hform : value.SameForm value') :
    (fetch.rowError fault value).Alike (fetch'.rowError fault value') := by
  rw [rowError, rowError, halike.relation, halike.child]
  exact .integrity _ _ _ _ hform

theorem Fetch.foreignKeyOf_sameForm (fetch : Fetch) (hrow : row.Alike row') :
    (fetch.foreignKeyOf row).SameForm (fetch.foreignKeyOf row') := by
  have hvalue := hrow.rel_value? fetch.foreignKeyColumn
  rw [foreignKeyOf, foreignKeyOf]
  generalize row.value? fetch.foreignKeyColumn = value?,
    row'.value? fetch.foreignKeyColumn = value?' at hvalue ⊢
  cases hvalue with
  | none => exact .refl _
  | some hform => exact hform

theorem Fetch.Alike.foreignKeyOf_eq (halike : fetch.Alike fetch') (row : Row) :
    fetch.foreignKeyOf row = fetch'.foreignKeyOf row := by
  rw [foreignKeyOf, foreignKeyOf, halike.column]

theorem giveRow_related (mapping : ClassMapping) (halike : fetch.Alike fetch')
    (hrow : row.Alike row') {value value' : Value} (hform : value.SameForm value')
    (filled owners : List Nat) :
    Related Error.Alike (fun given given' => given.1 = given'.1 ∧
        List.Forall₂ LoadedNode.Alike given.2 given'.2)
      (giveRow mapping fetch row value filled owners)
      (giveRow mapping fetch' row' value' filled owners) := by
  induction owners generalizing filled with
  | nil => exact .ok ⟨rfl, .nil⟩
  | cons owner rest ih =>
      rw [giveRow, giveRow, halike.relation]
      split
      · exact .error (halike.rowError_alike _ hform)
      refine (mapping.hydrate_related hrow).bind fun e e' he => ?_
      refine (ih (owner :: filled)).bind ?_
      rintro ⟨after, others⟩ ⟨_, others'⟩ ⟨rfl, hothers⟩
      exact .ok ⟨rfl, .cons ⟨.some he, rfl, halike.index⟩ hothers⟩

theorem giveRows_related (mapping : ClassMapping) (halike : fetch.Alike fetch')
    {rows rows' : List Row} (hrows : List.Forall₂ Row.Alike rows rows') (filled : List Nat) :
    Related Error.Alike (List.Forall₂ LoadedNode.Alike)
      (giveRows mapping fetch filled rows) (giveRows mapping fetch' filled rows') := by
  induction hrows generalizing filled with
  | nil => exact .ok .nil
  | @cons row row' _ _ hrow _ ih =>
      have hform := fetch'.foreignKeyOf_sameForm hrow
      have hgroup := rel_find?_of_forall₂ halike.owners
        fun group group' hgroup => hgroup.1.sameEntry_eq hform
      rw [giveRows, giveRows, halike.foreignKeyOf_eq]
      dsimp only
      generalize fetch.owners.find? _ = group?, fetch'.owners.find? _ = group?' at hgroup ⊢
      cases hgroup with
      | none => exact .error (halike.rowError_alike _ hform)
      | @some group group' hgroup =>
          dsimp only
          rw [← hgroup.2]
          refine (giveRow_related mapping halike hrow hform filled group.2).bind ?_
          rintro ⟨after, given⟩ ⟨_, given'⟩ ⟨rfl, hgiven⟩
          exact (ih after).bind fun _ _ hothers => .ok (List.rel_append hgiven hothers)

/-- Rows that are alike are routed alike. -/
theorem routeRows_related (registry : Registry) (halike : fetch.Alike fetch')
    {rows rows' : List Row} (hrows : List.Forall₂ Row.Alike rows rows') :
    Related Error.Alike (List.Forall₂ LoadedNode.Alike)
      (routeRows registry fetch rows) (routeRows registry fetch' rows') := by
  rw [routeRows, routeRows, halike.child]
  exact related_self_bind _ fun mapping => giveRows_related mapping halike hrows []

end Routes

/-! ## Assembly -/

section Assembly

variable {nodes nodes' : List LoadedNode}

theorem occupied_related (hnodes : List.Forall₂ LoadedNode.Alike nodes nodes') (number : Nat) :
    Related Error.Alike (fun found found' => found.1.Alike found'.1 ∧ found.2.Alike found'.2)
      (occupied nodes number) (occupied nodes' number) := by
  have hnode := rel_getElem?_of_forall₂ hnodes number
  rw [occupied, occupied]
  generalize nodes[number]? = node?, nodes'[number]? = node?' at hnode ⊢
  cases hnode with
  | none => exact .error (.same _)
  | @some node node' hnode =>
      have hentity := hnode.entity
      dsimp only
      generalize node.entity = e?, node'.entity = e?' at hentity ⊢
      cases hentity with
      | none => exact .error (.same _)
      | some he => exact .ok ⟨hnode, he⟩

theorem forall₂_vacate (hnodes : List.Forall₂ LoadedNode.Alike nodes nodes') (number : Nat)
    {node node' : LoadedNode} (hnode : node.Alike node') {e? e?' : Option Entity}
    (he : Option.Rel Entity.Alike e? e?') :
    List.Forall₂ LoadedNode.Alike (nodes.set number { node with entity := e? })
      (nodes'.set number { node' with entity := e?' }) :=
  forall₂_set hnodes number ⟨he, hnode.parent, hnode.relation⟩

theorem attachNode_related (registry : Registry)
    (hnodes : List.Forall₂ LoadedNode.Alike nodes nodes') (number : Nat) :
    Related Error.Alike (List.Forall₂ LoadedNode.Alike) (attachNode registry nodes number)
      (attachNode registry nodes' number) := by
  rw [attachNode, attachNode]
  refine (occupied_related hnodes number).bind ?_
  rintro ⟨⟨e?, owner?, index⟩, child⟩ ⟨⟨e?', owner?', index'⟩, child'⟩ ⟨hnode, hchild⟩
  have hvacated := forall₂_vacate hnodes number hnode .none
  obtain rfl : owner? = owner?' := hnode.parent
  obtain rfl : index = index' := hnode.relation
  cases owner? with
  | none => exact .error (.same _)
  | some owner =>
      refine related_self_bind (pure owner) fun owner => ?_
      refine (occupied_related hvacated owner).bind ?_
      rintro ⟨above, parent⟩ ⟨above', parent'⟩ ⟨habove, hparent⟩
      dsimp only
      rw [Registry.mappingFor, Registry.mappingFor, hparent.type_eq]
      refine related_self_bind _ fun mapping => related_self_bind _ fun relation => ?_
      exact (relation.attach_related hparent hchild).bind fun completed completed' hcompleted =>
        .ok (forall₂_vacate hvacated owner habove (.some hcompleted))

theorem takeEntities_related (hnodes : List.Forall₂ LoadedNode.Alike nodes nodes')
    (numbers : List Nat) : Related Error.Alike (List.Forall₂ Entity.Alike)
      (takeEntities numbers nodes) (takeEntities numbers nodes') := by
  induction numbers generalizing nodes nodes' with
  | nil => exact .ok .nil
  | cons number rest ih =>
      rw [takeEntities, takeEntities]
      refine (occupied_related hnodes number).bind ?_
      rintro ⟨node, e⟩ ⟨node', e'⟩ ⟨hnode, he⟩
      exact (ih (forall₂_vacate hnodes number hnode .none)).bind fun _ _ hothers =>
        .ok (.cons he hothers)

/-- Nodes that are alike are assembled alike. -/
theorem assemble_related (registry : Registry)
    (hnodes : List.Forall₂ LoadedNode.Alike nodes nodes') (levels : List (List Nat)) :
    Related Error.Alike (List.Forall₂ Entity.Alike) (assemble registry nodes levels)
      (assemble registry nodes' levels) := by
  cases levels with
  | nil => exact .ok .nil
  | cons roots below =>
      rw [assemble, assemble]
      have hnumbers : List.Forall₂ Eq below.reverse.flatten below.reverse.flatten :=
        List.forall₂_same.2 fun _ _ => rfl
      refine (Related.foldlM hnumbers ?_ hnodes).bind fun _ _ hcomplete =>
        takeEntities_related hcomplete roots
      rintro _ _ number _ hstate rfl
      exact attachNode_related registry hstate number

theorem numbered_related (hnodes : List.Forall₂ LoadedNode.Alike nodes nodes')
    (level : List Nat) :
    Related Error.Alike Numbered.Alike (numbered nodes level) (numbered nodes' level) := by
  have hnumbers : List.Forall₂ Eq level level := List.forall₂_same.2 fun _ _ => rfl
  refine Related.mapM hnumbers ?_
  rintro number _ rfl
  refine (occupied_related hnodes number).bind ?_
  rintro ⟨node, e⟩ ⟨node', e'⟩ ⟨_, he⟩
  exact .ok ⟨rfl, he⟩

end Assembly

/-! ## Loads -/

section Loads

variable {registry : Registry} {dialect : Dialect} {nodes nodes' : List LoadedNode}

theorem loadFetches_related {fetches fetches' : List Fetch}
    (hfetches : List.Forall₂ Fetch.Alike fetches fetches')
    (hnodes : List.Forall₂ LoadedNode.Alike nodes nodes') :
    Task.Related (List.Forall₂ LoadedNode.Alike) (Task.loadFetches registry fetches nodes)
      (Task.loadFetches registry fetches' nodes') := by
  induction hfetches generalizing nodes nodes' with
  | nil => exact Task.related_pure hnodes
  | @cons fetch fetch' _ _ hfetch _ ih =>
      rw [Task.loadFetches, Task.loadFetches, hfetch.child]
      refine (Task.related_queryRows fetch'.child hfetch.statement).bind fun _ _ hrows => ?_
      refine (Task.related_ofResult (routeRows_related registry hfetch hrows)).bind
        fun _ _ hrouted => ?_
      exact ih (List.rel_append hnodes hrouted)

/-- All nodes and the numbers of every level. -/
def LevelsAlike (loaded loaded' : List LoadedNode × List (List Nat)) : Prop :=
  List.Forall₂ LoadedNode.Alike loaded.1 loaded'.1 ∧ loaded.2 = loaded'.2

theorem loadBelow_related (budget : Nat) (level : List Nat)
    (hnodes : List.Forall₂ LoadedNode.Alike nodes nodes') :
    Task.Related (Option.Rel LevelsAlike) (Task.loadBelow registry dialect budget nodes level)
      (Task.loadBelow registry dialect budget nodes' level) := by
  induction budget generalizing nodes nodes' level with
  | zero =>
      rw [Task.loadBelow, Task.loadBelow]
      split
      · exact Task.related_pure (.some ⟨hnodes, rfl⟩)
      · exact Task.related_pure .none
  | succ further ih =>
      rw [Task.loadBelow, Task.loadBelow]
      split
      · exact Task.related_pure (.some ⟨hnodes, rfl⟩)
      refine (Task.related_ofResult (numbered_related hnodes level)).bind fun _ _ hparents => ?_
      refine (Task.related_ofResult (planLevel_related registry dialect hparents)).bind
        fun fetches fetches' hfetches => ?_
      rw [isEmpty_eq_of_forall₂ hfetches]
      split
      · exact Task.related_pure (.some ⟨hnodes, rfl⟩)
      refine (loadFetches_related hfetches hnodes).bind fun all all' hall => ?_
      dsimp only
      rw [hnodes.length_eq, hall.length_eq]
      refine (ih _ hall).bind fun below below' hbelow => ?_
      cases hbelow with
      | none => exact Task.related_pure .none
      | some hlevels =>
          obtain ⟨hcomplete, hnumbers⟩ := hlevels
          exact Task.related_pure (.some ⟨hcomplete, congrArg (_ :: ·) hnumbers⟩)

/-- What is loaded alike is assembled alike. -/
theorem assembleLoaded_related (level : List Nat)
    {loaded loaded' : Option (List LoadedNode × List (List Nat))}
    (hloaded : Option.Rel LevelsAlike loaded loaded') :
    Task.Related (Option.Rel (List.Forall₂ Entity.Alike))
      (Task.assembleLoaded registry level loaded) (Task.assembleLoaded registry level loaded') := by
  cases hloaded with
  | none => exact Task.related_pure .none
  | @some levels levels' hlevels =>
      obtain ⟨all, below⟩ := levels
      obtain ⟨all', below'⟩ := levels'
      obtain ⟨hall, hbelow⟩ := hlevels
      obtain rfl : below = below' := hbelow
      exact (Task.related_ofResult (assemble_related registry hall (level :: below))).bind
        fun _ _ hcomplete => Task.related_pure (.some hcomplete)

/-- A load goes on alike after answers that are alike. -/
theorem load_related (budget : Nat) (root : EntityType) (constraints : Constraints)
    (withChildren : Bool) : Task.Related (Option.Rel (List.Forall₂ Entity.Alike))
      (load registry dialect budget root constraints withChildren)
      (load registry dialect budget root constraints withChildren) := by
  refine Task.related_ofResult_bind (registry.mappingById root.id) fun mapping => ?_
  have hquery : ((rootQuery mapping constraints).build dialect).Alike
      ((rootQuery mapping constraints).build dialect) :=
    ⟨rfl, List.forall₂_same.2 fun value _ => .refl value⟩
  refine (Task.related_queryRows mapping.type hquery).bind fun rows rows' hrows => ?_
  refine (Task.related_ofResult (Related.mapM hrows fun _ _ hrow =>
    mapping.hydrate_related hrow)).bind fun roots roots' hroots => ?_
  have hnodes : List.Forall₂ LoadedNode.Alike (roots.map LoadedNode.root)
      (roots'.map LoadedNode.root) :=
    List.rel_map (fun _ _ he => ⟨.some he, rfl, rfl⟩) hroots
  dsimp only
  rw [hroots.length_eq]
  split
  · exact (loadBelow_related budget _ hnodes).bind fun _ _ => assembleLoaded_related _
  · exact (Task.related_pure (.some ⟨hnodes, rfl⟩)).bind fun _ _ => assembleLoaded_related _

end Loads

/-- Two databases that answer alike whatever they are asked by a load, so that the values of their
rows are of one key form, are sent the same queries with parameters of one key form.  Both loads
give entities of one shape, all of whose fields are of one key form, or they end in the same
way. -/
theorem load_ignores_widths (registry : Registry) (dialect : Dialect) (budget : Nat)
    (root : EntityType) (constraints : Constraints) (withChildren : Bool) {ω ω' : Type}
    (environment : Environment ω) (environment' : Environment ω') (world : ω) (world' : ω')
    (hanswers : AnsweredAlike environment environment'
      ((load registry dialect budget root constraints withChildren).steps environment () world)
      ((load registry dialect budget root constraints withChildren).steps environment' ()
        world')) :
    let execution := (load registry dialect budget root constraints withChildren).execution
      environment () world
    let execution' := (load registry dialect budget root constraints withChildren).execution
      environment' () world'
    List.Forall₂ Request.Alike execution.requests execution'.requests ∧
      Outcome.Related (Option.Rel (List.Forall₂ Entity.Alike)) execution.outcome
        execution'.outcome :=
  (load_related budget root constraints withChildren).execution hanswers

namespace Shipping

/-- The rows of `stocked` as a driver with narrower integers reads them. -/
def narrowed : Script :=
  { stocked with
    queries := [⟨.ok [⟨["id"], [.int 1]⟩, ⟨["id"], [.smallInt 2]⟩], none⟩,
      ⟨.ok [⟨["id", "parent_id"], [.int 2, .tinyInt 1]⟩,
        ⟨["id", "parent_id"], [.bigInt 3, .int 2]⟩,
        ⟨["id", "parent_id"], [.tinyInt 1, .bigInt 1]⟩], none⟩,
      ⟨.ok [⟨["id", "parent_id"], [.smallInt 1, .int 1]⟩], none⟩] }

end Shipping

/-- Orders, parcels and an item are loaded alike from narrower integers. -/
theorem narrowed_loads_alike :
    let task := load Shipping.registry .sqlite 4 Shipping.order .none true
    let execution := task.execution Script.environment () Shipping.stocked
    let execution' := task.execution Script.environment () Shipping.narrowed
    AnsweredAlike Script.environment Script.environment
        (task.steps Script.environment () Shipping.stocked)
        (task.steps Script.environment () Shipping.narrowed) ∧
      execution.requests.length = 3 ∧
      execution.outcome = .ok (some Shipping.stockedTrees) ∧
      List.Forall₂ Request.Alike execution.requests execution'.requests ∧
      Outcome.Related (Option.Rel (List.Forall₂ Entity.Alike)) execution.outcome
        execution'.outcome := by
  intro task execution execution'
  have hanswers : AnsweredAlike Script.environment Script.environment
      (task.steps Script.environment () Shipping.stocked)
      (task.steps Script.environment () Shipping.narrowed) := by
    intro index step step' hstep hstep' rows rows' hrows hrows'
    match index with
    | 0 | 1 | 2 =>
        cases hstep
        cases hstep'
        cases hrows
        cases hrows'
        exact .rows (by repeat' constructor)
    | _ + 3 => cases hstep
  exact ⟨hanswers, rfl, rfl, load_ignores_widths Shipping.registry .sqlite 4 Shipping.order .none
    true Script.environment Script.environment Shipping.stocked Shipping.narrowed hanswers⟩

end AggregateSync
