import AggregateSync.Proofs.Database.Query
import AggregateSync.Proofs.Session.Levels
import AggregateSync.Proofs.Session.Width
import Mathlib.Data.List.Chain
import Mathlib.Logic.Relation

/-!
# From stored rows to stored rows

A load descends from stored rows to those that refer to them.  Every entity of a level was read
from a row that a row of the level above leads to, so a load that has taken some levels has
followed a chain of as many rows.
-/

open Relation (TransGen)

namespace AggregateSync

/-- A stored row, read as an entity of a class. -/
abbrev TypedRecord := ClassMapping × Record

/-- The entity was read from the row, whatever the widths of its integers. -/
def Entity.IsReadFrom (e : Entity) (source : TypedRecord) : Prop :=
  ∃ shown, source.1.hydrateRecord source.2 = .ok shown ∧ shown.Alike e

namespace Database

/-- The class is mapped and the row is stored. -/
structure Holds (database : Database) (registry : Registry) (source : TypedRecord) : Prop where
  mapped : registry.find? source.1.type.id = some source.1
  stored : source.2 ∈ database.records

/-- A row leads to those that refer to it: through a relation of its class, for the class of
children that it selects, to the rows of their table that carry its value in the column of a
foreign key for that class, and the constant of the subset. -/
inductive Leads (database : Database) (registry : Registry) :
    TypedRecord → TypedRecord → Prop
  | through {mapping child : ClassMapping} {record other : Record} {e : Entity}
      {relation : Relation} {selected target : Target} {foreignKey : ForeignKey}
      {referenced : Property}
      (hfrom : database.Holds registry (mapping, record))
      (hto : database.Holds registry (child, other))
      (hread : mapping.hydrateRecord record = .ok e)
      (hrelation : relation ∈ mapping.relations)
      (hselected : relation.targetOf? mapping e = some selected)
      (htarget : target ∈ relation.targets)
      (hsame : Relation.sameChild selected target = true)
      (hkey : target.foreignKey = some foreignKey)
      (hreferenced : mapping.property? foreignKey.referenced = some referenced)
      (hchild : registry.find? target.type.id = some child)
      (htable : other.table = child.table)
      (hgiven : (e.read referenced.field).isNull = false)
      (hrefers : (e.read referenced.field).sameEntry (other.cell foreignKey.column) = true)
      (hsubset : ∀ subset ∈ relation.subset,
        database.compare .eq (other.cell subset.column) subset.value = .yes) :
      Leads database registry (mapping, record) (child, other)

theorem Leads.holds {database : Database} {registry : Registry} {source next : TypedRecord}
    (hleads : database.Leads registry source next) : database.Holds registry next := by
  cases hleads
  assumption

end Database

/-- A chain on which nothing leads back to itself is not longer than a list of all places that it
may visit. -/
theorem length_le_of_isChain {α : Type} {R : α → α → Prop} {chain places : List α}
    (hchain : chain.IsChain R) (hplaces : chain ⊆ places)
    (hacyclic : ∀ place ∈ chain, ¬ TransGen R place place) : chain.length ≤ places.length := by
  have hlater : chain.Pairwise (TransGen R) := (hchain.imp fun _ _ => .single).pairwise
  have hnodup : chain.Nodup := by
    refine hlater.imp_of_mem fun {place other} hplace _ hleads => ?_
    rintro rfl
    exact hacyclic place hplace hleads
  exact (hnodup.subperm hplaces).length_le

/-! ## What is answered -/

/-- The queries for children that the relations of a registry allow. -/
inductive Registry.AsksFor (registry : Registry) : Select → Prop
  | children {mapping child : ClassMapping} {relation : Relation} {target : Target}
      {foreignKey : ForeignKey} (hmapping : mapping ∈ registry.mappings)
      (hrelation : relation ∈ mapping.relations) (htarget : target ∈ relation.targets)
      (hkey : target.foreignKey = some foreignKey)
      (hchild : registry.find? target.type.id = some child) (values : List Value) :
      AsksFor registry (childQuery relation foreignKey child values)

variable {ω : Type} {environment : Environment ω} {registry : Registry} {dialect : Dialect}
  {database : Database}

/-- If a step asks for children and rows are answered, these are the rows of the database. -/
def Step.IsServed (step : Step ω) (environment : Environment ω) (database : Database)
    (registry : Registry) (dialect : Dialect) : Prop :=
  ∀ select, registry.AsksFor select →
    step.request = .query .connection (select.build dialect) →
    ∀ rows, step.rows? environment = some (.ok rows) → database.Shows select rows

theorem Answers.replay_append {world after : ω} {exchanges : List (Statement × List Row)}
    (hanswers : Answers environment world exchanges after) (others : List Request) :
    environment.replay (queries exchanges ++ others) world =
      environment.replay (queries exchanges) world ++ environment.replay others after := by
  induction hanswers with
  | none => rfl
  | next hanswer _ ih =>
      simp only [queries, List.map_cons, List.cons_append, Environment.replay, hanswer] at ih ⊢
      rw [ih]

/-- Every exchange is a step. -/
theorem Answers.exists_step {world after : ω} {exchanges : List (Statement × List Row)}
    (hanswers : Answers environment world exchanges after) {exchange : Statement × List Row}
    (hexchange : exchange ∈ exchanges) :
    ∃ step ∈ environment.replay (queries exchanges) world,
      step.request = .query .connection exchange.1 ∧
      step.rows? environment = some (.ok exchange.2) := by
  induction hanswers with
  | none => cases hexchange
  | @next statement rows world between _ rest hanswer _ ih =>
      rcases List.mem_cons.1 hexchange with rfl | hrest
      · refine ⟨⟨.query .connection statement, world⟩, List.mem_cons_self, rfl, ?_⟩
        exact congrArg (fun answer => some answer.1) hanswer
      · obtain ⟨step, hstep, hfound⟩ := ih hrest
        refine ⟨step, List.mem_cons_of_mem _ ?_, hfound⟩
        rwa [hanswer]

/-! ## One level -/

theorem Fetch.foreignKeyOf_row {fetch : Fetch} {record : Record} {columns : List String}
    (hcolumn : fetch.foreignKeyColumn ∈ columns) :
    fetch.foreignKeyOf (record.row columns) = record.cell fetch.foreignKeyColumn := by
  rw [foreignKeyOf, record.value?_row hcolumn, Option.getD_some]

theorem foreignKey_mem_columns (relation : Relation) (foreignKey : ForeignKey)
    (child : ClassMapping) (values : List Value) :
    foreignKey.column ∈ (childQuery relation foreignKey child values).columns ∧
      child.columns.map Property.column ⊆
        (childQuery relation foreignKey child values).columns := by
  rw [childQuery_eq]
  dsimp only
  split
  case isTrue hown => exact ⟨List.contains_iff_mem.1 hown, List.Subset.refl _⟩
  case isFalse => exact ⟨by simp, List.subset_append_left _ _⟩

section Levels

variable {roots : List Entity} {deliveries here : List Delivery} {nodes all : List LoadedNode}
  {above : List (List Nat)} {level : List Nat} {sources : Set TypedRecord}

/-- The entities of a level were read from some stored rows. -/
structure ComeFrom (registry : Registry) (database : Database) (nodes : List LoadedNode)
    (level : List Nat) (sources : Set TypedRecord) : Prop where
  held : ∀ source ∈ sources, database.Holds registry source
  read : ∀ number ∈ level, ∃ source ∈ sources, (loadedEntity nodes number).IsReadFrom source

/-- The rows that rows of a set lead to. -/
def Database.next (database : Database) (registry : Registry) (sources : Set TypedRecord) :
    Set TypedRecord :=
  {next | ∃ source ∈ sources, database.Leads registry source next}

/-- A stored row that a query selects, and that refers to the parent which the query gives a row to,
is one that rows of the level lead to. -/
theorem ComeFrom.mem_next {fetch : Fetch} {demand : Demand} {foreignKey : ForeignKey}
    {referenced : Property} {child : ClassMapping} {row : Row} {e : Entity} {values : List Value}
    {record : Record} {parent : Nat × Entity}
    (hsources : ComeFrom registry database nodes level sources)
    (hdemand : demand ∈ registry.demands (standing nodes level))
    (hgives : fetch.Gives registry dialect demand foreignKey child referenced row parent e)
    (hstored : record ∈ database.records)
    (hselects : database.selects (childQuery demand.relation foreignKey child values) record = true)
    (hrefers : (parent.2.read referenced.field).sameEntry (record.cell foreignKey.column) = true) :
    (child, record) ∈ database.next registry sources := by
  obtain ⟨hmapping, hindex, htarget, hparents⟩ := Registry.of_mem_demands hdemand
  obtain ⟨htable, _, hsubset⟩ := Database.selects_childQuery.1 hselects
  obtain ⟨hmember, hclass, selected, hselected, hsame⟩ := hparents _ hgives.concerned
  obtain ⟨number, hnumber, rfl⟩ := List.mem_map.1 hmember
  obtain ⟨⟨mapping, source⟩, hsource, origin, horigin, hcame⟩ := hsources.read number hnumber
  obtain rfl : mapping = demand.mapping := by
    have hmapped := (hsources.held _ hsource).mapped
    rw [← hcame.type_eq, ClassMapping.type_of_hydrate horigin, EntityType.same, beq_iff_eq]
      at hclass
    rw [hclass, hmapping] at hmapped
    exact (Option.some.inj hmapped).symm
  have hform := hcame.read referenced.field
  have hchild := hgives.childMapped
  refine ⟨_, hsource, .through (hsources.held _ hsource)
    ⟨Registry.same_of_find? hchild ▸ hchild, hstored⟩ horigin (List.mem_of_getElem? hindex) ?_
    htarget hsame hgives.key hgives.declared hchild htable ?_ ?_ hsubset⟩
  · rw [demand.relation.targetOf?_congr _ hcame, hselected]
  · rw [hform.isNull_eq, hgives.present]
  · rw [hform.sameEntry_eq (.refl _), hrefers]

/-- What is delivered to a level was read from rows that rows of the level lead to. -/
theorem exists_next_of_delivered
    (hsources : ComeFrom registry database nodes level sources)
    (hplan : planLevel registry dialect (standing nodes level) = .ok (here.map Delivery.fetch))
    {delivery : Delivery} (hdelivery : delivery ∈ here)
    (hrouted : routeRows registry delivery.fetch delivery.rows = .ok delivery.nodes)
    (hshows : ∀ select, registry.AsksFor select →
      delivery.fetch.statement = select.build dialect → database.Shows select delivery.rows)
    {node : LoadedNode} (hnode : node ∈ delivery.nodes) :
    ∃ e, node.entity = some e ∧ ∃ next ∈ database.next registry sources, e.IsReadFrom next := by
  have hfetch : delivery.fetch ∈ here.map Delivery.fetch := List.mem_map_of_mem hdelivery
  obtain ⟨demand, hdemand, hmeets⟩ := exists_item_of_forall₂ (planLevel_areMetBy hplan).met hfetch
  have hraised := (List.mem_filter.1 hdemand).1
  obtain ⟨hmapping, hindex, htarget, _⟩ := Registry.of_mem_demands hraised
  obtain ⟨foreignKey, child, referenced, row, parent, e, hrow, rfl, hgives⟩ :=
    hmeets.exists_gives hrouted hnode
  -- the row shows a stored row that the query selects
  have hasks := Registry.AsksFor.children (List.mem_of_find?_eq_some hmapping)
    (List.mem_of_getElem? hindex) htarget hgives.key hgives.childMapped
    (firsts Value.sameEntry demand.values)
  obtain ⟨record, hstored, hselects, halike⟩ :=
    (hshows _ hasks hgives.statement).exists_record hrow
  obtain ⟨hkeyColumn, hcolumns⟩ := foreignKey_mem_columns demand.relation foreignKey child
    (firsts Value.sameEntry demand.values)
  have hhydrated := child.hydrate_related halike
  rw [child.hydrate_row hcolumns, hgives.read] at hhydrated
  obtain ⟨shown, hshown, hlike⟩ := hhydrated.exists_ok
  have hform := delivery.fetch.foreignKeyOf_sameForm halike
  rw [Fetch.foreignKeyOf_row (hgives.column ▸ hkeyColumn), hgives.column] at hform
  refine ⟨e, rfl, (child, record), ?_, shown, hshown, hlike⟩
  refine hsources.mem_next hraised hgives hstored hselects ?_
  rw [Value.SameForm.sameEntry_eq (.refl _) hform, hgives.refers]

/-- A level that is loaded was read from rows that rows of the level above lead to. -/
theorem ComeFrom.next_of_loadLevel {world : ω}
    (hsources : ComeFrom registry database nodes level sources)
    (hgathered : IsGathered registry roots deliveries nodes (above ++ [level]))
    (hall : ((Task.loadLevel registry dialect nodes level).execution environment ()
      world).outcome = .ok (some all))
    (hserved : ∀ step ∈ (Task.loadLevel registry dialect nodes level).steps environment () world,
      step.IsServed environment database registry dialect) :
    (∃ further, IsGathered registry roots further all (above ++ [level] ++ [nextLevel nodes all])) ∧
      ComeFrom registry database all (nextLevel nodes all) (database.next registry sources) := by
  obtain ⟨parents, here, hparents, hplan, hrouted, rfl, hanswers, hrequests⟩ :=
    Task.loadLevel_eq_ok hall
  rw [Task.steps_eq_replay, hrequests] at hserved
  obtain rfl := Except.ok.inj (hgathered.numbered_eq.symm.trans hparents)
  have hnext : nextLevel nodes (nodes ++ here.flatMap Delivery.nodes) =
      List.range' nodes.length (here.flatMap Delivery.nodes).length := by
    rw [nextLevel, List.length_append, Nat.add_sub_cancel_left]
  rw [hnext]
  refine ⟨⟨_, hgathered.extend hplan rfl hrouted⟩, ?_, fun number hnumber => ?_⟩
  · rintro next ⟨_, _, hleads⟩
    exact hleads.holds
  · obtain ⟨hlower, hupper⟩ := List.mem_range'_1.1 hnumber
    have hbound : number - nodes.length < (here.flatMap Delivery.nodes).length := by omega
    have hnode : (nodes ++ here.flatMap Delivery.nodes)[number]? =
        some (here.flatMap Delivery.nodes)[number - nodes.length] := by
      rw [List.getElem?_append_right hlower, List.getElem?_eq_getElem hbound]
    obtain ⟨delivery, hdelivery, hmember⟩ := List.mem_flatMap.1 (List.getElem_mem hbound)
    obtain ⟨step, hstep, hrequest, hrows⟩ :=
      hanswers.exists_step (List.mem_map_of_mem (f := Delivery.exchange) hdelivery)
    obtain ⟨e, he, hfrom⟩ := exists_next_of_delivered hsources hplan hdelivery
      (hrouted delivery hdelivery) (fun select hasks hstatement =>
        hserved step hstep select hasks (by rw [hrequest, ← hstatement]; rfl) _ hrows) hmember
    rwa [loadedEntity_eq hnode he]

/-- A load that runs out of levels has followed a chain of rows from one of the first level. -/
theorem ComeFrom.exists_chain {budget : Nat} {world : ω}
    (hsources : ComeFrom registry database nodes level sources)
    (hgathered : IsGathered registry roots deliveries nodes (above ++ [level]))
    (hserved : ∀ step ∈ (Task.loadBelow registry dialect budget nodes level).steps environment ()
      world, step.IsServed environment database registry dialect)
    (hnone : ((Task.loadBelow registry dialect budget nodes level).execution environment ()
      world).outcome = .ok none) :
    ∃ source ∈ sources, ∃ chain : List TypedRecord, chain.length = budget ∧
      (source :: chain).IsChain (database.Leads registry) := by
  have hlevel := Task.ne_nil_of_loadBelow hnone
  induction budget generalizing deliveries nodes above level sources world with
  | zero =>
      obtain ⟨number, hnumber⟩ := List.exists_mem_of_ne_nil level hlevel
      obtain ⟨source, hsource, _⟩ := hsources.read number hnumber
      exact ⟨source, hsource, [], rfl, .singleton source⟩
  | succ budget ih =>
      rw [Task.execution_loadBelow_succ _ hlevel, Task.execution_bind] at hnone
      obtain ⟨all?, hall, hbelow⟩ := Execution.outcome_andThen_eq_ok.1 hnone
      cases all? with
      | none => cases hbelow
      | some all =>
          rw [Task.loadFurther_eq_none] at hbelow
          obtain ⟨_, here, _, _, _, _, hanswers, hrequests⟩ := Task.loadLevel_eq_ok hall
          rw [Task.steps_eq_replay, Task.execution_loadBelow_succ _ hlevel, Task.execution_bind,
            Execution.requests_andThen_ok hall, Task.requests_loadFurther, hrequests,
            hanswers.replay_append, List.forall_mem_append, ← hrequests, ← Task.steps_eq_replay,
            ← Task.steps_eq_replay] at hserved
          obtain ⟨⟨further, hfurther⟩, hnext⟩ :=
            hsources.next_of_loadLevel hgathered hall hserved.1
          obtain ⟨next, ⟨source, hsource, hleads⟩, chain, hlength, hchain⟩ :=
            ih hnext hfurther hserved.2 hbelow (Task.ne_nil_of_loadBelow hbelow)
          exact ⟨source, hsource, next :: chain, by rw [List.length_cons, hlength],
            .cons_cons hleads hchain⟩

end Levels

end AggregateSync
