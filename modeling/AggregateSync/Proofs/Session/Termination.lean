import AggregateSync.Connection.Script
import AggregateSync.Proofs.Graph.Lineage
import AggregateSync.Proofs.Session.Descent
import Mathlib.Data.List.ProdSigma

/-!
# When loads end

A load keeps no account of the rows that it has read.  It ends, within as many levels as there
are classes and rows to read them from, where no row that it reaches leads back to itself.  A
row that refers to itself is read level after level.
-/

open Relation (TransGen ReflTransGen)

namespace AggregateSync

section Loads

variable {ω : Type} {environment : Environment ω} {registry : Registry} {dialect : Dialect}
  {root : EntityType} {constraints : Constraints} {database : Database}

namespace Database

/-- The steps of a load are answered from the database: the first one, which asks for the roots,
and all others, which ask for children. -/
structure Serves (database : Database) (environment : Environment ω) (registry : Registry)
    (dialect : Dialect) (root : EntityType) (constraints : Constraints)
    (steps : List (Step ω)) : Prop where
  roots : ∀ step ∈ steps.head?, ∀ mapping, registry.find? root.id = some mapping →
    ∀ rows, step.rows? environment = some (.ok rows) →
      database.Shows (rootQuery mapping constraints) rows
  children : ∀ step ∈ steps.tail, step.IsServed environment database registry dialect

/-- The rows that the query for the roots selects. -/
def starts (database : Database) (registry : Registry) (root : EntityType)
    (constraints : Constraints) : Set TypedRecord :=
  {source | registry.find? root.id = some source.1 ∧ source.2 ∈ database.records ∧
    database.selects (rootQuery source.1 constraints) source.2 = true}

/-- The row is selected as a root, or rows lead to it from one that is. -/
def Reaches (database : Database) (registry : Registry) (root : EntityType)
    (constraints : Constraints) (source : TypedRecord) : Prop :=
  ∃ start ∈ database.starts registry root constraints,
    ReflTransGen (database.Leads registry) start source

/-- How many rows there are to be read as entities of some class. -/
def levelBound (database : Database) (registry : Registry) : Nat :=
  registry.mappings.length * database.records.length

theorem columns_rootQuery (mapping : ClassMapping) (constraints : Constraints) :
    (rootQuery mapping constraints).columns = mapping.columns.map Property.column := by
  rw [rootQuery, Select.constrain]
  cases constraints.filter <;> rfl

/-- Roots were read from rows that the query for them selects. -/
theorem Shows.comeFrom {mapping : ClassMapping} {rows : List Row} {roots : List Entity}
    (hshows : database.Shows (rootQuery mapping constraints) rows)
    (hmapping : registry.find? root.id = some mapping)
    (hroots : rows.mapM mapping.hydrate = .ok roots) :
    ComeFrom registry database (roots.map LoadedNode.root) (List.range roots.length)
      (database.starts registry root constraints) := by
  constructor
  · rintro source ⟨hfind, hstored, _⟩
    exact ⟨Registry.same_of_find? hfind ▸ hfind, hstored⟩
  · intro number hnumber
    rw [List.mem_range] at hnumber
    obtain ⟨row, hrow, hread⟩ := exists_item_of_forall₂ (Result.mapM_eq_ok.1 hroots)
      (List.getElem_mem hnumber)
    obtain ⟨record, hstored, hselects, halike⟩ := hshows.exists_record hrow
    have hhydrated := mapping.hydrate_related halike
    rw [columns_rootQuery, mapping.hydrate_row (List.Subset.refl _), hread] at hhydrated
    obtain ⟨shown, hshown, hlike⟩ := hhydrated.exists_ok
    have hnode : (roots.map LoadedNode.root)[number]? = some (LoadedNode.root roots[number]) := by
      rw [List.getElem?_map, List.getElem?_eq_getElem hnumber, Option.map_some]
    rw [loadedEntity_eq hnode rfl]
    exact ⟨(mapping, record), ⟨hmapping, hstored, hselects⟩, shown, hshown, hlike⟩

/-- A chain of rows from the roots is bounded where no row leads back to itself. -/
theorem length_chain_le {start : TypedRecord} {chain : List TypedRecord}
    (hacyclic : ∀ source, database.Reaches registry root constraints source →
      ¬ TransGen (database.Leads registry) source source)
    (hstart : start ∈ database.starts registry root constraints)
    (hchain : (start :: chain).IsChain (database.Leads registry)) :
    (start :: chain).length ≤ database.levelBound registry := by
  have hled : ∀ source ∈ chain, TransGen (database.Leads registry) start source :=
    (List.pairwise_cons.1 (hchain.imp fun _ _ => TransGen.single).pairwise).1
  have hplaces : start :: chain ⊆ registry.mappings ×ˢ database.records := by
    refine List.cons_subset.2 ⟨?_, fun source hsource => ?_⟩
    · exact List.mem_product.2 ⟨List.mem_of_find?_eq_some hstart.1, hstart.2.1⟩
    · obtain ⟨_, _, hleads⟩ := TransGen.tail'_iff.1 (hled source hsource)
      exact List.mem_product.2
        ⟨List.mem_of_find?_eq_some hleads.holds.mapped, hleads.holds.stored⟩
  rw [levelBound, ← List.length_product]
  refine length_le_of_isChain hchain hplaces fun source hsource =>
    hacyclic source ⟨start, hstart, ?_⟩
  rcases List.mem_cons.1 hsource with rfl | hlater
  · exact .refl
  · exact (hled source hlater).to_reflTransGen

end Database

/-- The first step of a load asks for the roots, and the others are those below them. -/
theorem Task.steps_load {budget : Nat} {world : ω} {roots : List Entity}
    (hroots : ((loadRoots registry dialect root constraints).execution environment ()
      world).outcome = .ok roots) :
    ∃ mapping rows, registry.find? root.id = some mapping ∧ rows.mapM mapping.hydrate = .ok roots ∧
      ∃ first : Step ω, first.rows? environment = some (.ok rows) ∧
        (load registry dialect budget root constraints true).steps environment () world =
          first :: (loadBelow registry dialect budget (roots.map LoadedNode.root)
            (List.range roots.length)).steps environment ()
              ((loadRoots registry dialect root constraints).execution environment ()
                world).world := by
  obtain ⟨mapping, rows, hmapping, hread, hanswer, hrequests⟩ := loadRoots_eq_ok hroots
  refine ⟨mapping, rows, hmapping, hread,
    ⟨.query .connection ((rootQuery mapping constraints).build dialect), world⟩, ?_, ?_⟩
  · exact congrArg (fun answer => some answer.1) hanswer
  · rw [steps_eq_replay, requests_load hroots, hrequests, List.singleton_append,
      Environment.replay, hanswer, ← steps_eq_replay]

end Loads

/-- A load whose queries are answered from a database, where no row that it reaches leads back to
itself, ends within as many levels as there are classes and rows to read them from, so that
further levels change nothing; and the queries of a level are bounded by the registry alone. -/
theorem load_ends (registry : Registry) (dialect : Dialect) (root : EntityType)
    (constraints : Constraints) (database : Database) {ω : Type} (environment : Environment ω)
    (world : ω)
    (hserves : database.Serves environment registry dialect root constraints
      ((load registry dialect (database.levelBound registry) root constraints true).steps
        environment () world))
    (hacyclic : ∀ source, database.Reaches registry root constraints source →
      ¬ TransGen (database.Leads registry) source source) :
    let execution budget :=
      (load registry dialect budget root constraints true).execution environment () world
    let bound := database.levelBound registry
    (execution bound).outcome ≠ .ok none ∧
      (execution bound).requests.length ≤ 1 + bound * registry.targetCount ∧
      ∀ budget, bound ≤ budget → execution budget = execution bound := by
  intro execution bound
  have hends : (execution bound).outcome ≠ .ok none := by
    intro hnone
    obtain ⟨roots, hroots, hbelow⟩ := Task.load_eq_none.1 hnone
    obtain ⟨mapping, rows, hmapping, hread, first, hrows, hsteps⟩ := Task.steps_load hroots
    obtain ⟨hfirst, hlater⟩ := hserves
    rw [hsteps] at hfirst hlater
    have hshows := hfirst first rfl mapping hmapping rows hrows
    have hgathered : IsGathered registry roots [] (roots.map LoadedNode.root)
        ([] ++ [List.range roots.length]) := isGathered_roots registry roots
    obtain ⟨start, hstart, chain, hlength, hchain⟩ :=
      (hshows.comeFrom hmapping hread).exists_chain hgathered hlater hbelow
    have hbound := Database.length_chain_le hacyclic hstart hchain
    rw [List.length_cons, hlength] at hbound
    exact Nat.not_succ_le_self _ hbound
  exact ⟨hends, Task.length_requests_load _ world, fun budget hbudget =>
    Task.execution_load_of_le hbudget hends⟩

/-! ## Crates that are stored -/

namespace Stacking

/-- The row of a crate that lies in another one. -/
def crateRecord (id parent : Int64) : Record :=
  .ofEntries "crates" [("id", .bigInt id), ("parent_id", .bigInt parent)]

def crateRow (id parent : Int64) : Row := ⟨["id", "parent_id"], [.bigInt id, .bigInt parent]⟩

/-- A database with some crates, which compares values as keys and nothing with NULL. -/
def holding (records : List Record) : Database := ⟨.byKeyForm, records⟩

/-- The query for the crates in some others. -/
def innerQuery (values : List Value) : Select :=
  childQuery ⟨"crates", crate, 0, .many crate (some Shipping.parentKey), none, []⟩
    Shipping.parentKey crates values

/-- Queries for children ask for the crates in some others. -/
theorem eq_innerQuery {select : Select} (hasks : registry.AsksFor select) :
    ∃ values, select = innerQuery values := by
  obtain @⟨mapping, child, relation, target, foreignKey, hmapping, hrelation, htarget, hkey,
    hchild, values⟩ := hasks
  obtain rfl : mapping = crates := List.mem_singleton.1 hmapping
  obtain rfl := List.mem_singleton.1 hrelation
  obtain rfl := List.mem_singleton.1 htarget
  cases hkey
  cases hchild
  exact ⟨values, rfl⟩

/-- Which crates a query selects depends on the values that it binds. -/
theorem filter_innerQuery (records : List Record) (values : List Value)
    (htable : ∀ record ∈ records, record.table = "crates") :
    records.filter ((holding records).selects (innerQuery values)) =
      records.filter fun record => (values.filter Value.isBound).any fun value =>
        (holding records).compare .eq (record.cell "parent_id") value = .yes := by
  refine List.filter_congr fun record hrecord => Bool.eq_iff_iff.2 ?_
  rw [innerQuery, Database.selects_childQuery, List.any_eq_true]
  constructor
  · rintro ⟨_, ⟨value, hvalue, hequal⟩, _⟩
    refine ⟨value, List.mem_filter.2 ⟨hvalue, ?_⟩, decide_eq_true hequal⟩
    by_contra hdefault
    rw [Bool.not_eq_true] at hdefault
    simp [holding, Engine.byKeyForm, hdefault] at hequal
  · rintro ⟨value, hvalue, hequal⟩
    exact ⟨htable record hrecord, ⟨value, (List.mem_filter.1 hvalue).1, of_decide_eq_true hequal⟩,
      by rintro _ ⟨⟩⟩

/-- Rows answer a query for crates if they show those that lie in one of the bound values. -/
theorem shows_innerQuery {records chosen : List Record} {values bound : List Value}
    {rows : List Row} (hbound : ((innerQuery values).build .sqlite).params = bound)
    (htable : ∀ record ∈ records, record.table = "crates")
    (hchosen : (records.filter fun record => bound.any fun value =>
      (holding records).compare .eq (record.cell "parent_id") value = .yes) = chosen)
    (hrows : List.Forall₂ (fun record row => (record.row ["id", "parent_id"]).Alike row) chosen
      rows) : (holding records).Shows (innerQuery values) rows := by
  simp only [innerQuery, params_childQuery, Relation.subsetValues, Option.toList_none,
    List.map_nil, List.append_nil] at hbound
  have hselected := filter_innerQuery records values htable
  rw [hbound, hchosen] at hselected
  refine ⟨chosen, ?_, ?_, fun _ _ => ?_⟩
  · rwa [innerQuery, childQuery_eq]
  · exact hselected ▸ List.Subperm.refl _
  · exact hselected ▸ List.Perm.refl _

/-- A step is served if its answer shows the crates in the values that it binds. -/
theorem isServed_of_params {ω : Type} {environment : Environment ω} {step : Step ω}
    {statement : Statement} {records chosen : List Record} {rows : List Row}
    (hrequest : step.request = .query .connection statement)
    (hanswer : step.rows? environment = some (.ok rows))
    (htable : ∀ record ∈ records, record.table = "crates")
    (hchosen : (records.filter fun record => statement.params.any fun value =>
      (holding records).compare .eq (record.cell "parent_id") value = .yes) = chosen)
    (hrows : List.Forall₂ (fun record row => (record.row ["id", "parent_id"]).Alike row) chosen
      rows) : step.IsServed environment (holding records) registry .sqlite := by
  intro select hasks hselect others hothers
  obtain ⟨values, rfl⟩ := eq_innerQuery hasks
  obtain rfl := Outcome.ok.inj (Option.some.inj (hanswer.symm.trans hothers))
  have hstatement := (Request.query.inj (hrequest.symm.trans hselect)).2
  exact shows_innerQuery (congrArg Statement.params hstatement.symm) htable hchosen hrows

/-- A crate that lies in another one. -/
def twoCrates : Database := holding [crateRecord 1 0, crateRecord 2 1]

/-- What is read of the two crates. -/
def twoRead : Script where
  queries := [⟨.ok [crateRow 1 0, crateRow 2 1], none⟩, ⟨.ok [crateRow 2 1], none⟩,
    ⟨.ok [], none⟩]
  writes := []
  begin := .ok ()
  commit := .ok ()
  rollback := .ok ()
  cancelled := none
  written := 0
  calls := []

theorem twoRead_serves : twoCrates.Serves Script.environment registry .sqlite crate .none
    ((load registry .sqlite 2 crate .none true).steps Script.environment () twoRead) := by
  have htable : ∀ record ∈ twoCrates.records, record.table = "crates" := by
    simp [twoCrates, holding, crateRecord, Record.ofEntries]
  constructor
  case roots =>
    intro step hstep mapping hmapping rows hrows
    cases hstep
    cases hmapping
    cases hrows
    refine ⟨twoCrates.records, ?_, ?_, fun _ _ => ?_⟩
    · exact .cons (.refl _) (.cons (.refl _) .nil)
    · exact List.Subperm.refl _
    · exact List.Perm.refl _
  case children =>
    intro step hstep
    obtain ⟨index, hstep⟩ := List.mem_iff_getElem?.1 hstep
    match index with
    | 0 =>
      cases hstep
      exact isServed_of_params rfl rfl htable rfl (.cons (.refl _) .nil)
    | 1 =>
      cases hstep
      exact isServed_of_params rfl rfl htable rfl .nil
    | _ + 2 => cases hstep

/-- The outer crate leads to the inner one and to nothing else. -/
theorem leads_inward {source next : TypedRecord} (hleads : twoCrates.Leads registry source next) :
    source.2.cell "id" = .bigInt 1 ∧ next.2.cell "id" = .bigInt 2 := by
  obtain @⟨mapping, child, record, other, e, relation, selected, target, foreignKey, referenced,
    hfrom, hto, hread, hrelation, _, htarget, _, hkey, hreferenced, _, _, _, hrefers, _⟩ := hleads
  obtain rfl : mapping = crates := List.mem_singleton.1 (List.mem_of_find?_eq_some hfrom.mapped)
  obtain rfl := List.mem_singleton.1 hrelation
  obtain rfl := List.mem_singleton.1 htarget
  cases hkey
  cases hreferenced
  have hstored : record = crateRecord 1 0 ∨ record = crateRecord 2 1 := by
    simpa [twoCrates, holding] using hfrom.stored
  have hother : other = crateRecord 1 0 ∨ other = crateRecord 2 1 := by
    simpa [twoCrates, holding] using hto.stored
  obtain rfl | rfl := hstored <;> obtain rfl | rfl := hother <;> cases hread
  · exact absurd hrefers (by decide)
  · exact ⟨rfl, rfl⟩
  · exact absurd hrefers (by decide)
  · exact absurd hrefers (by decide)

end Stacking

/-- Two crates, one in the other, are loaded with two levels. -/
theorem two_crates_end :
    let execution budget := (load Stacking.registry .sqlite budget Stacking.crate .none
      true).execution Script.environment () Stacking.twoRead
    Stacking.twoCrates.levelBound Stacking.registry = 2 ∧
      Stacking.twoCrates.Serves Script.environment Stacking.registry .sqlite Stacking.crate .none
        ((load Stacking.registry .sqlite 2 Stacking.crate .none true).steps Script.environment ()
          Stacking.twoRead) ∧
      (∀ source, Stacking.twoCrates.Reaches Stacking.registry Stacking.crate .none source →
        ¬ TransGen (Stacking.twoCrates.Leads Stacking.registry) source source) ∧
      (execution 2).outcome = .ok (some [Stacking.crateOf 1 0 [Stacking.crateOf 2 1 []],
        Stacking.crateOf 2 1 []]) ∧
      (execution 2).requests.length = 3 ∧ 3 ≤ 1 + 2 * Stacking.registry.targetCount ∧
      ∀ budget, 2 ≤ budget → execution budget = execution 2 := by
  intro execution
  have hacyclic : ∀ source,
      Stacking.twoCrates.Reaches Stacking.registry Stacking.crate .none source →
        ¬ TransGen (Stacking.twoCrates.Leads Stacking.registry) source source := by
    intro source _ hcycle
    obtain ⟨_, hfirst, _⟩ := TransGen.head'_iff.1 hcycle
    obtain ⟨_, _, hlast⟩ := TransGen.tail'_iff.1 hcycle
    have hid := (Stacking.leads_inward hfirst).1.symm.trans (Stacking.leads_inward hlast).2
    cases hid
  obtain ⟨_, _, hbeyond⟩ := load_ends Stacking.registry .sqlite Stacking.crate .none
    Stacking.twoCrates Script.environment Stacking.twoRead Stacking.twoRead_serves hacyclic
  exact ⟨rfl, Stacking.twoRead_serves, hacyclic, rfl, rfl, by decide, hbeyond⟩

namespace Stacking

/-- A crate that lies in itself. -/
def crateInItself : Database := holding [crateRecord 1 1]

/-- Every query finds the crate that lies in itself. -/
def repeating : Environment Unit where
  answer
    | .query _ _, _ => (.ok [crateRow 1 1], ())
    | .execute _ _, _ => (.ok 0, ())
    | .insert _ _, _ => (.ok 0, ())
    | .begin, _ | .commit, _ | .rollback, _ => (.ok (), ())
  cancelled _ := none

/-- The query for what lies in the crate. -/
def innerRequest : Request := .query .connection ((innerQuery [.bigInt 1]).build .sqlite)

/-- Below the crate there is the crate again. -/
theorem execution_loadLevel {nodes : List LoadedNode} {number : Nat} {node : LoadedNode}
    (hnode : nodes[number]? = some node) (hcrate : node.entity = some (crateOf 1 1 [])) :
    (Task.loadLevel registry .sqlite nodes [number]).execution repeating () () =
      ⟨.ok (some (nodes ++ [⟨some (crateOf 1 1 []), some number, 0⟩])), (), (),
        [innerRequest]⟩ := by
  have hnumbered : numbered nodes [number] = .ok [(number, crateOf 1 1 [])] := by
    rw [numbered, List.mapM_cons, occupied_of_entity hnode hcrate]
    rfl
  rw [Task.loadLevel, hnumbered]
  rfl

/-- However many levels are taken below the crate, each asks for the crate again. -/
theorem loadBelow_repeats (budget : Nat) {nodes : List LoadedNode} {number : Nat}
    {node : LoadedNode} (hnode : nodes[number]? = some node)
    (hcrate : node.entity = some (crateOf 1 1 [])) :
    let execution :=
      (Task.loadBelow registry .sqlite budget nodes [number]).execution repeating () ()
    execution.outcome = .ok none ∧ execution.requests = List.replicate budget innerRequest := by
  induction budget generalizing nodes number node with
  | zero => exact ⟨rfl, rfl⟩
  | succ budget ih =>
      let again : LoadedNode := ⟨some (crateOf 1 1 []), some number, 0⟩
      have hnext : nextLevel nodes (nodes ++ [again]) = [nodes.length] := by
        rw [nextLevel, List.length_append, Nat.add_sub_cancel_left]
        rfl
      have hagain : (nodes ++ [again])[nodes.length]? = some again := List.getElem?_concat_length
      obtain ⟨hnone, hrequests⟩ := ih hagain rfl
      rw [← hnext] at hnone hrequests
      dsimp only
      rw [Task.execution_loadBelow_succ _ (List.cons_ne_nil _ _), Task.execution_bind,
        execution_loadLevel hnode hcrate, Execution.andThen_ok, Task.requests_loadFurther]
      exact ⟨Task.loadFurther_eq_none.2 hnone, congrArg _ hrequests⟩

/-- However many levels are taken, each asks for the crate again. -/
theorem load_repeats (budget : Nat) :
    let execution :=
      (load registry .sqlite budget crate .none true).execution repeating () ()
    execution.outcome = .ok none ∧ execution.requests =
      .query .connection ((rootQuery crates .none).build .sqlite) ::
        List.replicate budget innerRequest := by
  have hroots : ((Task.loadRoots registry .sqlite crate .none).execution repeating ()
      ()).outcome = .ok [crateOf 1 1 []] := rfl
  obtain ⟨hnone, hrequests⟩ := loadBelow_repeats budget
    (rfl : [LoadedNode.root (crateOf 1 1 [])][0]? = some _) rfl
  refine ⟨Task.load_eq_none.2 ⟨_, hroots, hnone⟩, ?_⟩
  rw [Task.requests_load hroots]
  exact congrArg (_ :: ·) hrequests

/-- However many levels are taken, all queries are answered with the crate. -/
theorem repeating_serves (budget : Nat) :
    crateInItself.Serves repeating registry .sqlite crate .none
      ((load registry .sqlite budget crate .none true).steps repeating () ()) := by
  have hasked := Task.map_request_steps repeating
    (load registry .sqlite budget crate .none true) () ()
  rw [(load_repeats budget).2] at hasked
  constructor
  case roots =>
    intro step hstep mapping hmapping rows hrows
    have hrequest := congrArg List.head? hasked
    rw [List.head?_map, hstep] at hrequest
    obtain ⟨request, world⟩ := step
    cases hrequest
    cases hmapping
    cases hrows
    refine ⟨crateInItself.records, .cons (.refl _) .nil, ?_, fun _ _ => ?_⟩
    · exact List.Subperm.refl _
    · exact List.Perm.refl _
  case children =>
    intro step hstep
    have hrequest := List.mem_map_of_mem (f := Step.request) hstep
    rw [List.map_tail, hasked, List.tail_cons] at hrequest
    obtain ⟨request, world⟩ := step
    obtain rfl : request = innerRequest := List.eq_of_mem_replicate hrequest
    refine isServed_of_params rfl rfl ?_ rfl (.cons (.refl _) .nil)
    exact List.forall_mem_singleton.2 rfl

end Stacking

/-- A crate that lies in itself is never loaded, though all queries are answered: however many
levels a load takes, each asks for the crate once more. -/
theorem crate_in_itself_never_ends :
    let task budget := load Stacking.registry .sqlite budget Stacking.crate .none true
    (∀ budget, Stacking.crateInItself.Serves Stacking.repeating Stacking.registry .sqlite
      Stacking.crate .none ((task budget).steps Stacking.repeating () ())) ∧
      (¬ ∃ budget, ((task budget).execution Stacking.repeating () ()).outcome ≠ .ok none) ∧
      ∀ budget,
        ((task budget).execution Stacking.repeating () ()).requests.length = budget + 1 := by
  refine ⟨Stacking.repeating_serves, ?_, fun budget => ?_⟩
  · rintro ⟨budget, hends⟩
    exact hends (Stacking.load_repeats budget).1
  · rw [(Stacking.load_repeats budget).2, List.length_cons, List.length_replicate]

end AggregateSync
