import AggregateSync.Connection.Script
import AggregateSync.Proofs.Connection.Execution
import AggregateSync.Proofs.Session.Gathering

/-!
# Loading whole trees

A load asks for the roots, then level by level for what belongs below them, and assembles
all of it in the end.  Whatever the database answers, no load runs into an internal error, and
one that starts from a mapped class fails in foreseen ways only; if a load succeeds, every row
that was routed anywhere stands once in the result, at the place that its owner and its
relation give it.
-/

namespace AggregateSync

variable {ω : Type} {environment : Environment ω}

/-! ## Queries and answers -/

/-- A database answers some queries with rows, one after the other. -/
inductive Answers (environment : Environment ω) : ω → List (Statement × List Row) → ω → Prop
  | none (world : ω) : Answers environment world [] world
  | next {statement : Statement} {rows : List Row} {world between after : ω}
      {rest : List (Statement × List Row)}
      (hanswer : environment.answer (.query .connection statement) world =
        (.ok rows, between))
      (hrest : Answers environment between rest after) :
      Answers environment world ((statement, rows) :: rest) after

theorem Answers.append {world between after : ω} {first rest : List (Statement × List Row)}
    (hfirst : Answers environment world first between)
    (hrest : Answers environment between rest after) :
    Answers environment world (first ++ rest) after := by
  induction hfirst with
  | none => exact hrest
  | next hanswer _ ih => exact .next hanswer (ih hrest)

/-- The requests that ask for rows. -/
def queries (exchanges : List (Statement × List Row)) : List Request :=
  exchanges.map fun exchange => .query .connection exchange.1

/-- What a delivery was asked for and what was answered. -/
def Delivery.exchange (delivery : Delivery) : Statement × List Row :=
  (delivery.fetch.statement, delivery.rows)

/-- The outcome is no internal error. -/
def Outcome.IsRegular {α : Type} (outcome : Outcome α) : Prop :=
  ∀ e, outcome = .err e → ¬e.IsInternal

/-! ## The classes of what was gathered -/

theorem Registry.knows_of_find? {registry : Registry} {id : Nat} {mapping : ClassMapping}
    (hfind : registry.find? id = some mapping) : registry.Knows mapping.type :=
  ⟨mapping, by rw [same_of_find? hfind, hfind]⟩

section Gathered

variable {registry : Registry} {roots : List Entity} {deliveries : List Delivery}
  {nodes : List LoadedNode} {above levels : List (List Nat)} {level : List Nat}

/-- All that was gathered is of mapped classes, if the roots are. -/
theorem IsGathered.knows (hgathered : IsGathered registry roots deliveries nodes levels)
    (hroots : ∀ e ∈ roots, registry.Knows e.type) :
    ∀ node ∈ nodes, ∀ e, node.entity = some e → registry.Knows e.type := by
  intro node hnode e he
  rw [hgathered.nodes_eq, List.mem_append] at hnode
  rcases hnode with hroot | hdelivered
  · obtain ⟨root, hmember, rfl⟩ := List.mem_map.1 hroot
    rw [← Option.some.inj he]
    exact hroots root hmember
  · obtain ⟨delivery, hdelivery, hnode⟩ := List.mem_flatMap.1 hdelivered
    obtain ⟨child, hchild, _, _, _, _, hread, rfl⟩ :=
      (hgathered.parts delivery hdelivery).exists_row hnode
    rw [← Option.some.inj he, ClassMapping.type_of_hydrate hread]
    exact registry.knows_of_find? hchild

/-- The entities of the last level are of mapped classes, if the roots are. -/
theorem IsGathered.knows_standing
    (hgathered : IsGathered registry roots deliveries nodes (above ++ [level]))
    (hroots : ∀ e ∈ roots, registry.Knows e.type) :
    ∀ parent ∈ standing nodes level, registry.Knows parent.2.type := by
  intro parent hparent
  obtain ⟨number, hnumber, rfl⟩ := List.mem_map.1 hparent
  obtain ⟨node, hnode, he⟩ := hgathered.exists_standing hnumber
  exact hgathered.knows hroots node (List.mem_of_getElem? hnode) _ he

/-- All that was gathered fits where it was loaded for. -/
theorem IsGathered.fits (hgathered : IsGathered registry roots deliveries nodes levels) :
    ∀ node ∈ nodes, node.Fits registry nodes := by
  intro node hnode hparent
  rw [hgathered.nodes_eq, List.mem_append] at hnode
  rcases hnode with hroot | hdelivered
  · obtain ⟨root, _, rfl⟩ := List.mem_map.1 hroot
    cases hparent
  · obtain ⟨delivery, hdelivery, hnode⟩ := List.mem_flatMap.1 hdelivered
    have hpart := hgathered.parts delivery hdelivery
    obtain ⟨child, hchild, _, e, owner, howner, hread, rfl⟩ := hpart.exists_row hnode
    obtain ⟨_, hsuits, _⟩ := hpart.suits
    obtain ⟨target, htarget, htype⟩ := hsuits.targeted
    refine ⟨_, e, hpart.relationIn?_eq howner rfl rfl, rfl, target, htarget, ?_⟩
    rw [ClassMapping.type_of_hydrate hread, EntityType.same, beq_iff_eq,
      Registry.same_of_find? hchild, htype]

/-- What was gathered is assembled, and its roots keep their classes. -/
theorem IsGathered.exists_trees {below : List (List Nat)}
    (hgathered : IsGathered registry roots deliveries nodes (List.range roots.length :: below)) :
    ∃ trees, assemble registry nodes (List.range roots.length :: below) = .ok trees ∧
      trees.map Entity.type = roots.map Entity.type := by
  obtain ⟨trees, htrees, hlabels⟩ := exists_assembled hgathered.arena hgathered.fits
  refine ⟨trees, htrees, ?_⟩
  have htypes := congrArg (List.map Prod.fst) hlabels
  rw [List.map_map, List.map_map] at htypes
  refine htypes.trans (List.ext_getElem (by simp) fun number _ hbound => ?_)
  rw [List.length_map] at hbound
  have hnode : nodes[number]? = some (LoadedNode.root roots[number]) := by
    rw [hgathered.nodes_eq, List.getElem?_append_left (by simpa using hbound),
      List.getElem?_map, List.getElem?_eq_getElem hbound, Option.map_some]
  rw [List.getElem_map, List.getElem_map, List.getElem_range, Function.comp_apply,
    loadedEntity_eq hnode rfl]
  rfl

end Gathered

namespace Task

variable {registry : Registry} {dialect : Dialect} {world after : ω} {requests : List Request}

/-! ## One query -/

theorem queryRows_failsWithin {strangers : Prop} (type : EntityType) (statement : Statement)
    (world : ω) :
    ((queryRows type statement).execution environment () world).outcome.FailsWithin
      (Error.IsForeseen strangers) :=
  request_failsWithin _ (fun _ => trivial) () world

theorem queryRows_eq_ok {type : EntityType} {statement : Statement} {rows : List Row}
    (hrows : (queryRows type statement).execution environment () world =
      ⟨.ok rows, (), after, requests⟩) :
    environment.answer (.query .connection statement) world = (.ok rows, after) ∧
      requests = [.query .connection statement] := by
  rw [queryRows, execution_request] at hrows
  obtain ⟨houtcome, -, rfl, rfl⟩ := Execution.mk.inj hrows
  refine ⟨?_, rfl⟩
  cases hanswer : environment.answer (.query .connection statement) world with
  | mk answer later =>
      rw [hanswer] at houtcome
      cases answer with
      | ok found => rw [Outcome.ok.inj houtcome]
      | _ => cases houtcome

/-! ## One level -/

theorem loadFetches_failsWithin {strangers : Prop} {fetches : List Fetch} {parents : Numbered}
    (hsuits : ∀ fetch ∈ fetches, fetch.Suits registry parents) (nodes : List LoadedNode)
    (world : ω) :
    ((loadFetches registry fetches nodes).execution environment () world).outcome.FailsWithin
      (Error.IsForeseen strangers) := by
  induction fetches generalizing nodes world with
  | nil => exact Outcome.failsWithin_ok nodes
  | cons fetch rest ih =>
      rw [List.forall_mem_cons] at hsuits
      exact bind_failsWithin (queryRows_failsWithin _ _ world) fun rows _ between _ _ =>
        ofResult_bind_failsWithin
          (routeRows_failsWithin hsuits.1.served hsuits.1.childMapped rows) fun routed _ =>
            ih hsuits.2 (nodes ++ routed) between

/-- The queries of a level are answered and their rows are routed, one after the other. -/
theorem loadFetches_eq_ok {fetches : List Fetch} {nodes all : List LoadedNode}
    (hall : (loadFetches registry fetches nodes).execution environment () world =
      ⟨.ok all, (), after, requests⟩) :
    ∃ here : List Delivery, here.map Delivery.fetch = fetches ∧
      (∀ delivery ∈ here,
        routeRows registry delivery.fetch delivery.rows = .ok delivery.nodes) ∧
      all = nodes ++ here.flatMap Delivery.nodes ∧
      Answers environment world (here.map Delivery.exchange) after ∧
      requests = queries (here.map Delivery.exchange) := by
  induction fetches generalizing nodes world requests with
  | nil =>
      cases hall
      exact ⟨[], rfl, by simp, by simp, .none _, rfl⟩
  | cons fetch rest ih =>
      obtain ⟨rows, _, between, asked, others, hrows, hrest, rfl⟩ :=
        execution_bind_eq_ok.1 hall
      obtain ⟨hanswer, rfl⟩ := queryRows_eq_ok hrows
      obtain ⟨routed, hrouted, hothers⟩ := execution_ofResult_bind_eq_ok.1 hrest
      obtain ⟨here, rfl, hhere, rfl, hanswers, rfl⟩ := ih hothers
      refine ⟨⟨fetch, rows, routed⟩ :: here, rfl, List.forall_mem_cons.2 ⟨hrouted, hhere⟩, ?_,
        .next hanswer hanswers, rfl⟩
      rw [List.flatMap_cons, List.append_assoc]

/-! ## All levels -/

theorem loadBelow_failsWithin {strangers : Prop} {roots : List Entity}
    {deliveries : List Delivery} {nodes : List LoadedNode} {above : List (List Nat)}
    {level : List Nat} (budget : Nat)
    (hgathered : IsGathered registry roots deliveries nodes (above ++ [level]))
    (hroots : ∀ e ∈ roots, registry.Knows e.type) (world : ω) :
    ((loadBelow registry dialect budget nodes level).execution environment ()
      world).outcome.FailsWithin (Error.IsForeseen strangers) := by
  induction budget generalizing deliveries nodes above level world with
  | zero =>
      rw [loadBelow]
      split
      · exact Outcome.failsWithin_ok _
      · exact Outcome.failsWithin_ok _
  | succ further ih =>
      rw [loadBelow]
      split
      · exact Outcome.failsWithin_ok _
      · refine ofResult_bind_failsWithin ?_ fun parents hparents => ?_
        · rw [hgathered.numbered_eq]
          exact Result.failsWithin_ok _
        obtain rfl := Except.ok.inj (hgathered.numbered_eq.symm.trans hparents)
        refine ofResult_bind_failsWithin (planLevel_failsWithin (hgathered.knows_standing hroots))
          fun fetches hplan => ?_
        have hsuits := fun fetch hfetch => ((hgathered.suits_of_planned hplan).1 fetch hfetch).1
        split
        · exact Outcome.failsWithin_ok _
        · refine bind_failsWithin (loadFetches_failsWithin hsuits nodes world)
            fun all _ between asked hall => ?_
          obtain ⟨here, hhere, hrouted, rfl, -, -⟩ := loadFetches_eq_ok hall
          refine bind_failsWithin ?_ fun rest _ later _ _ => ?_
          · rw [List.length_append, Nat.add_sub_cancel_left]
            exact ih (hgathered.extend hplan hhere hrouted) between
          · cases rest <;> exact Outcome.failsWithin_ok _

/-- The levels below a level are loaded by planning, asking and routing. -/
theorem loadBelow_eq_ok {budget : Nat} {nodes complete : List LoadedNode} {level : List Nat}
    {below : List (List Nat)}
    (hloaded : (loadBelow registry dialect budget nodes level).execution environment () world =
      ⟨.ok (some (complete, below)), (), after, requests⟩) :
    ∃ deliveries, LoadsBelow registry dialect nodes level deliveries complete below ∧
      Answers environment world (deliveries.map Delivery.exchange) after ∧
      requests = queries (deliveries.map Delivery.exchange) := by
  induction budget generalizing nodes complete level below world requests with
  | zero =>
      rw [loadBelow] at hloaded
      split at hloaded
      case isTrue hempty =>
        cases hloaded
        obtain rfl := List.isEmpty_iff.1 hempty
        exact ⟨[], .last rfl rfl, .none _, rfl⟩
      case isFalse => cases hloaded
  | succ further ih =>
      rw [loadBelow] at hloaded
      split at hloaded
      case isTrue hempty =>
        cases hloaded
        obtain rfl := List.isEmpty_iff.1 hempty
        exact ⟨[], .last rfl rfl, .none _, rfl⟩
      case isFalse =>
        obtain ⟨parents, hparents, hloaded⟩ := execution_ofResult_bind_eq_ok.1 hloaded
        obtain ⟨fetches, hplan, hloaded⟩ := execution_ofResult_bind_eq_ok.1 hloaded
        split at hloaded
        case isTrue hnone =>
          cases hloaded
          obtain rfl := List.isEmpty_iff.1 hnone
          exact ⟨[], .last hparents hplan, .none _, rfl⟩
        case isFalse =>
          obtain ⟨all, _, between, asked, others, hall, hrest, rfl⟩ :=
            execution_bind_eq_ok.1 hloaded
          obtain ⟨deeper?, _, later, asked', last, hdeeper, hlast, rfl⟩ :=
            execution_bind_eq_ok.1 hrest
          obtain ⟨here, rfl, hrouted, rfl, hanswers, rfl⟩ := loadFetches_eq_ok hall
          cases deeper? with
          | none => cases hlast
          | some deeper =>
              obtain ⟨whole, deepest⟩ := deeper
              simp only [execution_pure, Execution.mk.injEq] at hlast
              obtain ⟨houtcome, -, rfl, rfl⟩ := hlast
              cases houtcome
              rw [List.length_append, Nat.add_sub_cancel_left] at hdeeper ⊢
              obtain ⟨deliveries, hloads, hanswers', rfl⟩ := ih hdeeper
              refine ⟨here ++ deliveries, .further hparents hplan hrouted hloads, ?_, ?_⟩
              · rw [List.map_append]
                exact hanswers.append hanswers'
              · rw [List.append_nil, queries, queries, queries, List.map_append, List.map_append]

/-- Assembles what was loaded, unless the levels ran out. -/
def assembleLoaded (registry : Registry) (level : List Nat) :
    Option (List LoadedNode × List (List Nat)) → Task Unit (Option (List Entity))
  | none => pure none
  | some (all, below) => do
    let complete ← ofResult (assemble registry all (level :: below))
    return some complete

end Task

/-! ## The result -/

/-- The entity at a place among trees. -/
def entityAt? (trees : List Entity) (place : Nat × Address) : Option Entity :=
  trees[place.1]?.bind (Entity.at? place.2)

/-- Everything that was loaded stands in the trees, and nothing else.  The trees show what
the roots show; every node stands at its one place and every place belongs to one node;
a delivered node was loaded for the relation of the query and for one of the parents that
it asks for; and the children of such a parent in the relation are the rows given to it,
in their order. -/
structure HoldsAll (registry : Registry) (roots : List Entity) (deliveries : List Delivery)
    (nodes : List LoadedNode) (trees : List Entity) : Prop where
  nodes_eq : nodes = roots.map LoadedNode.root ++ deliveries.flatMap Delivery.nodes
  roots : trees.map Entity.label = roots.map Entity.label
  placed : ∀ (number : Nat) node, nodes[number]? = some node → ∃ place e found,
    (∀ other, StandsAt registry nodes number other ↔ other = place) ∧
      node.entity = some e ∧ entityAt? trees place = some found ∧ found.label = e.label
  only : ∀ place found, entityAt? trees place = some found →
    ∃ number, ∀ other, StandsAt registry nodes other place ↔ other = number
  related : ∀ delivery ∈ deliveries, ∀ node ∈ delivery.nodes,
    ∃ owner ∈ delivery.fetch.ownerNumbers, node.parent = some owner ∧
      node.relationIn? registry nodes = some delivery.fetch.relation
  ordered : ∀ delivery ∈ deliveries, ∃ child,
    registry.find? delivery.fetch.child.id = some child ∧
      ∀ owner ∈ delivery.fetch.ownerNumbers, ∀ place found,
        StandsAt registry nodes owner place → entityAt? trees place = some found →
          (found.children delivery.fetch.relation.slot).map (some ∘ Entity.label) =
            (delivery.rows.filter fun row => decide (owner ∈ delivery.fetch.ownersOf row)).map
              fun row => (child.hydrate row).toOption.map Entity.label

section Result

variable {registry : Registry} {roots trees : List Entity} {deliveries : List Delivery}
  {nodes : List LoadedNode} {below levels : List (List Nat)}

/-- The nodes without owners are the roots. -/
theorem IsGathered.getElem?_root
    (hgathered : IsGathered registry roots deliveries nodes levels) (number : Nat) :
    (∃ node, nodes[number]? = some node ∧ node.parent = none) ↔ number < roots.length := by
  constructor
  · rintro ⟨node, hnode, hparent⟩
    by_contra hbeyond
    rw [hgathered.nodes_eq, List.getElem?_append_right (by simpa using hbeyond)] at hnode
    obtain ⟨delivery, hdelivery, hmember⟩ := List.mem_flatMap.1 (List.mem_of_getElem? hnode)
    obtain ⟨_, _, _, _, _, _, _, rfl⟩ := (hgathered.parts delivery hdelivery).exists_row hmember
    cases hparent
  · intro hbound
    refine ⟨LoadedNode.root roots[number], ?_, rfl⟩
    rw [hgathered.nodes_eq, List.getElem?_append_left (by simpa using hbound), List.getElem?_map,
      List.getElem?_eq_getElem hbound, Option.map_some]

theorem entityAt?_map_range {whole : Nat → Entity} {count : Nat} {place : Nat × Address} :
    entityAt? ((List.range count).map whole) place =
      if place.1 < count then (whole place.1).at? place.2 else none := by
  rw [entityAt?, List.getElem?_map]
  split
  case isTrue hbound => rw [List.getElem?_range hbound, Option.map_some, Option.bind_some]
  case isFalse hbound =>
    rw [List.getElem?_eq_none (by simpa using hbound), Option.map_none, Option.bind_none]

/-- Where new entities have no children, no loaded node has any. -/
theorem IsGathered.members_eq_nil
    (hgathered : IsGathered registry roots deliveries nodes levels)
    (hinitial : ∀ mapping ∈ registry.mappings, mapping.initialMembers = [])
    (hroots : ∀ e ∈ roots, e.members = []) :
    ∀ node ∈ nodes, ∀ e, node.entity = some e → e.members = [] := by
  intro node hnode e he
  rw [hgathered.nodes_eq, List.mem_append] at hnode
  rcases hnode with hroot | hdelivered
  · obtain ⟨root, hmember, rfl⟩ := List.mem_map.1 hroot
    rw [← Option.some.inj he]
    exact hroots root hmember
  · obtain ⟨delivery, hdelivery, hnode⟩ := List.mem_flatMap.1 hdelivered
    obtain ⟨child, hchild, _, _, _, _, hread, rfl⟩ :=
      (hgathered.parts delivery hdelivery).exists_row hnode
    rw [← Option.some.inj he, ClassMapping.members_of_hydrate hread,
      hinitial child (List.mem_of_find?_eq_some hchild)]

/-- The children of an owner in a relation that was asked for are the rows given to it. -/
theorem IsGathered.labels_of_children {whole : Nat → Entity} {delivery : Delivery} {owner : Nat}
    {child : ClassMapping}
    (hgathered : IsGathered registry roots deliveries nodes levels)
    (hslots : ∀ mapping ∈ registry.mappings, (mapping.relations.map Relation.slot).Nodup)
    (hassembled : IsAssembled registry nodes whole) (hbound : owner < nodes.length)
    (hdelivery : delivery ∈ deliveries) (howner : owner ∈ delivery.fetch.ownerNumbers)
    (hnodes : delivery.nodes =
      delivery.rows.flatMap (delivery.fetch.nodesOf child delivery.fetch.ownersOf)) :
    ((whole owner).children delivery.fetch.relation.slot).map (some ∘ Entity.label) =
      (delivery.rows.filter fun row => decide (owner ∈ delivery.fetch.ownersOf row)).map
        fun row => (child.hydrate row).toOption.map Entity.label := by
  -- the rows may have given the owner no child, so its relation is not that of a node
  have hchildren := @IsAssembled.children_eq registry nodes whole owner
    ⟨none, some owner, delivery.fetch.index⟩ delivery.fetch.relation hassembled
    (hgathered.sharesOnlyLists hslots) hslots rfl
    ((hgathered.parts delivery hdelivery).relationIn?_eq howner rfl rfl) hbound
  have hlabels : (loadedThrough nodes owner delivery.fetch.index).map
      (some ∘ Entity.label ∘ whole) =
        ((loadedThrough nodes owner delivery.fetch.index).map (nodes[·]?)).map fun node? =>
          (node?.bind LoadedNode.entity).map Entity.label := by
    rw [List.map_map]
    apply List.map_congr_left
    intro number hnumber
    obtain ⟨node, hnode, _⟩ := exists_node_of_mem_childrenOf (List.mem_filter.1 hnumber).1
    obtain ⟨e, he⟩ := Option.isSome_iff_exists.1
      (hgathered.arena.filled node (List.mem_of_getElem? hnode))
    simp [hnode, he, hassembled.label number node e hnode he]
  rw [hchildren, List.map_map, Function.comp_assoc, hlabels,
    hgathered.map_loadedThrough_eq hdelivery howner hnodes, List.map_map]
  rfl

/-- What was gathered is assembled into trees that hold all of it. -/
theorem IsGathered.holdsAll
    (hgathered : IsGathered registry roots deliveries nodes (List.range roots.length :: below))
    (hslots : ∀ mapping ∈ registry.mappings, (mapping.relations.map Relation.slot).Nodup)
    (hinitial : ∀ mapping ∈ registry.mappings, mapping.initialMembers = [])
    (hroots : ∀ e ∈ roots, e.members = [])
    (hok : assemble registry nodes (List.range roots.length :: below) = .ok trees) :
    HoldsAll registry roots deliveries nodes trees := by
  have hshares := hgathered.sharesOnlyLists hslots
  obtain ⟨whole, rfl, hassembled⟩ := assemble_eq_ok hgathered.arena hshares
    (hgathered.members_eq_nil hinitial hroots) hok
  have hstands : ∀ {number place}, StandsAt registry nodes number place →
      entityAt? ((List.range roots.length).map whole) place = some (whole number) := by
    intro number place hplace
    rw [entityAt?_map_range, if_pos ((hgathered.getElem?_root _).1 hplace.exists_root)]
    exact hassembled.at?_of_standsAt hshares hslots hplace
  constructor
  case nodes_eq => exact hgathered.nodes_eq
  case roots =>
    apply List.ext_getElem (by simp)
    intro number _ hbound
    rw [List.length_map] at hbound
    have hnode : nodes[number]? = some (LoadedNode.root roots[number]) := by
      rw [hgathered.nodes_eq, List.getElem?_append_left (by simpa using hbound),
        List.getElem?_map, List.getElem?_eq_getElem hbound, Option.map_some]
    simpa using hassembled.label number _ _ hnode rfl
  case placed =>
    intro number node hnode
    obtain ⟨place, hplace⟩ := hgathered.arena.exists_place hassembled.related
      (List.getElem?_eq_some_iff.1 hnode).1
    obtain ⟨e, he⟩ := Option.isSome_iff_exists.1
      (hgathered.arena.filled node (List.mem_of_getElem? hnode))
    refine ⟨place, e, whole number, fun other => ?_, he, hstands hplace,
      hassembled.label number node e hnode he⟩
    exact ⟨fun hother => hother.functional hplace, fun hsame => hsame ▸ hplace⟩
  case only =>
    intro place found hfound
    rw [entityAt?_map_range] at hfound
    split at hfound
    case isFalse => cases hfound
    case isTrue hbound =>
      obtain ⟨node, hnode, hparent⟩ := (hgathered.getElem?_root _).2 hbound
      obtain ⟨number, hplace, _⟩ :=
        hassembled.exists_standsAt hshares hslots hnode hparent hfound
      exact ⟨number, fun other =>
        ⟨fun hother => hother.injective hslots hplace, fun hsame => hsame ▸ hplace⟩⟩
  case related =>
    intro delivery hdelivery node hnode
    have hpart := hgathered.parts delivery hdelivery
    obtain ⟨_, _, _, _, owner, howner, _, rfl⟩ := hpart.exists_row hnode
    exact ⟨owner, howner, rfl, hpart.relationIn?_eq howner rfl rfl⟩
  case ordered =>
    intro delivery hdelivery
    obtain ⟨child, hchild, _, hnodes⟩ := (hgathered.parts delivery hdelivery).exists_child
    refine ⟨child, hchild, fun owner howner place found hplace hfound => ?_⟩
    obtain rfl := Option.some.inj ((hstands hplace).symm.trans hfound)
    exact hgathered.labels_of_children hslots hassembled hplace.lt hdelivery howner hnodes

end Result

/-! ## Loading -/

/-- What a load asks for and is answered: the roots, then level by level the rest. -/
def exchanges (dialect : Dialect) (mapping : ClassMapping) (constraints : Constraints)
    (rows : List Row) (deliveries : List Delivery) : List (Statement × List Row) :=
  ((rootQuery mapping constraints).build dialect, rows) :: deliveries.map Delivery.exchange

section Load

variable {registry : Registry} {dialect : Dialect} {budget : Nat} {root : EntityType}
  {constraints : Constraints} {world after : ω} {requests : List Request}

/-- The roots are of the class that was asked for. -/
theorem type_of_roots {mapping : ClassMapping} {rows : List Row} {roots : List Entity}
    (hroots : rows.mapM mapping.hydrate = .ok roots) : ∀ e ∈ roots, e.type = mapping.type := by
  intro e he
  obtain ⟨_, _, hread⟩ := exists_item_of_forall₂ (Result.mapM_eq_ok.1 hroots) he
  exact ClassMapping.type_of_hydrate hread

/-- A load from a mapped class fails only in foreseen ways. -/
theorem load_failsWithin {strangers : Prop} (hknown : registry.Knows root)
    (withChildren : Bool) :
    ((load registry dialect budget root constraints withChildren).execution environment ()
      world).outcome.FailsWithin (Error.IsForeseen strangers) := by
  obtain ⟨mapping, hmapping⟩ := hknown
  refine Task.ofResult_bind_failsWithin ?_ fun found hfound => ?_
  · rw [Registry.mappingById_eq_ok.2 hmapping]
    exact Result.failsWithin_ok _
  rw [Registry.mappingById_eq_ok, hmapping, Option.some.injEq] at hfound
  subst hfound
  refine Task.bind_failsWithin (Task.queryRows_failsWithin _ _ world)
    fun rows _ between _ _ => Task.ofResult_bind_failsWithin (.mapM fun row _ =>
      (mapping.hydrate_failsWithin row).mono fun _ => Error.IsConversion.isForeseen)
        fun roots hroots => ?_
  have hstart : IsGathered registry roots [] (roots.map LoadedNode.root)
      ([] ++ [List.range roots.length]) := isGathered_roots registry roots
  have hassembled : ∀ {deliveries nodes below},
      IsGathered registry roots deliveries nodes (List.range roots.length :: below) →
        Result.FailsWithin (Error.IsForeseen strangers)
          (assemble registry nodes (List.range roots.length :: below)) := by
    intro deliveries nodes below hgathered
    obtain ⟨trees, htrees, _⟩ := hgathered.exists_trees
    rw [htrees]
    exact Result.failsWithin_ok trees
  cases withChildren with
  | false =>
      exact Task.ofResult_bind_failsWithin (hassembled hstart)
        fun trees _ => Outcome.failsWithin_ok _
  | true =>
      have hknown : ∀ e ∈ roots, registry.Knows e.type := by
        intro e he
        rw [type_of_roots hroots e he]
        exact registry.knows_of_find? hmapping
      refine Task.bind_failsWithin (Task.loadBelow_failsWithin budget hstart hknown between)
        fun loaded _ later asked hloaded => ?_
      cases loaded with
      | none => exact Outcome.failsWithin_ok _
      | some loaded =>
          obtain ⟨deliveries, hloads, -, -⟩ := Task.loadBelow_eq_ok hloaded
          exact Task.ofResult_bind_failsWithin (hassembled hloads.isGathered_of_roots)
            fun trees _ => Outcome.failsWithin_ok _

/-- What is loaded is of the class that was asked for. -/
theorem type_of_load {withChildren : Bool} {trees : List Entity}
    (hok : (load registry dialect budget root constraints withChildren).execution environment ()
      world = ⟨.ok (some trees), (), after, requests⟩) :
    ∀ e ∈ trees, e.type.same root = true := by
  obtain ⟨mapping, hmapping, hok⟩ := Task.execution_ofResult_bind_eq_ok.1 hok
  obtain ⟨rows, _, between, _, _, _, hrest, _⟩ := Task.execution_bind_eq_ok.1 hok
  obtain ⟨roots, hroots, hrest⟩ := Task.execution_ofResult_bind_eq_ok.1 hrest
  have hassembled : ∀ {deliveries nodes below},
      IsGathered registry roots deliveries nodes (List.range roots.length :: below) →
      assemble registry nodes (List.range roots.length :: below) = .ok trees →
        ∀ e ∈ trees, e.type.same root = true := by
    intro deliveries nodes below hgathered htrees e he
    obtain ⟨others, hothers, htypes⟩ := hgathered.exists_trees
    obtain rfl := Except.ok.inj (htrees.symm.trans hothers)
    obtain ⟨first, hfirst, htype⟩ := List.mem_map.1 (htypes ▸ List.mem_map_of_mem he)
    rw [EntityType.same, beq_iff_eq, ← htype, type_of_roots hroots first hfirst,
      Registry.same_of_find? (Registry.mappingById_eq_ok.1 hmapping)]
  cases withChildren with
  | false =>
      obtain ⟨complete, hcomplete, hlast⟩ := Task.execution_ofResult_bind_eq_ok.1 hrest
      cases hlast
      exact hassembled (isGathered_roots registry roots) hcomplete
  | true =>
      obtain ⟨loaded, _, _, _, _, hloaded, hlast, _⟩ := Task.execution_bind_eq_ok.1 hrest
      cases loaded with
      | none => cases hlast
      | some loaded =>
          obtain ⟨complete, hcomplete, hlast⟩ := Task.execution_ofResult_bind_eq_ok.1 hlast
          cases hlast
          obtain ⟨_, hloads, -, -⟩ := Task.loadBelow_eq_ok hloaded
          exact hassembled hloads.isGathered_of_roots hcomplete

/-- Checking the class of the roots adds nothing that may go wrong. -/
theorem loadGraph_failsWithin {strangers : Prop} (hknown : registry.Knows root)
    (withChildren : Bool) :
    ((loadGraph registry dialect budget root constraints withChildren).execution environment ()
      world).outcome.FailsWithin (Error.IsForeseen strangers) := by
  refine Task.bind_failsWithin (load_failsWithin hknown withChildren)
    fun loaded _ between asked hloaded => ?_
  cases loaded with
  | none => exact Outcome.failsWithin_ok _
  | some trees =>
      refine Task.ofResult_bind_failsWithin (.mapM fun e he => ?_)
        fun typed _ => Outcome.failsWithin_ok _
      rw [rootAs, if_pos (type_of_load hloaded e he)]
      exact Result.failsWithin_ok e

/-- A load raises no internal error, whatever it is asked for. -/
theorem load_isRegular (withChildren : Bool) :
    ((load registry dialect budget root constraints withChildren).execution environment ()
      world).outcome.IsRegular := by
  by_cases hknown : registry.Knows root
  case pos =>
    have hload : ((load registry dialect budget root constraints withChildren).execution
        environment () world).outcome.FailsWithin (Error.IsForeseen False) :=
      load_failsWithin hknown withChildren
    exact hload.mono fun _ => Error.IsForeseen.not_isInternal
  case neg =>
    have hmissing : registry.find? root.id = none :=
      Option.eq_none_iff_forall_ne_some.2 fun mapping hfind => hknown ⟨mapping, hfind⟩
    rw [load, Task.execution_ofResult_bind, Registry.mappingById, hmissing]
    rintro _ ⟨⟩ ⟨text, htext⟩
    cases htext

/-- A load with children that succeeds has asked for the roots and then for every level
below them, and has assembled all that it got. -/
theorem load_eq_ok {trees : List Entity}
    (hok : (load registry dialect budget root constraints true).execution environment () world =
      ⟨.ok (some trees), (), after, requests⟩) :
    ∃ mapping rows roots deliveries nodes below,
      registry.find? root.id = some mapping ∧ rows.mapM mapping.hydrate = .ok roots ∧
      LoadsBelow registry dialect (roots.map LoadedNode.root) (List.range roots.length)
        deliveries nodes below ∧
      assemble registry nodes (List.range roots.length :: below) = .ok trees ∧
      Answers environment world (exchanges dialect mapping constraints rows deliveries) after ∧
      requests = queries (exchanges dialect mapping constraints rows deliveries) := by
  obtain ⟨mapping, hmapping, hok⟩ := Task.execution_ofResult_bind_eq_ok.1 hok
  obtain ⟨rows, _, between, asked, others, hrows, hrest, rfl⟩ := Task.execution_bind_eq_ok.1 hok
  obtain ⟨hanswer, rfl⟩ := Task.queryRows_eq_ok hrows
  obtain ⟨roots, hroots, hrest⟩ := Task.execution_ofResult_bind_eq_ok.1 hrest
  obtain ⟨loaded, _, later, further, last, hloaded, hlast, rfl⟩ :=
    Task.execution_bind_eq_ok.1 hrest
  cases loaded with
  | none => cases hlast
  | some loaded =>
      obtain ⟨nodes, below⟩ := loaded
      obtain ⟨complete, hcomplete, hlast⟩ := Task.execution_ofResult_bind_eq_ok.1 hlast
      rw [Task.execution_pure] at hlast
      obtain ⟨houtcome, -, rfl, rfl⟩ := Execution.mk.inj hlast
      cases houtcome
      obtain ⟨deliveries, hloads, hanswers, rfl⟩ := Task.loadBelow_eq_ok hloaded
      refine ⟨mapping, rows, roots, deliveries, nodes, below,
        Registry.mappingById_eq_ok.1 hmapping, hroots, hloads, hcomplete,
        .next hanswer hanswers, ?_⟩
      rw [List.append_nil]
      rfl

end Load

/-- A load with children never fails by an internal error, neither that a node was attached
twice nor that a child has no parent.  If it succeeds, where new entities have no children
and the relations of a class have slots of their own, the roots are the rows of the first
query, every level was planned, asked for and routed from the level above, and all of this
stands in the result, each node once and in its place. -/
theorem load_assembles (environment : Environment ω) (registry : Registry) (dialect : Dialect)
    (budget : Nat) (root : EntityType) (constraints : Constraints) (world : ω) :
    let execution :=
      (load registry dialect budget root constraints true).execution environment () world
    (∀ number, execution.outcome ≠ .err (alreadyAttached number) ∧
      execution.outcome ≠ .err (loadedForNobody number)) ∧
    ((∀ mapping ∈ registry.mappings, mapping.initialMembers = []) →
      (∀ mapping ∈ registry.mappings, (mapping.relations.map Relation.slot).Nodup) →
      ∀ trees, execution.outcome = .ok (some trees) →
        ∃ mapping rows roots deliveries nodes below,
          registry.find? root.id = some mapping ∧ rows.mapM mapping.hydrate = .ok roots ∧
          LoadsBelow registry dialect (roots.map LoadedNode.root) (List.range roots.length)
            deliveries nodes below ∧
          Answers environment world (exchanges dialect mapping constraints rows deliveries)
            execution.world ∧
          execution.requests = queries (exchanges dialect mapping constraints rows deliveries) ∧
          HoldsAll registry roots deliveries nodes trees) := by
  intro execution
  have hregular : execution.outcome.IsRegular := load_isRegular true
  refine ⟨fun number => ⟨fun herror => hregular _ herror ⟨_, rfl⟩,
    fun herror => hregular _ herror ⟨_, rfl⟩⟩, ?_⟩
  intro hinitial hslots trees htrees
  have hok : execution = ⟨.ok (some trees), (), execution.world, execution.requests⟩ := by
    rw [← htrees]
  obtain ⟨mapping, rows, roots, deliveries, nodes, below, hmapping, hroots, hloads, hassemble,
    hanswers, hrequests⟩ := load_eq_ok hok
  refine ⟨mapping, rows, roots, deliveries, nodes, below, hmapping, hroots, hloads, hanswers,
    hrequests, hloads.isGathered_of_roots.holdsAll hslots hinitial ?_ hassemble⟩
  intro e he
  obtain ⟨row, _, hread⟩ := exists_item_of_forall₂ (Result.mapM_eq_ok.1 hroots) he
  rw [ClassMapping.members_of_hydrate hread,
    hinitial mapping (List.mem_of_find?_eq_some hmapping)]

namespace Shipping

def orderRow (id : Int64) : Row := ⟨["id"], [.bigInt id]⟩

def childRow (id parent : Int64) : Row := ⟨["id", "parent_id"], [.bigInt id, .bigInt parent]⟩

/-- A database with two orders, whose parcels come in no particular order, and an item. -/
def stocked : Script where
  queries := [⟨.ok [orderRow 1, orderRow 2], none⟩,
    ⟨.ok [childRow 2 1, childRow 3 2, childRow 1 1], none⟩, ⟨.ok [childRow 1 1], none⟩]
  writes := []
  begin := .ok ()
  commit := .ok ()
  rollback := .ok ()
  cancelled := none
  written := 0
  calls := []

def stockedTrees : List Entity :=
  [orderOf 1 [parcelOf 2 1 [], parcelOf 1 1 [itemOf 1 1]], orderOf 2 [parcelOf 3 2 []]]

end Shipping

/-- The parcels of an order stand in the order of their rows, the item in its parcel. -/
theorem stocked_assembled :
    (∀ mapping ∈ Shipping.registry.mappings, mapping.initialMembers = []) ∧
    (∀ mapping ∈ Shipping.registry.mappings, (mapping.relations.map Relation.slot).Nodup) ∧
    ((load Shipping.registry .sqlite 4 Shipping.order .none true).execution Script.environment ()
      Shipping.stocked).outcome = .ok (some Shipping.stockedTrees) ∧
    ∃ deliveries nodes, HoldsAll Shipping.registry [Shipping.orderOf 1 [], Shipping.orderOf 2 []]
      deliveries nodes Shipping.stockedTrees := by
  have hinitial : ∀ mapping ∈ Shipping.registry.mappings, mapping.initialMembers = [] := by
    simp [Shipping.registry, Shipping.orders, Shipping.parcels, Shipping.items]
  have hslots : ∀ mapping ∈ Shipping.registry.mappings,
      (mapping.relations.map Relation.slot).Nodup := by
    simp [Shipping.registry, Shipping.orders, Shipping.parcels, Shipping.items]
  have hload : ((load Shipping.registry .sqlite 4 Shipping.order .none true).execution
      Script.environment () Shipping.stocked).outcome = .ok (some Shipping.stockedTrees) := rfl
  obtain ⟨_, hholds⟩ := load_assembles Script.environment Shipping.registry .sqlite 4
    Shipping.order .none Shipping.stocked
  obtain ⟨_, _, roots, deliveries, nodes, _, hmapping, hroots, _, hanswers, _, hall⟩ :=
    hholds hinitial hslots _ hload
  cases hmapping
  obtain _ | ⟨hanswer, _⟩ := hanswers
  cases hanswer
  cases hroots
  exact ⟨hinitial, hslots, hload, deliveries, nodes, hall⟩

end AggregateSync
