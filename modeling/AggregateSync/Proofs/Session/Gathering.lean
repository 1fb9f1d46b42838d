import AggregateSync.Proofs.Graph.Placement
import AggregateSync.Proofs.Session.Routing
import Mathlib.Data.List.Chain

/-!
# What the levels bring in

A load gathers nodes: the roots first, and then level by level what the queries of the
level deliver.  The invariant of the loop says that the nodes stand in levels, that every
delivery was routed and is asked for by owners that stand above it, and that no owner is
asked for twice through one of its relations.  So two nodes can share a slot only if one
query brought both, which for a slot with a single entity the routing has excluded.
-/

namespace AggregateSync

/-- A query, the rows that answered it and the nodes that they became. -/
structure Delivery where
  fetch : Fetch
  rows : List Row
  nodes : List LoadedNode

theorem Fetch.ownersOf_sublist (fetch : Fetch) (row : Row) :
    (fetch.ownersOf row).Sublist fetch.ownerNumbers := by
  rw [ownersOf, entered, ownerNumbers, List.flatMap_def]
  cases hfind : fetch.owners.find? fun group => group.1.sameEntry (fetch.foreignKeyOf row) with
  | none => exact List.nil_sublist _
  | some group =>
      exact List.sublist_flatten_of_mem
        (List.mem_map_of_mem (List.mem_of_find?_eq_some hfind))

/-! ## One delivery -/

/-- A delivery among gathered nodes: its rows were routed, and it was planned for owners
that are among the nodes. -/
structure Delivery.IsPartOf (delivery : Delivery) (registry : Registry)
    (nodes : List LoadedNode) : Prop where
  routed : routeRows registry delivery.fetch delivery.rows = .ok delivery.nodes
  suits : ∃ parents, delivery.fetch.Suits registry parents ∧
    ∀ parent ∈ parents, nodes[parent.1]?.bind LoadedNode.entity = some parent.2

namespace Delivery.IsPartOf

variable {delivery : Delivery} {registry : Registry} {nodes more : List LoadedNode}
  {node : LoadedNode} {child : ClassMapping}

theorem append (hpart : delivery.IsPartOf registry nodes) :
    delivery.IsPartOf registry (nodes ++ more) := by
  obtain ⟨parents, hsuits, hparents⟩ := hpart.suits
  refine ⟨hpart.routed, parents, hsuits, fun parent hparent => ?_⟩
  have hstands := hparents parent hparent
  rw [Option.bind_eq_some_iff] at hstands
  obtain ⟨holder, hholder, he⟩ := hstands
  rw [List.getElem?_append_left (List.getElem?_eq_some_iff.1 hholder).1, hholder,
    Option.bind_some, he]

/-- The rows of a delivery could all be given, and its nodes are those of the rows. -/
theorem exists_child (hpart : delivery.IsPartOf registry nodes) :
    ∃ child, registry.find? delivery.fetch.child.id = some child ∧
      delivery.fetch.IsRoutable child delivery.fetch.ownersOf delivery.rows ∧
      delivery.nodes =
        delivery.rows.flatMap (delivery.fetch.nodesOf child delivery.fetch.ownersOf) := by
  obtain ⟨parents, hsuits, _⟩ := hpart.suits
  obtain ⟨child, hchild⟩ := hsuits.childMapped
  have hrouted := hpart.routed
  rw [routeRows, Registry.mappingById_eq_ok.2 hchild, Result.ok_bind] at hrouted
  exact ⟨child, hchild, (Fetch.giveRows_eq_ok hsuits.served fun _ _ => rfl).1 hrouted⟩

/-- A delivered node is a row that was read and given to one of the owners. -/
theorem exists_row (hpart : delivery.IsPartOf registry nodes) (hnode : node ∈ delivery.nodes) :
    ∃ child, registry.find? delivery.fetch.child.id = some child ∧
      ∃ row e, ∃ owner ∈ delivery.fetch.ownerNumbers,
        child.hydrate row = .ok e ∧ node = ⟨some e, some owner, delivery.fetch.index⟩ := by
  obtain ⟨child, hchild, hroutable, hnodes⟩ := hpart.exists_child
  rw [hnodes, List.mem_flatMap] at hnode
  obtain ⟨row, hrow, hnode⟩ := hnode
  obtain ⟨e, hread⟩ := hroutable.readable row hrow
  obtain ⟨owner, howner, rfl⟩ := List.mem_map.1 hnode
  refine ⟨child, hchild, row, e, owner,
    (delivery.fetch.ownersOf_sublist row).subset howner, hread, ?_⟩
  rw [hread]
  rfl

/-- A delivered node was loaded for the relation of the query. -/
theorem relationIn?_eq (hpart : delivery.IsPartOf registry nodes)
    {owner : Nat} (howner : owner ∈ delivery.fetch.ownerNumbers)
    (hparent : node.parent = some owner) (hindex : node.relation = delivery.fetch.index) :
    node.relationIn? registry nodes = some delivery.fetch.relation := by
  obtain ⟨parents, hsuits, hparents⟩ := hpart.suits
  obtain ⟨e, mapping, hmember, hmapping, hrelation⟩ := hsuits.related owner howner
  have hstands := hparents _ hmember
  rw [Option.bind_eq_some_iff] at hstands
  obtain ⟨holder, hholder, he⟩ := hstands
  simp [LoadedNode.relationIn?, hparent, hholder, he, hmapping, hindex, hrelation]

end Delivery.IsPartOf

/-! ## One level -/

theorem IsLevelBelow.append {nodes more : List LoadedNode} {above level : List Nat}
    (hbelow : IsLevelBelow nodes above level) : IsLevelBelow (nodes ++ more) above level := by
  intro number hnumber
  obtain ⟨node, owner, hnode, howner, habove⟩ := hbelow number hnumber
  refine ⟨node, owner, ?_, howner, habove⟩
  rw [List.getElem?_append_left (List.getElem?_eq_some_iff.1 hnode).1, hnode]

/-- An arena grows by a level whose owners stand in the level before. -/
theorem IsArena.extend {nodes more : List LoadedNode} {above : List (List Nat)}
    {level : List Nat} (harena : IsArena nodes (above ++ [level]))
    (hmore : ∀ node ∈ more, node.entity.isSome ∧ ∃ owner ∈ level, node.parent = some owner) :
    IsArena (nodes ++ more)
      (above ++ [level] ++ [List.range' nodes.length more.length]) := by
  constructor
  · rw [List.flatten_append, harena.numbers, List.flatten_singleton, List.length_append,
      List.range_eq_range', List.range_eq_range']
    simpa using List.range'_append_1 (s := 0) (m := nodes.length) (n := more.length)
  · exact List.forall_mem_append.2 ⟨harena.filled, fun node hnode => (hmore node hnode).1⟩
  · intro first hfirst number hnumber node hnode
    have hhead : (above ++ [level]).head? = some first := by
      rwa [List.head?_append_of_ne_nil _ (by simp)] at hfirst
    have hmember : number ∈ (above ++ [level]).flatten :=
      List.mem_flatten_of_mem (List.mem_of_mem_head? hhead) hnumber
    rw [harena.numbers, List.mem_range] at hmember
    rw [List.getElem?_append_left hmember] at hnode
    exact harena.roots first hhead number hnumber node hnode
  · refine (harena.linked.imp fun _ _ hbelow => hbelow.append).append (.singleton _) ?_
    intro last hlast next hnext
    rw [List.getLast?_concat, Option.mem_some_iff] at hlast
    rw [List.head?_singleton, Option.mem_some_iff] at hnext
    subst hlast hnext
    intro number hnumber
    obtain ⟨hlower, hupper⟩ := List.mem_range'_1.1 hnumber
    have hbound : number - nodes.length < more.length := by omega
    obtain ⟨_, owner, howner, hparent⟩ := hmore _ (List.getElem_mem hbound)
    refine ⟨more[number - nodes.length], owner, ?_, hparent, howner⟩
    rw [List.getElem?_append_right hlower, List.getElem?_eq_getElem hbound]

/-! ## All levels -/

/-- What a load has gathered by the time that its last level stands. -/
structure IsGathered (registry : Registry) (roots : List Entity) (deliveries : List Delivery)
    (nodes : List LoadedNode) (levels : List (List Nat)) : Prop where
  nodes_eq : nodes = roots.map LoadedNode.root ++ deliveries.flatMap Delivery.nodes
  arena : IsArena nodes levels
  parts : ∀ delivery ∈ deliveries, delivery.IsPartOf registry nodes
  asked : ∀ delivery ∈ deliveries, ∀ owner ∈ delivery.fetch.ownerNumbers,
    owner ∈ levels.dropLast.flatten
  claimed : ((deliveries.map Delivery.fetch).flatMap Fetch.claims).Nodup

/-- The entities of a level with their numbers. -/
def standing (nodes : List LoadedNode) (level : List Nat) : Numbered :=
  level.map fun number => (number, loadedEntity nodes number)

section Levels

variable {registry : Registry} {dialect : Dialect} {roots : List Entity}
  {deliveries more : List Delivery} {nodes : List LoadedNode} {above levels : List (List Nat)}
  {level : List Nat} {fetches : List Fetch}

/-- At first there are the roots. -/
theorem isGathered_roots (registry : Registry) (roots : List Entity) :
    IsGathered registry roots [] (roots.map LoadedNode.root) [List.range roots.length] := by
  refine ⟨(List.append_nil _).symm, ⟨?_, ?_, ?_, .singleton _⟩, by simp, by simp, .nil⟩
  · rw [List.flatten_singleton, List.length_map]
  · exact List.forall_mem_map.2 fun e _ => rfl
  · intro _ _ number _ node hnode
    obtain ⟨e, _, rfl⟩ := List.mem_map.1 (List.mem_of_getElem? hnode)
    rfl

theorem IsGathered.nodup_level
    (hgathered : IsGathered registry roots deliveries nodes (above ++ [level])) :
    ((above ++ [level]).flatten).Nodup := by
  rw [hgathered.arena.numbers]
  exact List.nodup_range

/-- The nodes of the last level have their entities. -/
theorem IsGathered.exists_standing
    (hgathered : IsGathered registry roots deliveries nodes (above ++ [level])) {number : Nat}
    (hnumber : number ∈ level) :
    ∃ node, nodes[number]? = some node ∧ node.entity = some (loadedEntity nodes number) := by
  have hbound : number ∈ (above ++ [level]).flatten := by
    rw [List.flatten_append, List.flatten_singleton]
    exact List.mem_append_right _ hnumber
  rw [hgathered.arena.numbers, List.mem_range] at hbound
  have hnode := List.getElem?_eq_getElem hbound
  obtain ⟨e, he⟩ := Option.isSome_iff_exists.1
    (hgathered.arena.filled _ (List.mem_of_getElem? hnode))
  exact ⟨_, hnode, by rw [loadedEntity_eq hnode he, he]⟩

theorem IsGathered.numbered_eq
    (hgathered : IsGathered registry roots deliveries nodes (above ++ [level])) :
    numbered nodes level = .ok (standing nodes level) := by
  apply Result.mapM_eq_map
  intro number hnumber
  obtain ⟨node, hnode, he⟩ := hgathered.exists_standing hnumber
  rw [occupied_of_entity hnode he]
  rfl

/-- The queries that are planned for the last level ask for its nodes. -/
theorem IsGathered.suits_of_planned
    (hgathered : IsGathered registry roots deliveries nodes (above ++ [level]))
    (hplan : planLevel registry dialect (standing nodes level) = .ok fetches) :
    (∀ fetch ∈ fetches, fetch.Suits registry (standing nodes level) ∧
      ∀ owner ∈ fetch.ownerNumbers, owner ∈ level) ∧
    (fetches.flatMap Fetch.claims).Nodup := by
  have hnumbers : (standing nodes level).map Prod.fst = level := by
    rw [standing, List.map_map]
    exact List.map_id level
  have hnodup := hgathered.nodup_level
  rw [List.flatten_append, List.flatten_singleton, List.nodup_append] at hnodup
  obtain ⟨hsuits, hclaims⟩ := planLevel_spec (hnumbers.symm ▸ hnodup.2.1) hplan
  refine ⟨fun fetch hfetch => ⟨hsuits fetch hfetch, fun owner howner => ?_⟩, hclaims⟩
  obtain ⟨e, _, hmember, _⟩ := (hsuits fetch hfetch).related owner howner
  rw [← hnumbers]
  exact List.mem_map_of_mem hmember

/-- What is delivered to the last level is part of what was gathered. -/
theorem IsGathered.isPartOf
    (hgathered : IsGathered registry roots deliveries nodes (above ++ [level]))
    {delivery : Delivery} (hsuits : delivery.fetch.Suits registry (standing nodes level))
    (hrouted : routeRows registry delivery.fetch delivery.rows = .ok delivery.nodes) :
    delivery.IsPartOf registry nodes := by
  refine ⟨hrouted, _, hsuits, fun parent hparent => ?_⟩
  obtain ⟨number, hnumber, rfl⟩ := List.mem_map.1 hparent
  obtain ⟨node, hnode, he⟩ := hgathered.exists_standing hnumber
  rw [hnode, Option.bind_some, he]

/-- What the queries of the last level deliver makes up one level more. -/
theorem IsGathered.extend
    (hgathered : IsGathered registry roots deliveries nodes (above ++ [level]))
    (hplan : planLevel registry dialect (standing nodes level) = .ok fetches)
    (hmore : more.map Delivery.fetch = fetches)
    (hrouted : ∀ delivery ∈ more,
      routeRows registry delivery.fetch delivery.rows = .ok delivery.nodes) :
    IsGathered registry roots (deliveries ++ more) (nodes ++ more.flatMap Delivery.nodes)
      (above ++ [level] ++
        [List.range' nodes.length (more.flatMap Delivery.nodes).length]) := by
  subst hmore
  obtain ⟨hplanned, hclaims⟩ := hgathered.suits_of_planned hplan
  rw [List.forall_mem_map] at hplanned
  have hparts : ∀ delivery ∈ more, delivery.IsPartOf registry nodes := fun delivery hdelivery =>
    hgathered.isPartOf (hplanned delivery hdelivery).1 (hrouted delivery hdelivery)
  have hasked := hgathered.asked
  rw [List.dropLast_concat] at hasked
  constructor
  case nodes_eq => rw [hgathered.nodes_eq, List.flatMap_append, List.append_assoc]
  case arena =>
    apply hgathered.arena.extend
    intro node hnode
    obtain ⟨delivery, hdelivery, hnode⟩ := List.mem_flatMap.1 hnode
    obtain ⟨_, _, _, e, owner, howner, _, rfl⟩ := (hparts delivery hdelivery).exists_row hnode
    exact ⟨rfl, owner, (hplanned delivery hdelivery).2 owner howner, rfl⟩
  case parts =>
    exact List.forall_mem_append.2
      ⟨fun delivery hdelivery => (hgathered.parts delivery hdelivery).append,
        fun delivery hdelivery => (hparts delivery hdelivery).append⟩
  case asked =>
    rw [List.dropLast_concat, List.flatten_append, List.flatten_singleton]
    exact List.forall_mem_append.2
      ⟨fun delivery hdelivery owner howner =>
        List.mem_append_left _ (hasked delivery hdelivery owner howner),
        fun delivery hdelivery owner howner =>
          List.mem_append_right _ ((hplanned delivery hdelivery).2 owner howner)⟩
  case claimed =>
    -- the owners of the earlier deliveries are in the levels above
    have hnodup := hgathered.nodup_level
    rw [List.flatten_append, List.flatten_singleton, List.nodup_append] at hnodup
    rw [List.map_append]
    refine Fetch.nodup_claims_append hgathered.claimed hclaims ?_
    rw [List.forall_mem_map]
    intro delivery hdelivery
    rw [List.forall_mem_map]
    intro delivery' hdelivery' owner howner howner'
    exact hnodup.2.2 owner (hasked delivery hdelivery owner howner) owner
      ((hplanned delivery' hdelivery').2 owner howner') rfl

/-- What a load does below a level: it plans queries for the entities of the level and
routes what they deliver, which is the next level, until nothing is left to ask for. -/
inductive LoadsBelow (registry : Registry) (dialect : Dialect) :
    List LoadedNode → List Nat → List Delivery → List LoadedNode → List (List Nat) → Prop
  | last {nodes : List LoadedNode} {level : List Nat} {parents : Numbered}
      (hparents : numbered nodes level = .ok parents)
      (hplan : planLevel registry dialect parents = .ok []) :
      LoadsBelow registry dialect nodes level [] nodes []
  | further {nodes complete : List LoadedNode} {level : List Nat} {parents : Numbered}
      {here deeper : List Delivery} {below : List (List Nat)}
      (hparents : numbered nodes level = .ok parents)
      (hplan : planLevel registry dialect parents = .ok (here.map Delivery.fetch))
      (hrouted : ∀ delivery ∈ here,
        routeRows registry delivery.fetch delivery.rows = .ok delivery.nodes)
      (hbelow : LoadsBelow registry dialect (nodes ++ here.flatMap Delivery.nodes)
        (List.range' nodes.length (here.flatMap Delivery.nodes).length) deeper complete
        below) :
      LoadsBelow registry dialect nodes level (here ++ deeper) complete
        (List.range' nodes.length (here.flatMap Delivery.nodes).length :: below)

/-- What is loaded below a level is gathered with the rest. -/
theorem LoadsBelow.isGathered {complete : List LoadedNode} {below : List (List Nat)}
    (hloads : LoadsBelow registry dialect nodes level more complete below)
    (hgathered : IsGathered registry roots deliveries nodes (above ++ [level])) :
    IsGathered registry roots (deliveries ++ more) complete (above ++ level :: below) := by
  induction hloads generalizing deliveries above with
  | last => rwa [List.append_nil]
  | further hparents hplan hrouted hbelow ih =>
      obtain rfl := Except.ok.inj (hgathered.numbered_eq.symm.trans hparents)
      have hall := ih (hgathered.extend hplan rfl hrouted)
      rwa [List.append_assoc, List.append_assoc, List.singleton_append] at hall

/-- What is loaded below the roots is gathered with them. -/
theorem LoadsBelow.isGathered_of_roots {below : List (List Nat)}
    (hloads : LoadsBelow registry dialect (roots.map LoadedNode.root) (List.range roots.length)
      deliveries nodes below) :
    IsGathered registry roots deliveries nodes (List.range roots.length :: below) := by
  have hstart : IsGathered registry roots [] (roots.map LoadedNode.root)
      ([] ++ [List.range roots.length]) := isGathered_roots registry roots
  exact hloads.isGathered hstart

end Levels

/-! ## One owner -/

section Owners

variable {registry : Registry} {roots : List Entity} {deliveries : List Delivery}
  {nodes : List LoadedNode} {levels : List (List Nat)} {delivery : Delivery} {owner : Nat}

/-- Was a node loaded for an owner through the relation at an index? -/
def LoadedNode.isFor (owner index : Nat) (node : LoadedNode) : Bool :=
  node.parent == some owner && node.relation == index

theorem map_loadedThrough (nodes : List LoadedNode) (owner index : Nat) :
    (loadedThrough nodes owner index).map (nodes[·]?) =
      (nodes.filter (LoadedNode.isFor owner index)).map some := by
  have hall : (List.range nodes.length).map (nodes[·]?) = nodes.map some := by
    apply List.ext_getElem (by simp)
    intro number hrange hmap
    rw [List.length_map] at hmap
    simp [List.getElem?_eq_getElem hmap]
  have hthrough : loadedThrough nodes owner index = (List.range nodes.length).filter fun number =>
      nodes[number]?.any (LoadedNode.isFor owner index) := by
    rw [loadedThrough, childrenOf, List.filter_filter]
    apply List.filter_congr
    intro number hnumber
    rw [isLoadedFor, List.getElem?_eq_getElem (List.mem_range.1 hnumber)]
    exact Bool.and_comm _ _
  calc (loadedThrough nodes owner index).map (nodes[·]?)
      = ((List.range nodes.length).map (nodes[·]?)).filter
          (Option.any (LoadedNode.isFor owner index)) := by
        rw [hthrough, List.filter_map]
        rfl
    _ = (nodes.filter (LoadedNode.isFor owner index)).map some := by
        rw [hall, List.filter_map]
        rfl

/-- A row gives a node to an owner exactly if the owner has its foreign key value. -/
theorem filter_nodesOf {fetch : Fetch} {child : ClassMapping}
    (hnodup : fetch.ownerNumbers.Nodup) (rows : List Row) :
    (rows.flatMap (fetch.nodesOf child fetch.ownersOf)).filter
        (LoadedNode.isFor owner fetch.index) =
      (rows.filter fun row => decide (owner ∈ fetch.ownersOf row)).map fun row =>
        ⟨(child.hydrate row).toOption, some owner, fetch.index⟩ := by
  have hrow : ∀ row, (fetch.nodesOf child fetch.ownersOf row).filter
      (LoadedNode.isFor owner fetch.index) =
        if owner ∈ fetch.ownersOf row then
          [⟨(child.hydrate row).toOption, some owner, fetch.index⟩] else [] := by
    intro row
    have hcount := (hnodup.sublist (fetch.ownersOf_sublist row)).count (a := owner)
    have hfilter : (fetch.ownersOf row).filter (fun other =>
        LoadedNode.isFor owner fetch.index
          ⟨(child.hydrate row).toOption, some other, fetch.index⟩) =
        List.replicate ((fetch.ownersOf row).count owner) owner := by
      rw [← List.filter_beq]
      apply List.filter_congr
      intro other _
      simp [LoadedNode.isFor]
    rw [Fetch.nodesOf, List.filter_map]
    change ((fetch.ownersOf row).filter _).map _ = _
    rw [Function.comp_def, hfilter, hcount]
    split <;> rfl
  rw [List.filter_flatMap]
  induction rows with
  | nil => rfl
  | cons row rest ih =>
      rw [List.flatMap_cons, ih, hrow, List.filter_cons]
      by_cases howner : owner ∈ fetch.ownersOf row <;> simp [howner]

/-- Of all deliveries only one can have nodes for an owner in a relation that its query
asks for. -/
theorem IsGathered.filter_eq (hgathered : IsGathered registry roots deliveries nodes levels)
    (hdelivery : delivery ∈ deliveries) (howner : owner ∈ delivery.fetch.ownerNumbers) :
    nodes.filter (LoadedNode.isFor owner delivery.fetch.index) =
      delivery.nodes.filter (LoadedNode.isFor owner delivery.fetch.index) := by
  have hroots : (roots.map LoadedNode.root).filter
      (LoadedNode.isFor owner delivery.fetch.index) = [] := by
    rw [List.filter_eq_nil_iff]
    exact List.forall_mem_map.2 fun e _ => by simp [LoadedNode.root, LoadedNode.isFor]
  have hclaim : (delivery.fetch.index, owner) ∈ delivery.fetch.claims :=
    List.mem_map_of_mem howner
  have hother : ∀ others ⊆ deliveries,
      (∀ other ∈ others, (delivery.fetch.index, owner) ∉ other.fetch.claims) →
      (others.flatMap Delivery.nodes).filter
        (LoadedNode.isFor owner delivery.fetch.index) = [] := by
    intro others hothers hclaims
    rw [List.filter_eq_nil_iff]
    intro node hnode hfor
    obtain ⟨other, hmember, hnode⟩ := List.mem_flatMap.1 hnode
    obtain ⟨_, _, _, _, owner', howner', _, rfl⟩ :=
      (hgathered.parts other (hothers hmember)).exists_row hnode
    simp only [LoadedNode.isFor, Bool.and_eq_true, beq_iff_eq, Option.some.injEq] at hfor
    obtain ⟨rfl, hindex⟩ := hfor
    apply hclaims other hmember
    rw [← hindex]
    exact List.mem_map_of_mem howner'
  obtain ⟨before, after, rfl⟩ := List.append_of_mem hdelivery
  have hclaimed := hgathered.claimed
  rw [List.flatMap_map, List.flatMap_append, List.flatMap_cons, List.nodup_append,
    List.nodup_append] at hclaimed
  obtain ⟨_, ⟨_, _, hafter⟩, hbefore⟩ := hclaimed
  rw [hgathered.nodes_eq, List.filter_append, hroots, List.nil_append, List.flatMap_append,
    List.flatMap_cons, List.filter_append, List.filter_append, hother before (by simp) ?_,
    hother after (by simp) ?_, List.nil_append, List.append_nil]
  · intro other hmember hboth
    exact hafter _ hclaim _ (List.mem_flatMap_of_mem hmember hboth) rfl
  · intro other hmember hboth
    exact hbefore _ (List.mem_flatMap_of_mem hmember hboth) _
      (List.mem_append_left _ hclaim) rfl

theorem IsGathered.nodup_ownerNumbers
    (hgathered : IsGathered registry roots deliveries nodes levels)
    (hdelivery : delivery ∈ deliveries) : delivery.fetch.ownerNumbers.Nodup := by
  refine List.Nodup.of_map (fun owner => (delivery.fetch.index, owner)) ?_
  exact (List.nodup_flatMap.1 hgathered.claimed).1 _ (List.mem_map_of_mem hdelivery)

/-- The nodes of an owner in a relation that was asked for are the rows that have the value
of the owner, in the order in which they came. -/
theorem IsGathered.map_loadedThrough_eq
    (hgathered : IsGathered registry roots deliveries nodes levels)
    (hdelivery : delivery ∈ deliveries) (howner : owner ∈ delivery.fetch.ownerNumbers)
    {child : ClassMapping} (hchild : delivery.nodes =
      delivery.rows.flatMap (delivery.fetch.nodesOf child delivery.fetch.ownersOf)) :
    (loadedThrough nodes owner delivery.fetch.index).map (nodes[·]?) =
      (delivery.rows.filter fun row => decide (owner ∈ delivery.fetch.ownersOf row)).map
        fun row => some ⟨(child.hydrate row).toOption, some owner, delivery.fetch.index⟩ := by
  rw [map_loadedThrough, hgathered.filter_eq hdelivery howner, hchild,
    filter_nodesOf (hgathered.nodup_ownerNumbers hdelivery), List.map_map]
  rfl

/-- A node that has an owner was delivered. -/
theorem IsGathered.exists_delivery
    (hgathered : IsGathered registry roots deliveries nodes levels) {number : Nat}
    {node : LoadedNode} (hnode : nodes[number]? = some node)
    (hparent : node.parent = some owner) :
    ∃ delivery ∈ deliveries, node ∈ delivery.nodes ∧
      owner ∈ delivery.fetch.ownerNumbers ∧ node.relation = delivery.fetch.index ∧
      node.relationIn? registry nodes = some delivery.fetch.relation := by
  have hmember := List.mem_of_getElem? hnode
  rw [hgathered.nodes_eq, List.mem_append] at hmember
  rcases hmember with hroot | hdelivered
  · obtain ⟨e, _, rfl⟩ := List.mem_map.1 hroot
    cases hparent
  · obtain ⟨delivery, hdelivery, hmember⟩ := List.mem_flatMap.1 hdelivered
    have hpart := hgathered.parts delivery hdelivery
    obtain ⟨_, _, _, _, owner', howner, _, hgiven⟩ := hpart.exists_row hmember
    obtain rfl : owner' = owner := by simpa [hgiven] using hparent
    have hindex : node.relation = delivery.fetch.index := by rw [hgiven]
    exact ⟨delivery, hdelivery, hmember, howner, hindex,
      hpart.relationIn?_eq howner hparent hindex⟩

theorem Relation.isMany_slot {relation : Relation} :
    relation.slot.isMany = true ↔ relation.cardinality ≠ .oneToOne := by
  rw [slot, cardinality]
  cases relation.form <;> simp [Slot.isMany]

/-- A relation with a single child was given to no owner twice. -/
theorem IsGathered.length_loadedThrough_le_one
    (hgathered : IsGathered registry roots deliveries nodes levels)
    (hdelivery : delivery ∈ deliveries) (howner : owner ∈ delivery.fetch.ownerNumbers)
    (hsingle : delivery.fetch.relation.cardinality = .oneToOne) :
    (loadedThrough nodes owner delivery.fetch.index).length ≤ 1 := by
  obtain ⟨child, _, hroutable, hnodes⟩ := (hgathered.parts delivery hdelivery).exists_child
  have hlength := congrArg List.length
    (hgathered.map_loadedThrough_eq hdelivery howner hnodes)
  rw [List.length_map, List.length_map] at hlength
  have hdisjoint := (List.nodup_flatMap.1 (hroutable.single hsingle)).2.sublist
    (List.filter_sublist (p := fun row => decide (owner ∈ delivery.fetch.ownersOf row)))
  rw [hlength]
  by_contra hmany
  rw [Nat.not_le] at hmany
  have howned : ∀ row ∈ delivery.rows.filter fun row =>
      decide (owner ∈ delivery.fetch.ownersOf row), owner ∈ delivery.fetch.ownersOf row :=
    fun row hrow => of_decide_eq_true (List.mem_filter.1 hrow).2
  exact List.pairwise_iff_getElem.1 hdisjoint 0 1 (Nat.zero_lt_of_lt hmany) hmany
    Nat.zero_lt_one (howned _ (List.getElem_mem (Nat.zero_lt_of_lt hmany)))
    (howned _ (List.getElem_mem hmany))

/-- Nodes of one owner share only slots that hold lists. -/
theorem IsGathered.sharesOnlyLists
    (hgathered : IsGathered registry roots deliveries nodes levels)
    (hslots : ∀ mapping ∈ registry.mappings, (mapping.relations.map Relation.slot).Nodup) :
    SharesOnlyLists registry nodes := by
  intro number other hdiffer owner hloaded hloaded' hslot
  rw [isLoadedFor, beq_iff_eq, Option.bind_eq_some_iff] at hloaded hloaded'
  obtain ⟨node, hnode, hparent⟩ := hloaded
  obtain ⟨node', hnode', hparent'⟩ := hloaded'
  obtain ⟨delivery, hdelivery, _, howner, hindex, hrelation⟩ :=
    hgathered.exists_delivery hnode hparent
  obtain ⟨_, _, _, _, _, hrelation'⟩ := hgathered.exists_delivery hnode' hparent'
  rw [slotOf_eq hnode hrelation, slotOf_eq hnode' hrelation'] at hslot
  have hsame := relation_eq_of_slot_eq hslots hparent hparent' hrelation hrelation' hslot
  rw [slotOf_eq hnode hrelation, Relation.isMany_slot]
  intro hsingle
  have hlength := hgathered.length_loadedThrough_le_one hdelivery howner hsingle
  have hfirst : number ∈ loadedThrough nodes owner delivery.fetch.index :=
    (mem_loadedThrough hnode).2 ⟨hparent, hindex⟩
  have hsecond : other ∈ loadedThrough nodes owner delivery.fetch.index :=
    (mem_loadedThrough hnode').2 ⟨hparent', hsame ▸ hindex⟩
  obtain ⟨first, hbound, rfl⟩ := List.getElem_of_mem hfirst
  obtain ⟨second, hbound', rfl⟩ := List.getElem_of_mem hsecond
  have hzero : first = 0 ∧ second = 0 := by omega
  obtain ⟨rfl, rfl⟩ := hzero
  exact hdiffer rfl

end Owners

end AggregateSync
