import AggregateSync.Proofs.Graph.Assembly

/-!
# Where loaded nodes end up

The place of a node is known from the nodes alone: a root is the root of a tree of its own,
and a child stands below its owner, in the slot of its relation, behind those that were
loaded for the same owner and relation before it.  In the assembled trees every node stands
at its place and nothing stands anywhere else, so no node is lost and none occurs twice.
-/

namespace AggregateSync

/-- The numbers of the nodes that were loaded for an owner through one of its relations. -/
def loadedThrough (nodes : List LoadedNode) (owner index : Nat) : List Nat :=
  (childrenOf nodes owner).filter fun number =>
    nodes[number]?.map LoadedNode.relation == some index

/-- Where the entity of a node belongs: the root of its tree and the address there. -/
inductive StandsAt (registry : Registry) (nodes : List LoadedNode) : Nat → Nat × Address → Prop
  | root {number : Nat} {node : LoadedNode} (hnode : nodes[number]? = some node)
      (hroot : node.parent = none) : StandsAt registry nodes number (number, [])
  | child {number owner root : Nat} {node : LoadedNode} {address : Address}
      {relation : Relation} (hnode : nodes[number]? = some node)
      (howner : node.parent = some owner)
      (hrelation : node.relationIn? registry nodes = some relation)
      (habove : StandsAt registry nodes owner (root, address)) :
      StandsAt registry nodes number (root, address ++
        [(relation.slot, (loadedThrough nodes owner node.relation).idxOf number)])

theorem Entity.at?_append (address rest : Address) (e : Entity) :
    e.at? (address ++ rest) = (e.at? address).bind (at? rest) := by
  induction address generalizing e with
  | nil => rfl
  | cons step later ih =>
      obtain ⟨slot, index⟩ := step
      rw [List.cons_append, at?, at?]
      cases (e.children slot)[index]? with
      | none => rfl
      | some child => exact ih child

section Places

variable {registry : Registry} {nodes : List LoadedNode} {number owner root : Nat}
  {node other : LoadedNode} {relation : Relation}

theorem mem_childrenOf (hnode : nodes[number]? = some node) :
    number ∈ childrenOf nodes owner ↔ node.parent = some owner := by
  rw [childrenOf, List.mem_filter, List.mem_range, isLoadedFor, hnode, Option.bind_some,
    beq_iff_eq, and_iff_right (List.getElem?_eq_some_iff.1 hnode).1]

theorem mem_loadedThrough {index : Nat} (hnode : nodes[number]? = some node) :
    number ∈ loadedThrough nodes owner index ↔
      node.parent = some owner ∧ node.relation = index := by
  rw [loadedThrough, List.mem_filter, mem_childrenOf hnode, hnode, Option.map_some, beq_iff_eq,
    Option.some.injEq]

theorem exists_node_of_mem_childrenOf (hnumber : number ∈ childrenOf nodes owner) :
    ∃ node, nodes[number]? = some node ∧ node.parent = some owner := by
  have hbound := List.mem_range.1 (List.mem_filter.1 hnumber).1
  exact ⟨_, List.getElem?_eq_getElem hbound,
    (mem_childrenOf (List.getElem?_eq_getElem hbound)).1 hnumber⟩

theorem nodup_loadedThrough (owner index : Nat) : (loadedThrough nodes owner index).Nodup :=
  (List.nodup_range.filter _).filter _

/-- Two nodes of one owner are loaded through the same relation if they go to one slot. -/
theorem relation_eq_of_slot_eq
    (hslots : ∀ mapping ∈ registry.mappings, (mapping.relations.map Relation.slot).Nodup)
    (hnode : node.parent = some owner) (hother : other.parent = some owner)
    {relation' : Relation} (hrelation : node.relationIn? registry nodes = some relation)
    (hrelation' : other.relationIn? registry nodes = some relation')
    (hsame : relation.slot = relation'.slot) : node.relation = other.relation := by
  simp only [LoadedNode.relationIn?, hnode, hother, Option.bind_eq_bind, Option.bind_some,
    Option.bind_eq_some_iff] at hrelation hrelation'
  obtain ⟨holder, hholder, e, he, mapping, hmapping, hindex⟩ := hrelation
  obtain ⟨holder', hholder', e', he', mapping', hmapping', hindex'⟩ := hrelation'
  obtain rfl := Option.some.inj (hholder.symm.trans hholder')
  obtain rfl := Option.some.inj (he.symm.trans he')
  obtain rfl := Option.some.inj (hmapping.symm.trans hmapping')
  have hnodup := hslots mapping (List.mem_of_find?_eq_some hmapping)
  apply (List.getElem?_inj (by
    rw [List.length_map]
    exact (List.getElem?_eq_some_iff.1 hindex).1) hnodup).1
  rw [List.getElem?_map, List.getElem?_map, hindex, hindex', Option.map_some, Option.map_some,
    hsame]

theorem slotOf_eq (hnode : nodes[number]? = some node)
    (hrelation : node.relationIn? registry nodes = some relation) :
    slotOf registry nodes number = relation.slot := by
  rw [slotOf, hnode, Option.bind_some, hrelation, Option.elim_some]

/-- A node has one place. -/
theorem StandsAt.functional {place place' : Nat × Address}
    (hplace : StandsAt registry nodes number place)
    (hplace' : StandsAt registry nodes number place') : place = place' := by
  induction hplace generalizing place' with
  | root hnode hroot =>
      cases hplace' with
      | root => rfl
      | child hnode' howner =>
          rw [Option.some.inj (hnode.symm.trans hnode'), howner] at hroot
          cases hroot
  | child hnode howner hrelation habove ih =>
      cases hplace' with
      | root hnode' hroot =>
          rw [Option.some.inj (hnode'.symm.trans hnode), howner] at hroot
          cases hroot
      | child hnode' howner' hrelation' habove' =>
          obtain rfl := Option.some.inj (hnode.symm.trans hnode')
          obtain rfl := Option.some.inj (howner.symm.trans howner')
          obtain rfl := Option.some.inj (hrelation.symm.trans hrelation')
          obtain ⟨rfl, rfl⟩ := Prod.mk.inj (ih habove')
          rfl

/-- No two nodes have the same place. -/
theorem StandsAt.injective
    (hslots : ∀ mapping ∈ registry.mappings, (mapping.relations.map Relation.slot).Nodup)
    {number' : Nat} {place : Nat × Address} (hplace : StandsAt registry nodes number place)
    (hplace' : StandsAt registry nodes number' place) : number = number' := by
  induction hplace generalizing number' with
  | root hnode hroot =>
      generalize hroots : (_, []) = place at hplace'
      cases hplace' with
      | root => exact (Prod.mk.inj hroots).1
      | child => exact absurd (Prod.mk.inj hroots).2.symm (by simp)
  | @child number owner root node address relation hnode howner hrelation habove ih =>
      generalize hends : (root, address ++ _) = place at hplace'
      cases hplace' with
      | root => exact absurd (Prod.mk.inj hends).2 (by simp)
      | @child _ owner' root' node' address' relation' hnode' howner' hrelation' habove' =>
          obtain ⟨rfl, haddress⟩ := Prod.mk.inj hends
          obtain ⟨rfl, hlast⟩ := List.append_inj' haddress rfl
          obtain rfl := ih habove'
          obtain ⟨hslot, hindex⟩ := Prod.mk.inj (List.singleton_inj.1 hlast)
          have hsame := relation_eq_of_slot_eq hslots howner howner' hrelation hrelation' hslot
          rw [← hsame] at hindex
          exact (List.idxOf_inj ((mem_loadedThrough hnode).2 ⟨howner, rfl⟩)).1 hindex

/-- A place is in the tree of a node that has no owner. -/
theorem StandsAt.exists_root {place : Nat × Address}
    (hplace : StandsAt registry nodes number place) :
    ∃ node, nodes[place.1]? = some node ∧ node.parent = none := by
  induction hplace with
  | root hnode hroot => exact ⟨_, hnode, hroot⟩
  | child _ _ _ _ ih => exact ih

/-- Every node of an arena has a place. -/
theorem IsArena.exists_place {roots : List Nat} {below : List (List Nat)}
    (harena : IsArena nodes (roots :: below))
    (hrelated : ∀ (number : Nat) node, nodes[number]? = some node → node.parent.isSome →
      ∃ relation, node.relationIn? registry nodes = some relation)
    (hnumber : number < nodes.length) : ∃ place, StandsAt registry nodes number place := by
  have hroots : ∀ number ∈ roots, ∃ place, StandsAt registry nodes number place := by
    intro number hroot
    have hnode := List.getElem?_eq_getElem (harena.lt (List.mem_append_left _ hroot))
    exact ⟨_, .root hnode (harena.roots roots rfl number hroot _ hnode)⟩
  have hlevels : ∀ above below, (above :: below).IsChain (IsLevelBelow nodes) →
      (∀ number ∈ above, ∃ place, StandsAt registry nodes number place) →
      ∀ number ∈ (above :: below).flatten, ∃ place, StandsAt registry nodes number place := by
    intro above below
    induction below generalizing above with
    | nil => simp
    | cons level rest ih =>
        intro hlinked habove number hmem
        rw [List.isChain_cons_cons] at hlinked
        rw [List.flatten_cons, List.mem_append] at hmem
        rcases hmem with hhere | hdeeper
        · exact habove number hhere
        · refine ih level hlinked.2 ?_ number hdeeper
          intro child hchild
          obtain ⟨node, owner, hnode, howner, hmember⟩ := hlinked.1 child hchild
          obtain ⟨relation, hrelation⟩ := hrelated child node hnode (by rw [howner]; rfl)
          obtain ⟨⟨root, address⟩, hplace⟩ := habove owner hmember
          exact ⟨_, .child hnode howner hrelation hplace⟩
  refine hlevels roots below harena.linked hroots number ?_
  rw [harena.numbers, List.mem_range]
  exact hnumber

end Places

section Assembled

variable {registry : Registry} {nodes : List LoadedNode} {whole : Nat → Entity}
  {number owner root : Nat} {node : LoadedNode} {relation : Relation} {address : Address}

/-- The children of an owner in the slot of a relation are those that were loaded through
the relation. -/
theorem IsAssembled.children_eq (hassembled : IsAssembled registry nodes whole)
    (hshares : SharesOnlyLists registry nodes)
    (hslots : ∀ mapping ∈ registry.mappings, (mapping.relations.map Relation.slot).Nodup)
    (howner : node.parent = some owner)
    (hrelation : node.relationIn? registry nodes = some relation)
    (hbound : owner < nodes.length) :
    (whole owner).children relation.slot =
      (loadedThrough nodes owner node.relation).map whole := by
  have hfilter : ((childrenOf nodes owner).filter fun child =>
      decide (slotOf registry nodes child = relation.slot)) =
        loadedThrough nodes owner node.relation := by
    rw [loadedThrough]
    apply List.filter_congr
    intro child hchild
    obtain ⟨found, hfound, hparent⟩ := exists_node_of_mem_childrenOf hchild
    obtain ⟨relation', hrelation'⟩ := hassembled.related child found hfound (by rw [hparent]; rfl)
    rw [slotOf_eq hfound hrelation', hfound, Option.map_some, Bool.eq_iff_iff, decide_eq_true_iff,
      beq_iff_eq, Option.some.injEq]
    constructor
    · exact relation_eq_of_slot_eq hslots hparent howner hrelation' hrelation
    · intro hsame
      simp only [LoadedNode.relationIn?, hparent, howner, hsame] at hrelation hrelation'
      rw [Option.some.inj (hrelation'.symm.trans hrelation)]
  have hall : (((whole owner).members.filter fun member =>
      decide (member.1 = relation.slot)).map Prod.snd) =
        (loadedThrough nodes owner node.relation).map whole := by
    rw [hassembled.members owner hbound, List.filter_map, List.map_map, ← hfilter]
    rfl
  rw [Entity.children, Entity.inSlot, hall]
  split
  case isTrue => rfl
  case isFalse hsingle =>
    -- a slot for a single entity was loaded for no other node
    apply List.take_of_length_le
    rw [List.length_map]
    by_contra hmany
    rw [Nat.not_le] at hmany
    have hslotted : ∀ child ∈ loadedThrough nodes owner node.relation,
        isLoadedFor nodes owner child = true ∧ slotOf registry nodes child = relation.slot := by
      intro child hchild
      rw [← hfilter, List.mem_filter, decide_eq_true_iff] at hchild
      exact ⟨(List.mem_filter.1 hchild.1).2, hchild.2⟩
    have hfirst := hslotted _ (List.getElem_mem (Nat.zero_lt_of_lt hmany))
    have hsecond := hslotted _ (List.getElem_mem hmany)
    have hdiffer := List.pairwise_iff_getElem.1 (nodup_loadedThrough owner node.relation) 0 1
      (Nat.zero_lt_of_lt hmany) hmany Nat.zero_lt_one
    apply hsingle
    rw [← hfirst.2]
    exact hshares _ _ hdiffer owner hfirst.1 hsecond.1 (hfirst.2.trans hsecond.2.symm)

theorem StandsAt.lt {place : Nat × Address} (hplace : StandsAt registry nodes number place) :
    number < nodes.length := by
  cases hplace with
  | root hnode => exact (List.getElem?_eq_some_iff.1 hnode).1
  | child hnode => exact (List.getElem?_eq_some_iff.1 hnode).1

/-- Every node stands at its place. -/
theorem IsAssembled.at?_of_standsAt (hassembled : IsAssembled registry nodes whole)
    (hshares : SharesOnlyLists registry nodes)
    (hslots : ∀ mapping ∈ registry.mappings, (mapping.relations.map Relation.slot).Nodup)
    {place : Nat × Address} (hplace : StandsAt registry nodes number place) :
    (whole place.1).at? place.2 = some (whole number) := by
  induction hplace with
  | root => rfl
  | child hnode howner hrelation habove ih =>
      rw [Entity.at?_append, ih, Option.bind_some, Entity.at?_singleton,
        hassembled.children_eq hshares hslots howner hrelation habove.lt, List.getElem?_map,
        List.getElem?_idxOf ((mem_loadedThrough hnode).2 ⟨howner, rfl⟩), Option.map_some]

/-- Whatever stands in an assembled tree is a node at its place. -/
theorem IsAssembled.exists_standsAt (hassembled : IsAssembled registry nodes whole)
    (hshares : SharesOnlyLists registry nodes)
    (hslots : ∀ mapping ∈ registry.mappings, (mapping.relations.map Relation.slot).Nodup)
    (hroot : nodes[root]? = some node) (hparent : node.parent = none) {e : Entity}
    (hat : (whole root).at? address = some e) :
    ∃ number, StandsAt registry nodes number (root, address) ∧ e = whole number := by
  induction address using List.reverseRecOn generalizing e with
  | nil => exact ⟨root, .root hroot hparent, (Option.some.inj hat).symm⟩
  | append_singleton address step ih =>
      obtain ⟨slot, index⟩ := step
      rw [Entity.at?_append, Option.bind_eq_some_iff] at hat
      obtain ⟨holder, hholder, hchild⟩ := hat
      obtain ⟨owner, habove, rfl⟩ := ih hholder
      rw [Entity.at?_singleton] at hchild
      -- the slot is that of a relation through which children of the owner were loaded
      have hmember := Entity.mem_of_mem_inSlot (List.mem_of_getElem? hchild)
      rw [hassembled.members owner habove.lt, List.mem_map] at hmember
      obtain ⟨sibling, hsibling, hpair⟩ := hmember
      obtain ⟨found, hfound, howner⟩ := exists_node_of_mem_childrenOf hsibling
      obtain ⟨relation, hrelation⟩ :=
        hassembled.related sibling found hfound (by rw [howner]; rfl)
      obtain rfl : relation.slot = slot :=
        (slotOf_eq hfound hrelation).symm.trans (Prod.mk.inj hpair).1
      rw [hassembled.children_eq hshares hslots howner hrelation habove.lt, List.getElem?_map,
        Option.map_eq_some_iff] at hchild
      obtain ⟨number, hnumber, rfl⟩ := hchild
      obtain ⟨hindex, hget⟩ := List.getElem?_eq_some_iff.1 hnumber
      have hmem := List.mem_of_getElem? hnumber
      obtain ⟨child, hchildNode, hchildOwner⟩ :=
        exists_node_of_mem_childrenOf (List.mem_filter.1 hmem).1
      have hsame := ((mem_loadedThrough hchildNode).1 hmem).2
      have hthrough : child.relationIn? registry nodes = some relation := by
        rw [← hrelation, LoadedNode.relationIn?, LoadedNode.relationIn?, hchildOwner, howner,
          hsame]
      have hplace := StandsAt.child hchildNode hchildOwner hthrough habove
      have hposition : (loadedThrough nodes owner child.relation).idxOf number = index := by
        rw [hsame, ← hget]
        exact (nodup_loadedThrough owner found.relation).idxOf_getElem index hindex
      rw [hposition] at hplace
      exact ⟨number, hplace, rfl⟩

end Assembled

end AggregateSync
