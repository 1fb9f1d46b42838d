import AggregateSync.Graph.Assembly
import AggregateSync.Proofs.Graph.Address
import AggregateSync.Proofs.Graph.Resolution
import AggregateSync.Proofs.Mapping.Soundness

/-!
# Assembled trees

Loaded nodes are numbered level by level, and each but the roots names an owner in the
level above.  Attaching goes through the numbers from the deepest level up, so when a node
is moved its owner still stands and everything below the node is in place already.  The
invariant of the loop gives every number the entity that it stands for so far: the loaded
one with those children attached whose turn has come.
Where the owner of each node has the relation for which the node was loaded, nothing can go
wrong.
-/

namespace AggregateSync

open Result (FailsWithin failsWithin_ok)

/-- The relation that a node was loaded for, as the class of its owner has it. -/
def LoadedNode.relationIn? (registry : Registry) (nodes : List LoadedNode)
    (node : LoadedNode) : Option Relation := do
  let holder ← nodes[← node.parent]?
  let mapping ← registry.find? (← holder.entity).type.id
  mapping.relations[node.relation]?

/-- The owner of a node has the relation that the node was loaded for, and this may hold what
was loaded. -/
def LoadedNode.Fits (registry : Registry) (nodes : List LoadedNode) (node : LoadedNode) : Prop :=
  node.parent.isSome → ∃ relation e, node.relationIn? registry nodes = some relation ∧
    node.entity = some e ∧ ∃ target ∈ relation.targets, e.type.same target.type = true

/-- The slot that the entity of a node is attached to. -/
def slotOf (registry : Registry) (nodes : List LoadedNode) (number : Nat) : Slot :=
  (nodes[number]?.bind (LoadedNode.relationIn? registry nodes)).elim (.dynamic 0) Relation.slot

/-- Was a node loaded for an owner? -/
def isLoadedFor (nodes : List LoadedNode) (owner number : Nat) : Bool :=
  nodes[number]?.bind LoadedNode.parent == some owner

/-- The numbers of the nodes that were loaded for an owner. -/
def childrenOf (nodes : List LoadedNode) (owner : Nat) : List Nat :=
  (List.range nodes.length).filter (isLoadedFor nodes owner)

/-- The numbers of a level belong to nodes whose owners are in the level above. -/
def IsLevelBelow (nodes : List LoadedNode) (above level : List Nat) : Prop :=
  ∀ number ∈ level, ∃ node owner, nodes[number]? = some node ∧ node.parent = some owner ∧
    owner ∈ above

/-- Loaded nodes, numbered level by level from the roots down. -/
structure IsArena (nodes : List LoadedNode) (levels : List (List Nat)) : Prop where
  numbers : levels.flatten = List.range nodes.length
  filled : ∀ node ∈ nodes, node.entity.isSome
  roots : ∀ level, levels.head? = some level → ∀ number ∈ level, ∀ node,
    nodes[number]? = some node → node.parent = none
  linked : levels.IsChain (IsLevelBelow nodes)

/-- No two nodes of one owner share a slot that holds a single entity. -/
def SharesOnlyLists (registry : Registry) (nodes : List LoadedNode) : Prop :=
  ∀ number other, number ≠ other → ∀ owner, isLoadedFor nodes owner number = true →
    isLoadedFor nodes owner other = true →
      slotOf registry nodes number = slotOf registry nodes other →
        (slotOf registry nodes number).isMany = true

/-! ## One node -/

/-- What every number stands for so far: a node that is not done holds it, and it shows
what was loaded. -/
structure StandsFor (nodes : List LoadedNode) (done : List Nat) (state : List LoadedNode)
    (whole : Nat → Entity) : Prop where
  standing : ∀ number node, nodes[number]? = some node → number ∉ done →
    state[number]? = some { node with entity := some (whole number) }
  label : ∀ (number : Nat) node e, nodes[number]? = some node → node.entity = some e →
    (whole number).label = e.label

/-- The owner of a node still stands. -/
def HasOwner (nodes : List LoadedNode) (done : List Nat) (number : Nat) : Prop :=
  ∃ node owner above, nodes[number]? = some node ∧ node.parent = some owner ∧
    nodes[owner]? = some above ∧ owner ∉ done ∧ owner ≠ number

theorem Entity.label_attach (e : Entity) (slot : Slot) (child : Entity) :
    (e.attach slot child).label = e.label := by
  obtain ⟨type, fields, members⟩ := e
  rw [attach]
  split <;> rfl

theorem Relation.attach_eq_ok {relation : Relation} {parent child attached : Entity}
    (hattached : relation.attach parent child = .ok attached) :
    attached = parent.attach relation.slot child := by
  obtain ⟨_, _, hattached⟩ := Result.bind_eq_ok.1 hattached
  obtain ⟨_, _, hattached⟩ := Result.bind_eq_ok.1 hattached
  exact (Result.pure_eq_ok.1 hattached).symm

/-- A relation takes a child of a class that it declares. -/
theorem Relation.attach_of_target (relation : Relation) {parent child : Entity} {target : Target}
    (htarget : target ∈ relation.targets) (hchild : child.type.same target.type = true)
    (hparent : parent.type.same relation.parent = true) :
    relation.attach parent child = .ok (parent.attach relation.slot child) := by
  have hfits : relation.checkChild child = .ok () := by
    rw [targets] at htarget
    rw [checkChild]
    cases hform : relation.form with
    | variant discriminator variants => rfl
    | _ =>
        rw [hform, List.mem_singleton] at htarget
        subst htarget
        exact if_pos hchild
  rw [attach, hfits, Result.ok_bind, checkParent, if_pos hparent, Result.ok_bind]
  rfl

theorem occupied_of_entity {nodes : List LoadedNode} {number : Nat} {node : LoadedNode}
    {e : Entity} (hnode : nodes[number]? = some node) (he : node.entity = some e) :
    occupied nodes number = .ok (node, e) := by
  rw [occupied, hnode]
  simp only [he]

section Step

variable {registry : Registry} {nodes state : List LoadedNode} {done : List Nat}
  {whole : Nat → Entity} {number owner : Nat} {node above : LoadedNode}

/-- Attaching a node whose owner stands comes down to attaching the two entities. -/
theorem attachNode_eq (hstands : StandsFor nodes done state whole)
    (hnode : nodes[number]? = some node) (howner : node.parent = some owner)
    (habove : nodes[owner]? = some above) (hfresh : number ∉ done) (hfree : owner ∉ done)
    (hdiffer : owner ≠ number) :
    attachNode registry state number = (do
      let mapping ← registry.mappingFor (whole owner)
      let relation ← mapping.relationAt node.relation
      let completed ← relation.attach (whole owner) (whole number)
      return (state.set number { node with entity := none }).set owner
        { above with entity := some completed }) := by
  have hvacated : (state.set number { node with entity := none })[owner]? =
      some { above with entity := some (whole owner) } := by
    rw [List.getElem?_set_ne hdiffer.symm, hstands.standing owner above habove hfree]
  rw [attachNode, occupied_of_entity (hstands.standing number node hnode hfresh) rfl,
    Result.ok_bind]
  simp only [howner] at hvacated ⊢
  rw [pure_bind, occupied_of_entity hvacated rfl, Result.ok_bind]

/-- Once a node is attached, its owner stands for an entity with one more child. -/
theorem attachNode_spec (hfilled : ∀ node ∈ nodes, node.entity.isSome)
    (hstands : StandsFor nodes done state whole) (hfresh : number ∉ done)
    (hnode : nodes[number]? = some node) (howner : node.parent = some owner)
    (habove : nodes[owner]? = some above) (hfree : owner ∉ done) (hdiffer : owner ≠ number)
    {after : List LoadedNode} (hafter : attachNode registry state number = .ok after) :
    ∃ relation, node.relationIn? registry nodes = some relation ∧
      StandsFor nodes (done ++ [number]) after (Function.update whole owner
        ((whole owner).attach relation.slot (whole number))) := by
  rw [attachNode_eq hstands hnode howner habove hfresh hfree hdiffer] at hafter
  obtain ⟨mapping, hmapping, hafter⟩ := Result.bind_eq_ok.1 hafter
  obtain ⟨relation, hrelation, hafter⟩ := Result.bind_eq_ok.1 hafter
  obtain ⟨completed, hcompleted, hafter⟩ := Result.bind_eq_ok.1 hafter
  obtain rfl := Relation.attach_eq_ok hcompleted
  obtain rfl := Result.pure_eq_ok.1 hafter
  obtain ⟨e, he⟩ := Option.isSome_iff_exists.1 (hfilled above (List.mem_of_getElem? habove))
  have hlabel := hstands.label owner above e habove he
  refine ⟨relation, ?_, ?_, ?_⟩
  · have htype : (whole owner).type = e.type := (Prod.mk.inj hlabel).1
    rw [Registry.mappingFor_eq_ok, htype] at hmapping
    simp [LoadedNode.relationIn?, howner, habove, he, hmapping,
      ClassMapping.relationAt_eq_ok.1 hrelation]
  · intro other node' hother hnew
    rw [List.mem_append, List.mem_singleton, not_or] at hnew
    by_cases hsame : other = owner
    · subst hsame
      obtain rfl := Option.some.inj (habove.symm.trans hother)
      have hbound : other < state.length :=
        (List.getElem?_eq_some_iff.1 (hstands.standing other above habove hfree)).1
      rw [List.getElem?_set_self (by rwa [List.length_set]), Function.update_self]
    · rw [List.getElem?_set_ne (Ne.symm hsame), List.getElem?_set_ne (Ne.symm hnew.2),
        hstands.standing other node' hother hnew.1, Function.update_of_ne hsame]
  · intro other node' e' hother he'
    by_cases hsame : other = owner
    · subst hsame
      rw [Function.update_self, Entity.label_attach, hstands.label other node' e' hother he']
    · rw [Function.update_of_ne hsame, hstands.label other node' e' hother he']

/-- A node that fits is attached. -/
theorem attachNode_of_fits (hfits : node.Fits registry nodes)
    (hstands : StandsFor nodes done state whole) (hfresh : number ∉ done)
    (hnode : nodes[number]? = some node) (howner : node.parent = some owner)
    (habove : nodes[owner]? = some above) (hfree : owner ∉ done) (hdiffer : owner ≠ number) :
    ∃ after, attachNode registry state number = .ok after := by
  obtain ⟨relation, e, hrelation, he, target, htarget, hsame⟩ := hfits (by rw [howner]; rfl)
  simp only [LoadedNode.relationIn?, howner, habove, Option.bind_eq_bind, Option.bind_some,
    Option.bind_eq_some_iff] at hrelation
  obtain ⟨holder, hholder, mapping, hmapping, hindex⟩ := hrelation
  have htype : (whole owner).type = holder.type :=
    (Prod.mk.inj (hstands.label owner above holder habove hholder)).1
  have htype' : (whole number).type = e.type :=
    (Prod.mk.inj (hstands.label number node e hnode he)).1
  have hparent := ClassMapping.parent_same (List.mem_of_getElem? hindex)
  rw [EntityType.same, beq_iff_eq, Registry.same_of_find? hmapping, ← htype] at hparent
  have hattach : relation.attach (whole owner) (whole number) =
      .ok ((whole owner).attach relation.slot (whole number)) := by
    apply relation.attach_of_target htarget (htype' ▸ hsame)
    rw [EntityType.same, beq_iff_eq, hparent]
  rw [← htype] at hmapping
  rw [attachNode_eq hstands hnode howner habove hfresh hfree hdiffer,
    Registry.mappingFor_eq_ok.2 hmapping, Result.ok_bind,
    ClassMapping.relationAt_eq_ok.2 hindex, Result.ok_bind, hattach, Result.ok_bind]
  exact ⟨_, rfl⟩

end Step

/-! ## All levels -/

section Levels

variable {registry : Registry} {nodes : List LoadedNode} {above : List Nat}
  {below : List (List Nat)} {whole : Nat → Entity} {allowed : Error → Prop}

/-- What attaching one node keeps, where it fails with allowed errors only. -/
def IsKeptByAttaching (allowed : Error → Prop) (registry : Registry) (nodes : List LoadedNode)
    (P : List Nat → List LoadedNode → Prop) : Prop :=
  ∀ done number state, P done state → number ∉ done → HasOwner nodes done number →
    FailsWithin allowed (attachNode registry state number) ∧
      ∀ after, attachNode registry state number = .ok after → P (done ++ [number]) after

/-- What attaching one node keeps, attaching several keeps whose owners are not among
them. -/
theorem foldlM_attachNode {P : List Nat → List LoadedNode → Prop}
    (hkept : IsKeptByAttaching allowed registry nodes P) {done todo : List Nat}
    {state : List LoadedNode} (hstart : P done state) (hnodup : (done ++ todo).Nodup)
    (howners : ∀ number ∈ todo, ∃ node owner, nodes[number]? = some node ∧
      node.parent = some owner ∧ owner < nodes.length ∧ owner ∉ done ++ todo) :
    FailsWithin allowed (todo.foldlM (attachNode registry) state) ∧
      ∀ after, todo.foldlM (attachNode registry) state = .ok after → P (done ++ todo) after := by
  induction todo generalizing done state with
  | nil =>
      refine ⟨failsWithin_ok state, ?_⟩
      rintro after ⟨⟩
      rwa [List.append_nil]
  | cons number rest ih =>
      obtain ⟨node, owner, hnode, howner, hbound, habsent⟩ := howners number List.mem_cons_self
      rw [List.mem_append, List.mem_cons, not_or, not_or] at habsent
      have hfresh : number ∉ done := by
        rw [List.nodup_append] at hnodup
        exact fun hdone => hnodup.2.2 number hdone number List.mem_cons_self rfl
      obtain ⟨hfails, hnext⟩ := hkept done number state hstart hfresh
        ⟨node, owner, _, hnode, howner, List.getElem?_eq_getElem hbound, habsent.1,
          habsent.2.1⟩
      rw [List.append_cons] at hnodup howners
      have hrest := fun after hafter => ih (hnext after hafter) hnodup
        fun other hother => howners other (List.mem_cons_of_mem _ hother)
      rw [List.foldlM_cons]
      refine ⟨hfails.bind fun after hafter => (hrest after hafter).1, ?_⟩
      intro last hlast
      obtain ⟨after, hafter, hlast⟩ := Result.bind_eq_ok.1 hlast
      rw [List.append_cons]
      exact (hrest after hafter).2 last hlast

/-- What attaching one node keeps, attaching all levels keeps, the deepest first. -/
theorem foldlM_levels {P : List Nat → List LoadedNode → Prop}
    (hkept : IsKeptByAttaching allowed registry nodes P) (hstart : P [] nodes)
    (hlinked : (above :: below).IsChain (IsLevelBelow nodes))
    (hnodup : (above :: below).flatten.Nodup)
    (hbound : ∀ number ∈ (above :: below).flatten, number < nodes.length) :
    FailsWithin allowed (below.reverse.flatten.foldlM (attachNode registry) nodes) ∧
      ∀ after, below.reverse.flatten.foldlM (attachNode registry) nodes = .ok after →
        P below.reverse.flatten after := by
  induction below generalizing above with
  | nil =>
      refine ⟨failsWithin_ok nodes, ?_⟩
      rintro after ⟨⟩
      exact hstart
  | cons level rest ih =>
      rw [List.isChain_cons_cons] at hlinked
      rw [List.flatten_cons, List.nodup_append] at hnodup
      obtain ⟨hfails, hdeeper⟩ := ih hlinked.2 hnodup.2.1
        fun number hnumber => hbound number (List.mem_append_right _ hnumber)
      have hperm : (rest.reverse.flatten ++ level).Perm (level :: rest).flatten := by
        rw [List.flatten_cons]
        exact List.perm_append_comm.trans ((List.reverse_perm rest).flatten.append_left level)
      have hlevel := fun state hstate => foldlM_attachNode hkept (hdeeper state hstate)
        (hperm.nodup_iff.2 hnodup.2.1) (by
          intro number hnumber
          obtain ⟨node, owner, hnode, howner, habove⟩ := hlinked.1 number hnumber
          refine ⟨node, owner, hnode, howner, hbound owner (List.mem_append_left _ habove), ?_⟩
          rw [hperm.mem_iff]
          exact fun hmem => hnodup.2.2 owner habove owner hmem rfl)
      rw [List.reverse_cons, List.flatten_append, List.flatten_singleton, List.foldlM_append]
      refine ⟨hfails.bind fun state hstate => (hlevel state hstate).1, ?_⟩
      intro after hafter
      obtain ⟨state, hstate, hafter⟩ := Result.bind_eq_ok.1 hafter
      exact (hlevel state hstate).2 after hafter

/-- Taking nodes that still stand takes what they stand for. -/
theorem takeEntities_eq {done roots : List Nat} {state : List LoadedNode}
    (hstands : StandsFor nodes done state whole) (hnodup : roots.Nodup)
    (hroots : ∀ number ∈ roots, number < nodes.length ∧ number ∉ done) :
    takeEntities roots state = .ok (roots.map whole) := by
  induction roots generalizing done state with
  | nil => rfl
  | cons number rest ih =>
      rw [List.forall_mem_cons] at hroots
      rw [List.nodup_cons] at hnodup
      obtain ⟨hbound, hfresh⟩ := hroots.1
      have hnode := List.getElem?_eq_getElem hbound
      have hvacated : StandsFor nodes (done ++ [number])
          (state.set number { nodes[number] with entity := none }) whole := by
        refine ⟨fun other node hother hnew => ?_, hstands.label⟩
        rw [List.mem_append, List.mem_singleton, not_or] at hnew
        rw [List.getElem?_set_ne (Ne.symm hnew.2), hstands.standing other node hother hnew.1]
      have hrest := ih hvacated hnodup.2 fun other hother => by
        refine ⟨(hroots.2 other hother).1, ?_⟩
        rw [List.mem_append, List.mem_singleton, not_or]
        refine ⟨(hroots.2 other hother).2, ?_⟩
        rintro rfl
        exact hnodup.1 hother
      rw [takeEntities, occupied_of_entity (hstands.standing number _ hnode hfresh) rfl,
        Result.ok_bind]
      simp only [hrest, Result.ok_bind]
      rfl

/-- What was loaded under a number. -/
def loadedEntity (nodes : List LoadedNode) (number : Nat) : Entity :=
  (nodes[number]?.bind LoadedNode.entity).getD (.mk ⟨0, "", []⟩ [] [])

theorem loadedEntity_eq {number : Nat} {node : LoadedNode} {e : Entity}
    (hnode : nodes[number]? = some node) (he : node.entity = some e) :
    loadedEntity nodes number = e := by
  rw [loadedEntity, hnode, Option.bind_some, he, Option.getD_some]

/-- Before anything is attached, every number stands for what was loaded. -/
theorem standsFor_loadedEntity (hfilled : ∀ node ∈ nodes, node.entity.isSome) :
    StandsFor nodes [] nodes (loadedEntity nodes) := by
  constructor
  · intro number node hnode _
    obtain ⟨e, he⟩ := Option.isSome_iff_exists.1 (hfilled node (List.mem_of_getElem? hnode))
    rw [loadedEntity_eq hnode he, hnode, ← he]
  · intro number node e hnode he
    rw [loadedEntity_eq hnode he]

/-- Every number stands for an entity that holds, in their slots, those of its children
whose turn has come. -/
structure HasChildren (registry : Registry) (nodes : List LoadedNode) (done : List Nat)
    (whole : Nat → Entity) : Prop where
  members : ∀ number < nodes.length, (whole number).members =
    (done.filter (isLoadedFor nodes number)).map fun child =>
      (slotOf registry nodes child, whole child)
  related : ∀ number ∈ done, ∃ node relation, nodes[number]? = some node ∧
    node.relationIn? registry nodes = some relation

theorem Entity.members_attach {e child : Entity} {slot : Slot}
    (hfree : slot.isMany = false → ∀ member ∈ e.members, member.1 ≠ slot) :
    (e.attach slot child).members = e.members ++ [(slot, child)] := by
  obtain ⟨type, fields, members⟩ := e
  rw [attach]
  split
  case isTrue => rfl
  case isFalse hsingle =>
    have hclear : (members.filter fun member => decide (member.1 ≠ slot)) = members := by
      rw [List.filter_eq_self]
      intro member hmember
      exact decide_eq_true (hfree (Bool.eq_false_iff.2 hsingle) member hmember)
    rw [clear, hclear]
    rfl

/-- Attaching a node gives its owner one more child and everybody else none. -/
theorem HasChildren.attach {done : List Nat} (hchildren : HasChildren registry nodes done whole)
    (hshares : SharesOnlyLists registry nodes) {number owner : Nat} {node : LoadedNode}
    {relation : Relation} (hnode : nodes[number]? = some node)
    (howner : node.parent = some owner) (hbound : owner < nodes.length)
    (hrelation : node.relationIn? registry nodes = some relation) (hfresh : number ∉ done)
    (hfree : owner ∉ done) (hdiffer : owner ≠ number) :
    HasChildren registry nodes (done ++ [number]) (Function.update whole owner
      ((whole owner).attach relation.slot (whole number))) := by
  have hslot : slotOf registry nodes number = relation.slot := by
    rw [slotOf, hnode, Option.bind_some, hrelation, Option.elim_some]
  have hloaded : ∀ other, isLoadedFor nodes other number = decide (owner = other) := by
    intro other
    rw [isLoadedFor, hnode, Option.bind_some, howner]
    rfl
  -- the owner is none of the children whose turn has come
  have hkept : ∀ child ∈ done ++ [number], Function.update whole owner
      ((whole owner).attach relation.slot (whole number)) child = whole child := by
    intro child hchild
    apply Function.update_of_ne
    rintro rfl
    rcases List.mem_append.1 hchild with hdone | hlast
    · exact hfree hdone
    · exact hdiffer (List.mem_singleton.1 hlast)
  have hmembers : ((whole owner).attach relation.slot (whole number)).members =
      (whole owner).members ++ [(relation.slot, whole number)] := by
    apply Entity.members_attach
    intro hsingle member hmember hsame
    rw [hchildren.members owner hbound, List.mem_map] at hmember
    obtain ⟨child, hchild, rfl⟩ := hmember
    rw [List.mem_filter] at hchild
    have hmany := hshares number child (fun hequal => hfresh (hequal ▸ hchild.1)) owner
      (by rw [hloaded]; exact decide_eq_true rfl) hchild.2 (hslot.trans hsame.symm)
    rw [hslot, hsingle] at hmany
    cases hmany
  constructor
  · intro other hother
    have hmap : ((done ++ [number]).filter (isLoadedFor nodes other)).map (fun child =>
        (slotOf registry nodes child, Function.update whole owner
          ((whole owner).attach relation.slot (whole number)) child)) =
        ((done ++ [number]).filter (isLoadedFor nodes other)).map fun child =>
          (slotOf registry nodes child, whole child) := by
      apply List.map_congr_left
      intro child hchild
      rw [hkept child (List.mem_filter.1 hchild).1]
    rw [hmap, List.filter_append, List.map_append, List.filter_singleton, hloaded]
    by_cases hsame : owner = other
    · subst hsame
      rw [Function.update_self, hmembers, hchildren.members owner hbound, decide_eq_true rfl,
        cond_true, List.map_singleton, hslot]
    · rw [Function.update_of_ne (Ne.symm hsame), hchildren.members other hother,
        decide_eq_false hsame]
      simp
  · intro child hchild
    rcases List.mem_append.1 hchild with hdone | hlast
    · exact hchildren.related child hdone
    · rw [List.mem_singleton.1 hlast]
      exact ⟨node, relation, hnode, hrelation⟩

/-- The owners of deeper levels are not above. -/
theorem owner_mem_of_linked (hlinked : (above :: below).IsChain (IsLevelBelow nodes))
    {owner number : Nat} (hnumber : number ∈ below.flatten)
    (hloaded : isLoadedFor nodes owner number = true) :
    owner ∈ (above :: below).flatten := by
  induction below generalizing above with
  | nil => exact absurd hnumber List.not_mem_nil
  | cons level rest ih =>
      rw [List.isChain_cons_cons] at hlinked
      rw [List.flatten_cons, List.mem_append] at hnumber ⊢
      rcases hnumber with hhere | hdeeper
      · obtain ⟨node, found, hnode, howner, habove⟩ := hlinked.1 number hhere
        rw [isLoadedFor, hnode, Option.bind_some, howner, beq_iff_eq, Option.some.injEq]
          at hloaded
        exact .inl (hloaded ▸ habove)
      · exact .inr (ih hlinked.2 hdeeper)

/-- All children of an owner are in one level, so it does not matter to them that the
levels are attached in reverse. -/
theorem filter_reverse_levels (hlinked : (above :: below).IsChain (IsLevelBelow nodes))
    (hnodup : (above :: below).flatten.Nodup) (owner : Nat) :
    below.reverse.flatten.filter (isLoadedFor nodes owner) =
      below.flatten.filter (isLoadedFor nodes owner) := by
  induction below generalizing above with
  | nil => rfl
  | cons level rest ih =>
      have hchain := hlinked
      rw [List.isChain_cons_cons] at hlinked
      rw [List.flatten_cons, List.nodup_append] at hnodup
      rw [List.reverse_cons, List.flatten_append, List.flatten_singleton, List.flatten_cons,
        List.filter_append, List.filter_append, ih hlinked.2 hnodup.2.1]
      by_cases habove : owner ∈ above
      case pos =>
        have hdeeper : rest.flatten.filter (isLoadedFor nodes owner) = [] := by
          rw [List.filter_eq_nil_iff]
          intro number hnumber hloaded
          exact hnodup.2.2 owner habove owner
            (owner_mem_of_linked hlinked.2 hnumber hloaded) rfl
        rw [hdeeper, List.nil_append, List.append_nil]
      case neg =>
        have hhere : level.filter (isLoadedFor nodes owner) = [] := by
          rw [List.filter_eq_nil_iff]
          intro number hnumber hloaded
          obtain ⟨node, found, hnode, howner, hfound⟩ := hlinked.1 number hnumber
          rw [isLoadedFor, hnode, Option.bind_some, howner, beq_iff_eq, Option.some.injEq]
            at hloaded
          exact habove (hloaded ▸ hfound)
        rw [hhere, List.nil_append, List.append_nil]

end Levels

/-! ## The assembled trees -/

/-- What every node of an arena stands for in the end: the loaded entity with the
entities of all its children, in their slots and in the order of their numbers. -/
structure IsAssembled (registry : Registry) (nodes : List LoadedNode) (whole : Nat → Entity) :
    Prop where
  label : ∀ (number : Nat) node e, nodes[number]? = some node → node.entity = some e →
    (whole number).label = e.label
  members : ∀ number < nodes.length, (whole number).members =
    (childrenOf nodes number).map fun child => (slotOf registry nodes child, whole child)
  related : ∀ (number : Nat) node, nodes[number]? = some node → node.parent.isSome →
    ∃ relation, node.relationIn? registry nodes = some relation

section Assemble

variable {registry : Registry} {nodes : List LoadedNode} {roots : List Nat}
  {below : List (List Nat)}

theorem IsArena.nodup (harena : IsArena nodes (roots :: below)) :
    (roots :: below).flatten.Nodup := by
  rw [harena.numbers]
  exact List.nodup_range

theorem IsArena.lt (harena : IsArena nodes (roots :: below)) {number : Nat}
    (hnumber : number ∈ (roots :: below).flatten) : number < nodes.length := by
  rwa [harena.numbers, List.mem_range] at hnumber

theorem IsArena.takeEntities_eq (harena : IsArena nodes (roots :: below))
    {state : List LoadedNode} {whole : Nat → Entity}
    (hstands : StandsFor nodes below.reverse.flatten state whole) :
    takeEntities roots state = .ok (roots.map whole) := by
  have hnodup := harena.nodup
  rw [List.flatten_cons, List.nodup_append] at hnodup
  apply AggregateSync.takeEntities_eq hstands hnodup.1
  intro number hnumber
  refine ⟨harena.lt (List.mem_append_left _ hnumber), fun hdone => ?_⟩
  rw [(List.reverse_perm below).flatten.mem_iff] at hdone
  exact hnodup.2.2 number hnumber number hdone rfl

/-- Where all nodes fit, attaching cannot fail. -/
theorem isKeptByAttaching_standsFor (hfilled : ∀ node ∈ nodes, node.entity.isSome)
    (hfits : ∀ node ∈ nodes, node.Fits registry nodes) :
    IsKeptByAttaching (fun _ => False) registry nodes fun done state =>
      ∃ whole, StandsFor nodes done state whole := by
  rintro done number state ⟨whole, hstands⟩ hfresh
    ⟨node, owner, above, hnode, howner, habove, hfree, hdiffer⟩
  obtain ⟨after, hattached⟩ := attachNode_of_fits (hfits node (List.mem_of_getElem? hnode))
    hstands hfresh hnode howner habove hfree hdiffer
  constructor
  · rw [hattached]
    exact failsWithin_ok after
  · intro after hafter
    obtain ⟨relation, _, hnext⟩ :=
      attachNode_spec hfilled hstands hfresh hnode howner habove hfree hdiffer hafter
    exact ⟨_, hnext⟩

theorem isKeptByAttaching_hasChildren (hfilled : ∀ node ∈ nodes, node.entity.isSome)
    (hshares : SharesOnlyLists registry nodes) :
    IsKeptByAttaching (fun _ => True) registry nodes fun done state =>
      ∃ whole, StandsFor nodes done state whole ∧ HasChildren registry nodes done whole := by
  rintro done number state ⟨whole, hstands, hchildren⟩ hfresh
    ⟨node, owner, above, hnode, howner, habove, hfree, hdiffer⟩
  refine ⟨fun _ _ => trivial, fun after hok => ?_⟩
  obtain ⟨relation, hrelation, hnext⟩ :=
    attachNode_spec hfilled hstands hfresh hnode howner habove hfree hdiffer hok
  exact ⟨_, hnext, hchildren.attach hshares hnode howner (List.getElem?_eq_some_iff.1 habove).1
    hrelation hfresh hfree hdiffer⟩

/-- An arena of nodes that fit is assembled, and its roots show what was loaded. -/
theorem exists_assembled (harena : IsArena nodes (roots :: below))
    (hfits : ∀ node ∈ nodes, node.Fits registry nodes) :
    ∃ trees, assemble registry nodes (roots :: below) = .ok trees ∧
      trees.map Entity.label = roots.map fun number => (loadedEntity nodes number).label := by
  obtain ⟨hfails, hafter⟩ := foldlM_levels
    (isKeptByAttaching_standsFor harena.filled hfits)
    ⟨_, standsFor_loadedEntity harena.filled⟩ harena.linked harena.nodup fun _ => harena.lt
  obtain ⟨state, hstate⟩ := hfails.exists_ok
  obtain ⟨whole, hstands⟩ := hafter state hstate
  refine ⟨roots.map whole, ?_, ?_⟩
  · rw [assemble, hstate, Result.ok_bind, harena.takeEntities_eq hstands]
  · rw [List.map_map]
    apply List.map_congr_left
    intro number hnumber
    have hnode := List.getElem?_eq_getElem (harena.lt (List.mem_append_left _ hnumber))
    obtain ⟨e, he⟩ := Option.isSome_iff_exists.1 (harena.filled _ (List.mem_of_getElem? hnode))
    rw [Function.comp_apply, hstands.label number _ e hnode he, loadedEntity_eq hnode he]

/-- Assembling an arena gives the roots of the trees that its nodes describe. -/
theorem assemble_eq_ok (harena : IsArena nodes (roots :: below))
    (hshares : SharesOnlyLists registry nodes)
    (hempty : ∀ node ∈ nodes, ∀ e, node.entity = some e → e.members = []) {result : List Entity}
    (hok : assemble registry nodes (roots :: below) = .ok result) :
    ∃ whole, result = roots.map whole ∧ IsAssembled registry nodes whole := by
  obtain ⟨state, hstate, hresult⟩ := Result.bind_eq_ok.1 hok
  have hloaded : HasChildren registry nodes [] (loadedEntity nodes) := by
    refine ⟨fun number hnumber => ?_, by simp⟩
    have hnode := List.getElem?_eq_getElem hnumber
    obtain ⟨e, he⟩ := Option.isSome_iff_exists.1 (harena.filled _ (List.mem_of_getElem? hnode))
    rw [loadedEntity_eq hnode he, hempty _ (List.mem_of_getElem? hnode) e he]
    rfl
  obtain ⟨whole, hstands, hchildren⟩ := (foldlM_levels
    (isKeptByAttaching_hasChildren harena.filled hshares)
    ⟨_, standsFor_loadedEntity harena.filled, hloaded⟩ harena.linked harena.nodup
    fun _ => harena.lt).2 state hstate
  rw [harena.takeEntities_eq hstands] at hresult
  refine ⟨whole, (Except.ok.inj hresult).symm, hstands.label, ?_, ?_⟩
  · intro number hnumber
    have hroots : roots.filter (isLoadedFor nodes number) = [] := by
      rw [List.filter_eq_nil_iff]
      intro root hroot hloaded
      have hnode := List.getElem?_eq_getElem (harena.lt (List.mem_append_left _ hroot))
      rw [isLoadedFor, hnode, Option.bind_some, harena.roots roots rfl root hroot _ hnode]
        at hloaded
      cases hloaded
    rw [hchildren.members number hnumber, filter_reverse_levels harena.linked harena.nodup,
      childrenOf, ← harena.numbers, List.flatten_cons, List.filter_append, hroots,
      List.nil_append]
  · intro number node hnode hparent
    have hnumber : number ∈ (roots :: below).flatten := by
      rw [harena.numbers, List.mem_range]
      exact (List.getElem?_eq_some_iff.1 hnode).1
    rw [List.flatten_cons, List.mem_append] at hnumber
    rcases hnumber with hroot | hbelow
    · rw [harena.roots roots rfl number hroot node hnode] at hparent
      cases hparent
    · rw [← (List.reverse_perm below).flatten.mem_iff] at hbelow
      obtain ⟨found, relation, hfound, hrelation⟩ := hchildren.related number hbelow
      obtain rfl := Option.some.inj (hnode.symm.trans hfound)
      exact ⟨relation, hrelation⟩

end Assemble

end AggregateSync
