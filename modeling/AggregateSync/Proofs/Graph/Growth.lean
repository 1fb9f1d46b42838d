import AggregateSync.Proofs.Graph.Assembly

/-!
# How assembled trees grow

Attaching moves entities about and changes nothing else of them, so what is known of a loaded
entity and the one that it was loaded for is still known when both stand in a tree, provided
that it does not depend on their children.  The invariant of the loop is that of the result:
every child is one that new entities of the class have, or was attached through a relation of
the class, with what is known of such a pair.
-/

namespace AggregateSync

/-- Every child in the tree is one that new entities have or was attached through a relation, so
that `P` holds of the relation, the parent and the child; and so on below the attached ones. -/
inductive Entity.IsGrown (registry : Registry) (P : Relation → Entity → Entity → Prop) :
    Entity → Prop
  | intro {e : Entity} {mapping : ClassMapping} (attached : List (Relation × Entity))
      (hmapping : registry.find? e.type.id = some mapping)
      (hmembers : ∀ member ∈ e.members, member ∈ mapping.initialMembers ∨
        ∃ entry ∈ attached, member = (entry.1.slot, entry.2))
      (hattached : ∀ entry ∈ attached, entry.1 ∈ mapping.relations ∧ P entry.1 e entry.2)
      (hdeeper : ∀ entry ∈ attached, entry.2.IsGrown registry P) : e.IsGrown registry P

namespace Entity

variable {registry : Registry} {P Q : Relation → Entity → Entity → Prop} {e child : Entity}
  {mapping : ClassMapping} {relation : Relation}

/-- What was loaded and has no child attached yet. -/
theorem isGrown_of_members (hmapping : registry.find? e.type.id = some mapping)
    (hmembers : e.members = mapping.initialMembers) : e.IsGrown registry P :=
  .intro [] hmapping (fun _ hmember => .inl (hmembers ▸ hmember)) (by simp) (by simp)

theorem IsGrown.mono (hgrown : e.IsGrown registry P)
    (hmore : ∀ relation parent child, P relation parent child → Q relation parent child) :
    e.IsGrown registry Q := by
  induction hgrown with
  | intro attached hmapping hmembers hattached _ ih =>
      exact .intro attached hmapping hmembers
        (fun entry hentry => (hattached entry hentry).imp_right (hmore _ _ _)) ih

theorem mem_members_attach {slot : Slot} {member : Slot × Entity}
    (hmember : member ∈ (e.attach slot child).members) :
    member ∈ e.members ∨ member = (slot, child) := by
  obtain ⟨type, fields, members⟩ := e
  rw [attach] at hmember
  split at hmember
  all_goals refine (List.mem_append.1 hmember).imp ?_ List.mem_singleton.1
  · exact id
  · exact fun hkept => (List.mem_filter.1 hkept).1

/-- `P` is decided by the classes and fields of parent and child. -/
def IsOfLabels (P : Relation → Entity → Entity → Prop) : Prop :=
  ∀ ⦃relation : Relation⦄ ⦃parent parent' child child' : Entity⦄, parent.label = parent'.label →
    child.label = child'.label → P relation parent child → P relation parent' child'

/-- Attaching one more child keeps what is known of the others. -/
theorem IsGrown.attach (hlabels : IsOfLabels P) (he : e.IsGrown registry P)
    (hmapping : registry.find? e.type.id = some mapping) (hrelation : relation ∈ mapping.relations)
    (hP : P relation e child) (hchild : child.IsGrown registry P) :
    (e.attach relation.slot child).IsGrown registry P := by
  have hlabel := e.label_attach relation.slot child
  have htype : (e.attach relation.slot child).type = e.type := (Prod.mk.inj hlabel).1
  obtain @⟨_, found, attached, hfound, hmembers, hattached, hdeeper⟩ := he
  obtain rfl := Option.some.inj (hfound.symm.trans hmapping)
  refine .intro (attached ++ [(relation, child)]) (htype ▸ hfound) (fun member hmember => ?_)
    (List.forall_mem_append.2 ⟨fun entry hentry => ?_, List.forall_mem_singleton.2 ?_⟩)
    (List.forall_mem_append.2 ⟨hdeeper, List.forall_mem_singleton.2 hchild⟩)
  · obtain hold | rfl := mem_members_attach hmember
    · refine (hmembers member hold).imp_right fun ⟨entry, hentry, hsame⟩ => ?_
      exact ⟨entry, List.mem_append_left _ hentry, hsame⟩
    · exact .inr ⟨_, List.mem_append_right _ (List.mem_singleton_self _), rfl⟩
  · exact (hattached entry hentry).imp_right (hlabels hlabel.symm rfl)
  · exact ⟨hrelation, hlabels hlabel.symm rfl hP⟩

/-- Where slots tell the relations of a class apart and its new entities have no children, all
children in the slot of a relation were attached through it. -/
theorem IsGrown.of_mem_children (hgrown : e.IsGrown registry P)
    (hmapping : registry.find? e.type.id = some mapping) (hinitial : mapping.initialMembers = [])
    (hslots : (mapping.relations.map Relation.slot).Nodup)
    (hrelation : relation ∈ mapping.relations)
    (hchild : child ∈ e.children relation.slot) :
    P relation e child ∧ child.IsGrown registry P := by
  obtain @⟨_, found, attached, hfound, hmembers, hattached, hdeeper⟩ := hgrown
  obtain rfl := Option.some.inj (hfound.symm.trans hmapping)
  obtain hnew | ⟨entry, hentry, hsame⟩ := hmembers _ (mem_of_mem_inSlot hchild)
  · rw [hinitial] at hnew
    cases hnew
  · obtain ⟨hslot, rfl⟩ := Prod.mk.inj hsame
    obtain ⟨hdeclared, hP⟩ := hattached entry hentry
    obtain rfl := List.inj_on_of_nodup_map hslots hrelation hdeclared hslot
    exact ⟨hP, hdeeper entry hentry⟩

end Entity

/-! ## The loop -/

section Assemble

variable {registry : Registry} {P : Relation → Entity → Entity → Prop} {nodes : List LoadedNode}
  {roots : List Nat} {below : List (List Nat)}

/-- A loaded entity is of a mapped class and has the children of a new one. -/
def LoadedNode.IsNew (registry : Registry) (node : LoadedNode) : Prop :=
  ∃ e mapping, node.entity = some e ∧ registry.find? e.type.id = some mapping ∧
    e.members = mapping.initialMembers

/-- `P` holds of a loaded entity and its owner. -/
def LoadedNode.Joins (registry : Registry) (P : Relation → Entity → Entity → Prop)
    (nodes : List LoadedNode) (node : LoadedNode) : Prop :=
  ∀ owner, node.parent = some owner → ∃ parent mapping relation child,
    nodes[owner]?.bind LoadedNode.entity = some parent ∧
    registry.find? parent.type.id = some mapping ∧
    mapping.relations[node.relation]? = some relation ∧ node.entity = some child ∧
    P relation parent child

theorem LoadedNode.Joins.append {node : LoadedNode} (hjoins : node.Joins registry P nodes)
    (more : List LoadedNode) : node.Joins registry P (nodes ++ more) := by
  intro owner howner
  obtain ⟨parent, mapping, relation, child, hparent, hrest⟩ := hjoins owner howner
  refine ⟨parent, mapping, relation, child, ?_, hrest⟩
  obtain ⟨holder, hholder, he⟩ := Option.bind_eq_some_iff.1 hparent
  rw [List.getElem?_append_left (List.getElem?_eq_some_iff.1 hholder).1, hholder,
    Option.bind_some, he]

theorem isKeptByAttaching_isGrown (hlabels : Entity.IsOfLabels P)
    (hfilled : ∀ node ∈ nodes, node.entity.isSome)
    (hjoins : ∀ node ∈ nodes, node.Joins registry P nodes) :
    IsKeptByAttaching (fun _ => True) registry nodes fun done state =>
      ∃ whole, StandsFor nodes done state whole ∧
        ∀ number < nodes.length, (whole number).IsGrown registry P := by
  rintro done number state ⟨whole, hstands, hgrown⟩ hfresh
    ⟨node, owner, above, hnode, howner, habove, hfree, hdiffer⟩
  refine ⟨fun _ _ => trivial, fun after hok => ?_⟩
  obtain ⟨relation, hrelation, hnext⟩ :=
    attachNode_spec hfilled hstands hfresh hnode howner habove hfree hdiffer hok
  refine ⟨_, hnext, fun other hother => ?_⟩
  by_cases hsame : other = owner
  case neg =>
    rw [Function.update_of_ne hsame]
    exact hgrown other hother
  case pos =>
    subst hsame
    rw [Function.update_self]
    obtain ⟨parent, mapping, found, child, hparent, hmapping, hindex, hchild, hP⟩ :=
      hjoins node (List.mem_of_getElem? hnode) other howner
    rw [habove, Option.bind_some] at hparent
    obtain rfl : found = relation := by
      simpa [LoadedNode.relationIn?, howner, habove, hparent, hmapping, hindex] using hrelation
    -- both stand for what was loaded, but for their children
    have hlabel := hstands.label other above parent habove hparent
    have htype : (whole other).type = parent.type := (Prod.mk.inj hlabel).1
    have hbound := (List.getElem?_eq_some_iff.1 hnode).1
    refine (hgrown other hother).attach hlabels (htype ▸ hmapping) (List.mem_of_getElem? hindex) ?_
      (hgrown number hbound)
    exact hlabels hlabel.symm (hstands.label number node child hnode hchild).symm hP

/-- Assembling an arena gives trees in which what holds of the nodes and their owners holds of
all children that were attached. -/
theorem isGrown_of_assemble (harena : IsArena nodes (roots :: below))
    (hlabels : Entity.IsOfLabels P) (hnew : ∀ node ∈ nodes, node.IsNew registry)
    (hjoins : ∀ node ∈ nodes, node.Joins registry P nodes) {trees : List Entity}
    (hok : assemble registry nodes (roots :: below) = .ok trees) :
    ∀ e ∈ trees, e.IsGrown registry P := by
  obtain ⟨state, hstate, htrees⟩ := Result.bind_eq_ok.1 hok
  have hstart : ∀ number < nodes.length, (loadedEntity nodes number).IsGrown registry P := by
    intro number hbound
    have hnode := List.getElem?_eq_getElem hbound
    obtain ⟨e, mapping, he, hmapping, hmembers⟩ := hnew _ (List.mem_of_getElem? hnode)
    rw [loadedEntity_eq hnode he]
    exact Entity.isGrown_of_members hmapping hmembers
  obtain ⟨whole, hstands, hgrown⟩ := (foldlM_levels
    (isKeptByAttaching_isGrown hlabels harena.filled hjoins)
    ⟨_, standsFor_loadedEntity harena.filled, hstart⟩ harena.linked harena.nodup
    fun _ => harena.lt).2 state hstate
  rw [harena.takeEntities_eq hstands] at htrees
  obtain rfl := Except.ok.inj htrees
  exact List.forall_mem_map.2 fun number hnumber =>
    hgrown number (harena.lt (List.mem_append_left _ hnumber))

end Assemble

end AggregateSync
