import AggregateSync.Proofs.Graph.Resolution

/-!
# Traversals of graphs of one shape

A traversal looks at classes and at what holds what, and at fields only for the identity
of a member.  So if one graph can be traversed, every graph of its shape can, and the
traversals list the same members in the same order, except for what the members show.
-/

namespace AggregateSync

/-- The members stand at one place of graphs of one shape. -/
structure Member.Alike (member other : Member) : Prop where
  mapping : other.mapping = member.mapping
  path : other.path = member.path
  parent : other.parent = member.parent
  relation : other.relation = member.relation

/-- Where the first traversal succeeds, the second one does and lists the like. -/
def Visit.Follows (visit other : Visit) : Prop :=
  ∀ path parent relation number members, visit path parent relation number = .ok members →
    ∃ others, other path parent relation number = .ok others ∧
      List.Forall₂ Member.Alike members others

theorem Entity.SameShape.children {e other : Entity} (hshape : e.SameShape other)
    (slot : Slot) :
    List.Forall₂ Entity.SameShape (e.children slot) (other.children slot) := by
  have htypes := hshape.children_types slot
  have hlength := congrArg List.length htypes
  rw [List.length_map, List.length_map] at hlength
  rw [List.forall₂_iff_get]
  refine ⟨hlength, ?_⟩
  intro index hindex hindex'
  apply hshape.child
  · exact List.getElem?_eq_getElem hindex
  · exact List.getElem?_eq_getElem hindex'

section Visit

variable {path : Path} {number : Nat}

theorem visitChildren_follows {index : Nat} {visits others : List Visit}
    (hvisits : List.Forall₂ Visit.Follows visits others) :
    ∀ {position next : Nat} {numbers : List Nat} {block : List Member},
      visitChildren path number index position next visits = .ok (numbers, block) →
      ∃ block', visitChildren path number index position next others =
          .ok (numbers, block') ∧ List.Forall₂ Member.Alike block block' := by
  induction hvisits with
  | nil =>
      intro position next numbers block hvisit
      cases hvisit
      exact ⟨[], rfl, .nil⟩
  | cons hfirst hrest ih =>
      intro position next numbers block hvisit
      obtain ⟨subtree, hsubtree, hvisit⟩ := Result.bind_eq_ok.1 hvisit
      obtain ⟨⟨numbers', below⟩, hbelow, hvisit⟩ := Result.bind_eq_ok.1 hvisit
      cases hvisit
      obtain ⟨subtree', hsubtree', halike⟩ := hfirst _ _ _ _ _ hsubtree
      rw [halike.length_eq] at hbelow
      obtain ⟨below', hbelow', hlike⟩ := ih hbelow
      refine ⟨subtree' ++ below', ?_, List.rel_append halike hlike⟩
      rw [visitChildren, hsubtree', Result.ok_bind, hbelow']
      rfl

theorem visitRelations_follows {e other : Entity} (hshape : e.SameShape other)
    {visits visits' : Slot → List Visit}
    (hvisits : ∀ slot, List.Forall₂ Visit.Follows (visits slot) (visits' slot))
    (relations : List Relation) :
    ∀ {index next : Nat} {visited : List Slot} {numbers : List Nat} {block : List Member},
      visitRelations e visits path number index next visited relations =
        .ok (numbers, block) →
      ∃ block', visitRelations other visits' path number index next visited relations =
          .ok (numbers, block') ∧ List.Forall₂ Member.Alike block block' := by
  induction relations with
  | nil =>
      intro index next visited numbers block hvisit
      cases hvisit
      exact ⟨[], rfl, .nil⟩
  | cons relation rest ih =>
      intro index next visited numbers block hvisit
      obtain ⟨found, hfound, hvisit⟩ := Result.bind_eq_ok.1 hvisit
      obtain rfl := Relation.children_eq hfound
      have hchildren := Relation.children_of_sameShape hshape hfound
      rw [visitRelations, hchildren, Result.ok_bind]
      split at hvisit
      case isTrue hseen =>
        rw [if_pos hseen]
        exact ih hvisit
      case isFalse hseen =>
        obtain ⟨⟨numbers', below⟩, hbelow, hvisit⟩ := Result.bind_eq_ok.1 hvisit
        obtain ⟨⟨others, beyond⟩, hbeyond, hvisit⟩ := Result.bind_eq_ok.1 hvisit
        cases hvisit
        obtain ⟨below', hbelow', halike⟩ := visitChildren_follows (hvisits _) hbelow
        rw [halike.length_eq] at hbeyond
        obtain ⟨beyond', hbeyond', hlike⟩ := ih hbeyond
        refine ⟨below' ++ beyond', ?_, List.rel_append halike hlike⟩
        rw [if_neg hseen, hbelow', Result.ok_bind]
        simp only [hbeyond', Result.ok_bind]
        rfl

end Visit

theorem visitEntity_follows (registry : Registry) : ∀ e other : Entity, e.SameShape other →
    Visit.Follows (visitEntity registry e) (visitEntity registry other) := by
  refine Entity.treeInduction fun type fields members ih => ?_
  intro other hshape path parent relation number block hvisit
  rw [visitEntity_eq] at hvisit
  obtain ⟨mapping, hmapping, hvisit⟩ := Result.bind_eq_ok.1 hvisit
  obtain ⟨key, hkey, hvisit⟩ := Result.bind_eq_ok.1 hvisit
  obtain ⟨⟨children, below⟩, hbelow, hvisit⟩ := Result.bind_eq_ok.1 hvisit
  cases hvisit
  have hkids : ∀ slot, List.Forall₂ Visit.Follows
      (((Entity.mk type fields members).children slot).map (visitEntity registry))
      ((other.children slot).map (visitEntity registry)) := by
    intro slot
    rw [List.forall₂_map_left_iff, List.forall₂_map_right_iff]
    have hboth := (List.forall₂_and_left _ _).2
      ⟨fun kid hkid => ih _ (Entity.mem_of_mem_inSlot hkid), hshape.children slot⟩
    apply hboth.imp
    rintro kid kid' ⟨hfollows, hkidShape⟩
    exact hfollows kid' hkidShape
  rw [Registry.mappingFor_congr hshape.type_eq] at hmapping
  obtain ⟨below', hbelow', halike⟩ := visitRelations_follows hshape hkids _ hbelow
  rw [visitEntity_eq, hmapping, Result.ok_bind,
    ClassMapping.identityKey_of_same (Registry.same_of_mappingFor hmapping), Result.ok_bind,
    hbelow']
  exact ⟨_, rfl, .cons ⟨rfl, rfl, rfl, rfl⟩ halike⟩

/-- Graphs of one shape have like traversals. -/
theorem traverse_of_sameShape {registry : Registry} {root other : Entity}
    (hshape : root.SameShape other) {members : List Member}
    (htraverse : registry.traverse root = .ok members) :
    ∃ others, registry.traverse other = .ok others ∧
      List.Forall₂ Member.Alike members others :=
  visitEntity_follows registry root other hshape _ _ _ _ _ htraverse

end AggregateSync
