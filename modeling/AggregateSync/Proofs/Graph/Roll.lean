import AggregateSync.Proofs.Graph.Lineage
import AggregateSync.Proofs.Relational

/-!
# The roll of a graph

A traversal numbers the members and gives each the path to it, and both depend on the order in
which children stand.  The roll of a graph lists the same members by what does not: their
identity and that of the parent, what they show, their depth and their relation.  A traversal
lists exactly what the roll does, and the roll of a graph in which children stand in another
order is a permutation of its own.
-/

namespace AggregateSync

/-- What a member is, apart from its place among others. -/
structure Card where
  key : Option IdentityKey
  mapping : ClassMapping
  label : EntityType × List (Field × Value)
  depth : Nat
  relation : Option Nat
  parentKey : Option IdentityKey

/-- The cards of a subtree, given its depth, the index of its relation and the identity of its
parent. -/
abbrev Roll := Nat → Option Nat → Option IdentityKey → Result (List Card)

/-- The cards below the children of a relation. -/
def rollChildren (depth relation : Nat) (parentKey : Option IdentityKey) (rolls : List Roll) :
    Result (List Card) := do
  let cards ← rolls.mapM fun roll => roll depth (some relation) parentKey
  return cards.flatten

/-- The cards below the relations of an entity from an index on. -/
def rollRelations (e : Entity) (rolls : Slot → List Roll) (depth : Nat)
    (parentKey : Option IdentityKey) : Nat → List Slot → List Relation → Result (List Card)
  | _, _, [] => .ok []
  | index, visited, relation :: rest => do
    let _ ← relation.children e
    if visited.contains relation.slot then
      rollRelations e rolls depth parentKey (index + 1) visited rest
    else do
      let below ← rollChildren depth index parentKey (rolls relation.slot)
      let beyond ← rollRelations e rolls depth parentKey (index + 1)
        (relation.slot :: visited) rest
      return below ++ beyond

theorem rollChildren_cons (depth relation : Nat) (parentKey : Option IdentityKey) (roll : Roll)
    (rolls : List Roll) :
    rollChildren depth relation parentKey (roll :: rolls) = (do
      let cards ← roll depth (some relation) parentKey
      let others ← rollChildren depth relation parentKey rolls
      return cards ++ others) := by
  rw [rollChildren, rollChildren, List.mapM_cons]
  cases roll depth (some relation) parentKey with
  | error fault => rfl
  | ok cards => cases rolls.mapM fun roll => roll depth (some relation) parentKey <;> rfl

mutual

/-- The cards of a subtree. -/
def rollEntity (registry : Registry) : Entity → Roll
  | .mk type fields members, depth, relation, parentKey => do
    let e := Entity.mk type fields members
    let mapping ← registry.mappingFor e
    let key ← mapping.identityKey e
    let rolls := rollMembers registry members
    let below ← rollRelations e (fun slot => Entity.inSlot slot rolls) (depth + 1) key 0 []
      mapping.relations
    return ⟨key, mapping, e.label, depth, relation, parentKey⟩ :: below

/-- The rolls of all children, each with its slot. -/
def rollMembers (registry : Registry) : List (Slot × Entity) → List (Slot × Roll)
  | [] => []
  | (slot, child) :: rest => (slot, rollEntity registry child) :: rollMembers registry rest

end

theorem rollMembers_eq_map (registry : Registry) (members : List (Slot × Entity)) :
    rollMembers registry members =
      members.map fun member => (member.1, rollEntity registry member.2) := by
  induction members with
  | nil => rfl
  | cons member rest ih =>
      obtain ⟨slot, child⟩ := member
      rw [rollMembers, ih, List.map_cons]

/-- The roll of an entity, in terms of the rolls of its children. -/
theorem rollEntity_eq (registry : Registry) (e : Entity) (depth : Nat) (relation : Option Nat)
    (parentKey : Option IdentityKey) :
    rollEntity registry e depth relation parentKey = (do
      let mapping ← registry.mappingFor e
      let key ← mapping.identityKey e
      let below ← rollRelations e (fun slot => (e.children slot).map (rollEntity registry))
        (depth + 1) key 0 [] mapping.relations
      return ⟨key, mapping, e.label, depth, relation, parentKey⟩ :: below) := by
  obtain ⟨type, fields, members⟩ := e
  rw [rollEntity]
  have hrolls : (fun slot => Entity.inSlot slot (rollMembers registry members)) =
      fun slot => ((Entity.mk type fields members).children slot).map (rollEntity registry) := by
    funext slot
    rw [rollMembers_eq_map, Entity.inSlot_map]
    rfl
  simp only [hrolls]

/-! ## Traversals list the roll -/

/-- The identity of the parent of a member in a list that is numbered from `next` on, given
that of the parent of the whole list. -/
def Member.parentKeyIn (parentKey : Option IdentityKey) (next : Nat) (block : List Member)
    (member : Member) : Option IdentityKey :=
  match member.parent with
  | some number =>
    if next ≤ number then (block[number - next]?).bind Member.key else parentKey
  | none => parentKey

/-- The card of a member in a numbered list. -/
def Member.cardIn (parentKey : Option IdentityKey) (next : Nat) (block : List Member)
    (member : Member) : Card :=
  ⟨member.key, member.mapping, member.entity.label, member.depth, member.relation,
    member.parentKeyIn parentKey next block⟩

/-- The list is closed and has the given cards. -/
structure HasCards (parent : Option Nat) (parentKey : Option IdentityKey) (next : Nat)
    (block : List Member) (cards : List Card) : Prop where
  closed : IsClosed parent next block
  cards : block.map (Member.cardIn parentKey next block) = cards

/-- The traversal lists what the roll does, if the parent has an earlier number, or both fail
alike. -/
def Visit.Lists (visit : Visit) (roll : Roll) : Prop :=
  ∀ path parent relation next parentKey, (∀ number, parent = some number → number < next) →
    Result.Related Eq (HasCards parent parentKey next) (visit path parent relation next)
      (roll path.length relation parentKey)

section Listing

variable {parent : Option Nat} {parentKey : Option IdentityKey} {next : Nat}

theorem HasCards.nil : HasCards parent parentKey next [] [] := ⟨nofun, rfl⟩

/-- Under the parent of the whole list stands what has its number, or none. -/
theorem parentKeyIn_of_parent {block : List Member} {member : Member}
    (hparent : ∀ number, parent = some number → number < next)
    (hmember : member.parent = parent) :
    member.parentKeyIn parentKey next block = parentKey := by
  rw [Member.parentKeyIn, hmember]
  cases parent with
  | none => rfl
  | some number => exact if_neg (Nat.not_le.2 (hparent number rfl))

theorem parentKeyIn_of_number {block : List Member} {member : Member} {i : Nat}
    (hmember : member.parent = some (next + i)) :
    member.parentKeyIn parentKey next block = (block[i]?).bind Member.key := by
  rw [Member.parentKeyIn, hmember]
  dsimp only
  rw [if_pos (Nat.le_add_right next i), Nat.add_sub_cancel_left]

/-- Cards differ by the identity of the parent only. -/
theorem map_cardIn_congr {parentKey' : Option IdentityKey} {next' : Nat}
    {members block block' : List Member}
    (hsame : ∀ member ∈ members, member.parentKeyIn parentKey next block =
      member.parentKeyIn parentKey' next' block') :
    members.map (Member.cardIn parentKey next block) =
      members.map (Member.cardIn parentKey' next' block') := by
  refine List.map_congr_left fun member hmember => ?_
  rw [Member.cardIn, Member.cardIn, hsame member hmember]

/-- Lists under one parent that follow each other. -/
theorem HasCards.append {block others : List Member} {cards cards' : List Card}
    (hparent : ∀ number, parent = some number → number < next)
    (hblock : HasCards parent parentKey next block cards)
    (hothers : HasCards parent parentKey (next + block.length) others cards') :
    HasCards parent parentKey next (block ++ others) (cards ++ cards') := by
  have hlater : ∀ number, parent = some number → number < next + block.length :=
    fun number hnumber => Nat.lt_add_right _ (hparent number hnumber)
  constructor
  case closed => exact hblock.closed.append hothers.closed
  case cards =>
    rw [List.map_append, ← hblock.cards, ← hothers.cards]
    congr 1
    · refine map_cardIn_congr fun member hmember => ?_
      rcases hblock.closed member hmember with hroot | ⟨i, hi, hnumber⟩
      · rw [parentKeyIn_of_parent hparent hroot, parentKeyIn_of_parent hparent hroot]
      · rw [parentKeyIn_of_number hnumber, parentKeyIn_of_number hnumber,
          List.getElem?_append_left hi]
    · refine map_cardIn_congr fun member hmember => ?_
      rcases hothers.closed member hmember with hroot | ⟨i, hi, hnumber⟩
      · rw [parentKeyIn_of_parent hparent hroot, parentKeyIn_of_parent hlater hroot]
      · have hnumber' : member.parent = some (next + (block.length + i)) := by
          rw [hnumber, Nat.add_assoc]
        rw [parentKeyIn_of_number hnumber', parentKeyIn_of_number hnumber,
          List.getElem?_append_right (Nat.le_add_right _ _), Nat.add_sub_cancel_left]

/-- A member and what hangs under it. -/
theorem HasCards.cons {self : Member} {below : List Member} {cards : List Card}
    (hparent : ∀ number, parent = some number → number < next) (hself : self.parent = parent)
    (hbelow : HasCards (some next) self.key (next + 1) below cards) :
    HasCards parent parentKey next (self :: below)
      (⟨self.key, self.mapping, self.entity.label, self.depth, self.relation, parentKey⟩ ::
        cards) := by
  have hnumber : ∀ number, some next = some number → number < next + 1 :=
    fun number heq => Option.some.inj heq ▸ Nat.lt_succ_self _
  constructor
  case closed => exact hbelow.closed.cons hself
  case cards =>
    rw [List.map_cons, ← hbelow.cards]
    congr 1
    · rw [Member.cardIn, parentKeyIn_of_parent hparent hself]
    · refine map_cardIn_congr fun member hmember => ?_
      rcases hbelow.closed member hmember with hunder | ⟨i, hi, hinner⟩
      · rw [parentKeyIn_of_parent hnumber hunder, parentKeyIn_of_number (i := 0) hunder]
        rfl
      · have hinner' : member.parent = some (next + (i + 1)) := by
          rw [hinner, Nat.add_right_comm, Nat.add_assoc]
        rw [parentKeyIn_of_number hinner, parentKeyIn_of_number hinner',
          List.getElem?_cons_succ]

theorem visitChildren_lists {path : Path} {number index : Nat} {visits : List Visit}
    {rolls : List Roll} (hvisits : List.Forall₂ Visit.Lists visits rolls)
    (position : Nat) (hnumber : number < next) :
    Result.Related Eq (fun below cards => HasCards (some number) parentKey next below.2 cards)
      (visitChildren path number index position next visits)
      (rollChildren (path.length + 1) index parentKey rolls) := by
  induction hvisits generalizing position next with
  | nil => exact .ok .nil
  | @cons visit roll _ _ hfirst _ ih =>
      have hearlier : ∀ other, some number = some other → other < next :=
        fun other heq => Option.some.inj heq ▸ hnumber
      have hlength : (path ++ [⟨index, position⟩] : Path).length = path.length + 1 :=
        List.length_append
      rw [visitChildren, rollChildren_cons, ← hlength]
      refine (hfirst _ _ _ _ parentKey hearlier).bind fun subtree cards hsubtree => ?_
      rw [hlength]
      refine (ih (position + 1) (Nat.lt_add_right _ hnumber)).bind fun below others hbelow => ?_
      exact .ok (hsubtree.append hearlier hbelow)

theorem visitRelations_lists {e : Entity} {visits : Slot → List Visit} {rolls : Slot → List Roll}
    {path : Path} {number : Nat} (relations : List Relation)
    (hvisits : ∀ slot, List.Forall₂ Visit.Lists (visits slot) (rolls slot)) (index : Nat)
    (visited : List Slot) (hnumber : number < next) :
    Result.Related Eq (fun below cards => HasCards (some number) parentKey next below.2 cards)
      (visitRelations e visits path number index next visited relations)
      (rollRelations e rolls (path.length + 1) parentKey index visited relations) := by
  induction relations generalizing index next visited with
  | nil => exact .ok .nil
  | cons relation rest ih =>
      have hearlier : ∀ other, some number = some other → other < next :=
        fun other heq => Option.some.inj heq ▸ hnumber
      rw [visitRelations, rollRelations]
      refine .self_bind (fun _ => rfl) _ fun _ => ?_
      split
      · exact ih _ _ hnumber
      · refine (visitChildren_lists (hvisits relation.slot) 0 hnumber).bind
          fun below cards hbelow => ?_
        refine (ih _ _ (Nat.lt_add_right _ hnumber)).bind fun beyond others hbeyond => ?_
        exact .ok (hbelow.append hearlier hbeyond)

end Listing

/-- A traversal of an entity lists what its roll does. -/
theorem visitEntity_lists (registry : Registry) :
    ∀ e, Visit.Lists (visitEntity registry e) (rollEntity registry e) := by
  refine Entity.treeInduction fun type fields members ih => ?_
  intro path parent relation next parentKey hparent
  rw [visitEntity_eq, rollEntity_eq]
  refine .self_bind (fun _ => rfl) _ fun mapping => .self_bind (fun _ => rfl) _ fun key => ?_
  have hvisits : ∀ slot, List.Forall₂ Visit.Lists
      (((Entity.mk type fields members).children slot).map (visitEntity registry))
      (((Entity.mk type fields members).children slot).map (rollEntity registry)) := by
    intro slot
    rw [List.forall₂_map_left_iff, List.forall₂_map_right_iff, List.forall₂_same]
    exact fun child hchild => ih _ (Entity.mem_of_mem_inSlot hchild)
  refine (visitRelations_lists mapping.relations hvisits 0 [] (Nat.lt_succ_self next)).bind
    fun below cards hbelow => ?_
  exact .ok (.cons hparent rfl hbelow)

/-- The card of a member of a whole graph. -/
def Member.card (members : List Member) (member : Member) : Card :=
  ⟨member.key, member.mapping, member.entity.label, member.depth, member.relation,
    member.parentKey members⟩

/-- In a whole graph no member hangs under anything else. -/
theorem Member.cardIn_eq_card (members : List Member) (member : Member) :
    member.cardIn none 0 members = member.card members := by
  rw [cardIn, card, parentKeyIn, parentKey]
  cases member.parent <;> rfl

/-- The cards of a graph that may be absent. -/
def Registry.roll (registry : Registry) : Option Entity → Result (List Card)
  | some root => rollEntity registry root 0 none none
  | none => .ok []

/-- The cards of the members are the roll. -/
theorem Registry.members_roll (registry : Registry) (graph : Option Entity) :
    Result.Related Eq (fun members cards => members.map (Member.card members) = cards)
      (registry.members graph) (registry.roll graph) := by
  cases graph with
  | none => exact .ok rfl
  | some root =>
      have hlists := visitEntity_lists registry root [] none none 0 none nofun
      refine Result.Related.mono hlists fun members cards hcards => ?_
      rw [← hcards.cards]
      exact List.map_congr_left fun member _ => (member.cardIn_eq_card members).symm

end AggregateSync
