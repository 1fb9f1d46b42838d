import AggregateSync.Proofs.Result
import AggregateSync.Graph.Traversal
import Mathlib.Data.List.Nodup

/-!
# What a traversal lists

A traversal of an aggregate lists its root first, and every other member after the
member that holds it, at the path that leads there.  `IsTraversal` collects what the
other modules need to know about such a list; `traverse_isTraversal` is proved along
the three recursions of the traversal, each block of members being described relative
to the entity it was found under.
-/

namespace AggregateSync

namespace Entity

/-- Entities are trees: what holds of an entity as soon as it holds of its children
holds of all. -/
theorem treeInduction {P : Entity → Prop}
    (mk : ∀ type fields members, (∀ member ∈ members, P member.2) →
      P (.mk type fields members)) : ∀ e, P e
  | .mk type fields members => mk type fields members fun member hmember =>
      have := List.sizeOf_lt_of_mem hmember
      treeInduction mk member.2
termination_by e => sizeOf e
decreasing_by
  obtain ⟨slot, child⟩ := member
  simp only [Prod.mk.sizeOf_spec, Entity.mk.sizeOf_spec] at *
  omega

theorem inSlot_map {α β : Type} (f : α → β) (slot : Slot) (members : List (Slot × α)) :
    inSlot slot (members.map fun member => (member.1, f member.2)) =
      (inSlot slot members).map f := by
  have hfilter : ((members.map fun member => (member.1, f member.2)).filter
      fun member => decide (member.1 = slot)).map Prod.snd =
        ((members.filter fun member => decide (member.1 = slot)).map Prod.snd).map f := by
    rw [List.filter_map, List.map_map, List.map_map]
    rfl
  simp only [inSlot, hfilter]
  split
  · rfl
  · rw [List.map_take]

/-- What stands in a slot is among the members. -/
theorem mem_of_mem_inSlot {α : Type} {slot : Slot} {members : List (Slot × α)} {a : α}
    (ha : a ∈ inSlot slot members) : (slot, a) ∈ members := by
  have hall : a ∈ (members.filter fun member => decide (member.1 = slot)).map Prod.snd := by
    simp only [inSlot] at ha
    split at ha
    · exact ha
    · exact List.mem_of_mem_take ha
  obtain ⟨⟨other, b⟩, hmember, rfl⟩ := List.mem_map.1 hall
  obtain ⟨hmember, hslot⟩ := List.mem_filter.1 hmember
  rw [← of_decide_eq_true hslot]
  exact hmember

/-- Where all children stand in one list, that list is what its slot shows, and the others are
empty. -/
theorem children_of_one_list {type : EntityType} {fields : List (Field × Value)} {list : Slot}
    (hlist : list.isMany = true) (kids : List Entity) (slot : Slot) :
    (Entity.mk type fields (kids.map fun kid => (list, kid))).children slot =
      if slot = list then kids else [] := by
  by_cases hslot : slot = list
  · subst hslot
    simp [children, members, inSlot, List.filter_map, Function.comp_def, hlist]
  · have hdiffer : ¬ list = slot := fun heq => hslot heq.symm
    simp [children, members, inSlot, List.filter_map, Function.comp_def, hslot, hdiffer]

end Entity

theorem visitMembers_eq_map (registry : Registry) (members : List (Slot × Entity)) :
    visitMembers registry members =
      members.map fun member => (member.1, visitEntity registry member.2) := by
  induction members with
  | nil => rfl
  | cons member rest ih =>
      obtain ⟨slot, child⟩ := member
      rw [visitMembers, ih, List.map_cons]

/-- The traversal of an entity, in terms of the traversals of its children. -/
theorem visitEntity_eq (registry : Registry) (e : Entity) (path : Path)
    (parent relation : Option Nat) (number : Nat) :
    visitEntity registry e path parent relation number = (do
      let mapping ← registry.mappingFor e
      let key ← mapping.identityKey e
      let (children, below) ← visitRelations e
        (fun slot => (e.children slot).map (visitEntity registry)) path number 0
        (number + 1) [] mapping.relations
      return ⟨key, e, mapping, path, parent, relation, children⟩ :: below) := by
  obtain ⟨type, fields, members⟩ := e
  rw [visitEntity]
  have hvisits : (fun slot => Entity.inSlot slot (visitMembers registry members)) =
      fun slot => ((Entity.mk type fields members).children slot).map
        (visitEntity registry) := by
    funext slot
    rw [visitMembers_eq_map, Entity.inSlot_map]
    rfl
  simp only [hvisits]

theorem Relation.children_eq {relation : Relation} {e : Entity} {found : List Entity}
    (hfound : relation.children e = .ok found) : found = e.children relation.slot := by
  obtain ⟨held, hheld, hrest⟩ := Result.bind_eq_ok.1 hfound
  obtain ⟨_, _, rfl⟩ := Result.map_eq_ok.1 hheld
  split at hrest
  · cases hrest
  · cases hrest
    rfl

namespace Member

/-- The member stands under an entity: in the slot of the relation with which its path
goes on from there, the first relation of that slot. -/
def IsChildOf (child : Member) (mapping : ClassMapping) (e : Entity) (path : Path) : Prop :=
  ∃ segment relation,
    child.path = path ++ [segment] ∧ child.relation = some segment.relation ∧
    mapping.relations[segment.relation]? = some relation ∧
    (∀ earlier < segment.relation, ∀ other, mapping.relations[earlier]? = some other →
      other.slot ≠ relation.slot) ∧
    relation.children e = .ok (e.children relation.slot) ∧
    (e.children relation.slot)[segment.index]? = some child.entity

/-- The member knows the mapping and the identity of its entity. -/
def IsKnown (registry : Registry) (member : Member) : Prop :=
  registry.mappingFor member.entity = .ok member.mapping ∧
    member.mapping.identityKey member.entity = .ok member.key

/-- The member hangs directly under another one of the same graph. -/
def IsDirectlyBelow (child parent : Member) : Prop :=
  ∃ segment, child.path = parent.path ++ [segment]

theorem IsDirectlyBelow.depth_lt {child parent : Member}
    (hbelow : child.IsDirectlyBelow parent) : parent.depth < child.depth := by
  obtain ⟨segment, hpath⟩ := hbelow
  rw [depth, depth, hpath, List.length_append]
  exact Nat.lt_succ_self _

end Member

/-- A block of members numbered from `next` on: each is a child of the entity with the
given number, or of an earlier member of the block. -/
def IsBelow (mapping : ClassMapping) (e : Entity) (path : Path) (number next : Nat)
    (block : List Member) : Prop :=
  ∀ i child, block[i]? = some child →
    (child.parent = some number ∧ child.IsChildOf mapping e path) ∨
    ∃ p < i, ∃ parent, block[p]? = some parent ∧ child.parent = some (next + p) ∧
      child.IsChildOf parent.mapping parent.entity parent.path

theorem IsBelow.append {mapping : ClassMapping} {e : Entity} {path : Path}
    {number next : Nat} {block others : List Member}
    (hblock : IsBelow mapping e path number next block)
    (hothers : IsBelow mapping e path number (next + block.length) others) :
    IsBelow mapping e path number next (block ++ others) := by
  intro i child hchild
  by_cases hi : i < block.length
  · rw [List.getElem?_append_left hi] at hchild
    refine (hblock i child hchild).imp_right ?_
    rintro ⟨p, hp, parent, hparent, hrest⟩
    refine ⟨p, hp, parent, ?_, hrest⟩
    rwa [List.getElem?_append_left (Nat.lt_trans hp hi)]
  · rw [List.getElem?_append_right (Nat.le_of_not_lt hi)] at hchild
    refine (hothers _ child hchild).imp_right ?_
    rintro ⟨p, hp, parent, hparent, hnumber, hrest⟩
    refine ⟨block.length + p, by omega, parent, ?_, ?_, hrest⟩
    · rwa [List.getElem?_append_right (Nat.le_add_right _ _), Nat.add_sub_cancel_left]
    · rw [hnumber, Nat.add_assoc]

/-- Every member hangs under the parent of the whole list or under a member of it. -/
def IsClosed (parent : Option Nat) (next : Nat) (block : List Member) : Prop :=
  ∀ member ∈ block, member.parent = parent ∨
    ∃ i < block.length, member.parent = some (next + i)

theorem IsClosed.append {parent : Option Nat} {next : Nat} {block others : List Member}
    (hblock : IsClosed parent next block)
    (hothers : IsClosed parent (next + block.length) others) :
    IsClosed parent next (block ++ others) := by
  intro member hmember
  rw [List.length_append]
  rcases List.mem_append.1 hmember with hleft | hright
  · refine (hblock member hleft).imp_right ?_
    rintro ⟨i, hi, hnumber⟩
    exact ⟨i, Nat.lt_add_right _ hi, hnumber⟩
  · refine (hothers member hright).imp_right ?_
    rintro ⟨i, hi, hnumber⟩
    exact ⟨block.length + i, Nat.add_lt_add_left hi _, by rw [hnumber, Nat.add_assoc]⟩

theorem IsClosed.cons {parent : Option Nat} {next : Nat} {self : Member} {below : List Member}
    (hself : self.parent = parent) (hbelow : IsClosed (some next) (next + 1) below) :
    IsClosed parent next (self :: below) := by
  intro member hmember
  rcases List.mem_cons.1 hmember with rfl | hmember
  · exact .inl hself
  · right
    rcases hbelow member hmember with hunder | ⟨i, hi, hinner⟩
    · exact ⟨0, Nat.succ_pos _, hunder⟩
    · exact ⟨i + 1, Nat.succ_lt_succ hi, by rw [hinner, Nat.add_right_comm, Nat.add_assoc]⟩

/-- The members of one subtree, the first of which is `e` itself. -/
structure IsSubtree (registry : Registry) (e : Entity) (path : Path)
    (parent relation : Option Nat) (number : Nat) (members : List Member) : Prop where
  shape : ∃ self below, members = self :: below ∧ self.entity = e ∧ self.path = path ∧
    self.parent = parent ∧ self.relation = relation ∧
    IsBelow self.mapping e path number (number + 1) below
  known : ∀ member ∈ members, member.IsKnown registry
  within : ∀ member ∈ members, path <+: member.path
  distinct : (members.map Member.path).Nodup

/-- The members below an entity, each through a step that is allowed. -/
structure IsForest (registry : Registry) (mapping : ClassMapping) (e : Entity) (path : Path)
    (number next : Nat) (allowed : Segment → Prop) (block : List Member) : Prop where
  below : IsBelow mapping e path number next block
  known : ∀ member ∈ block, member.IsKnown registry
  within : ∀ member ∈ block, ∃ segment, allowed segment ∧ path ++ [segment] <+: member.path
  distinct : (block.map Member.path).Nodup


theorem IsForest.nil {registry : Registry} {mapping : ClassMapping} {e : Entity}
    {path : Path} {number next : Nat} {allowed : Segment → Prop} :
    IsForest registry mapping e path number next allowed [] where
  below := by simp [IsBelow]
  known := by simp
  within := by simp
  distinct := by simp

/-- Two forests under one entity whose first steps are told apart. -/
theorem IsForest.append {registry : Registry} {mapping : ClassMapping} {e : Entity}
    {path : Path} {number next : Nat} {allowed allowed' : Segment → Prop}
    {block others : List Member}
    (hblock : IsForest registry mapping e path number next allowed block)
    (hothers : IsForest registry mapping e path number (next + block.length) allowed' others)
    (hapart : ∀ segment, allowed segment → ¬ allowed' segment) :
    IsForest registry mapping e path number next
      (fun segment => allowed segment ∨ allowed' segment) (block ++ others) where
  below := hblock.below.append hothers.below
  known := by
    intro member hmember
    rcases List.mem_append.1 hmember with hleft | hright
    · exact hblock.known member hleft
    · exact hothers.known member hright
  within := by
    intro member hmember
    rcases List.mem_append.1 hmember with hleft | hright
    · obtain ⟨segment, hallowed, hprefix⟩ := hblock.within member hleft
      exact ⟨segment, .inl hallowed, hprefix⟩
    · obtain ⟨segment, hallowed, hprefix⟩ := hothers.within member hright
      exact ⟨segment, .inr hallowed, hprefix⟩
  distinct := by
    rw [List.map_append, List.nodup_append]
    refine ⟨hblock.distinct, hothers.distinct, ?_⟩
    rintro place hplace _ hplace' rfl
    obtain ⟨member, hmember, rfl⟩ := List.mem_map.1 hplace
    obtain ⟨other, hother, hsame⟩ := List.mem_map.1 hplace'
    obtain ⟨segment, hallowed, hprefix⟩ := hblock.within member hmember
    obtain ⟨segment', hallowed', hprefix'⟩ := hothers.within other hother
    rw [hsame] at hprefix'
    have hsegments : path ++ [segment] = path ++ [segment'] :=
      (List.prefix_of_prefix_length_le hprefix hprefix' (by simp)).eq_of_length (by simp)
    obtain rfl : segment = segment' := by simpa using hsegments
    exact hapart segment hallowed hallowed'

theorem IsForest.weaken {registry : Registry} {mapping : ClassMapping} {e : Entity}
    {path : Path} {number next : Nat} {allowed allowed' : Segment → Prop}
    {block : List Member} (hblock : IsForest registry mapping e path number next allowed block)
    (hallowed : ∀ segment, allowed segment → allowed' segment) :
    IsForest registry mapping e path number next allowed' block where
  below := hblock.below
  known := hblock.known
  within := fun member hmember =>
    let ⟨segment, hsegment, hprefix⟩ := hblock.within member hmember
    ⟨segment, hallowed segment hsegment, hprefix⟩
  distinct := hblock.distinct

/-- A subtree is a forest under the entity that holds it. -/
theorem IsSubtree.isForest {registry : Registry} {mapping : ClassMapping} {e child : Entity}
    {path : Path} {number next : Nat} {segment : Segment} {relation : Relation}
    {members : List Member}
    (hsubtree : IsSubtree registry child (path ++ [segment]) (some number)
      (some segment.relation) next members)
    (hrelation : mapping.relations[segment.relation]? = some relation)
    (hfirst : ∀ earlier < segment.relation, ∀ other,
      mapping.relations[earlier]? = some other → other.slot ≠ relation.slot)
    (hchildren : relation.children e = .ok (e.children relation.slot))
    (hchild : (e.children relation.slot)[segment.index]? = some child) :
    IsForest registry mapping e path number next (· = segment) members where
  below := by
    obtain ⟨self, below, rfl, hentity, hpath, hparent, hself, hbelow⟩ := hsubtree.shape
    intro i member hmember
    cases i with
    | zero =>
        obtain rfl : self = member := by simpa using hmember
        refine .inl ⟨hparent, segment, relation, hpath, hself, hrelation, hfirst, hchildren, ?_⟩
        rw [hentity, hchild]
    | succ i =>
        right
        rcases hbelow i member hmember with ⟨hnumber, hunder⟩ | ⟨p, hp, parent, hget, hrest⟩
        · refine ⟨0, Nat.succ_pos i, self, rfl, hnumber, ?_⟩
          rwa [hentity, hpath]
        · refine ⟨p + 1, by omega, parent, hget, ?_, hrest.2⟩
          rw [hrest.1]
          congr 1
          omega
  known := hsubtree.known
  within := fun member hmember => ⟨segment, rfl, hsubtree.within member hmember⟩
  distinct := hsubtree.distinct

/-- Every traversal of an entity lists a subtree. -/
def VisitsSubtree (registry : Registry) (e : Entity) : Prop :=
  ∀ path parent relation number members,
    visitEntity registry e path parent relation number = .ok members →
      IsSubtree registry e path parent relation number members

section Visit

variable {registry : Registry} {mapping : ClassMapping} {e : Entity} {path : Path}
  {number : Nat}

/-- The children of one relation, from a position on. -/
theorem visitChildren_isForest {relation : Relation} {index : Nat}
    (hrelation : mapping.relations[index]? = some relation)
    (hfirst : ∀ earlier < index, ∀ other,
      mapping.relations[earlier]? = some other → other.slot ≠ relation.slot)
    (hchildren : relation.children e = .ok (e.children relation.slot))
    (kids : List Entity) (hkids : ∀ kid ∈ kids, VisitsSubtree registry kid) :
    ∀ {position next : Nat} {numbers : List Nat} {block : List Member},
      (e.children relation.slot).drop position = kids →
      visitChildren path number index position next (kids.map (visitEntity registry)) =
        .ok (numbers, block) →
      IsForest registry mapping e path number next
        (fun segment => segment.relation = index ∧ position ≤ segment.index) block := by
  induction kids with
  | nil =>
      intro position next numbers block _ hvisit
      cases hvisit
      exact .nil
  | cons kid rest ih =>
      intro position next numbers block hdrop hvisit
      obtain ⟨subtree, hsubtree, hvisit⟩ := Result.bind_eq_ok.1 hvisit
      obtain ⟨⟨numbers', others⟩, hothers, hvisit⟩ := Result.bind_eq_ok.1 hvisit
      cases hvisit
      have hkid : (e.children relation.slot)[position]? = some kid := by
        rw [← List.head?_drop, hdrop, List.head?_cons]
      have hrest : (e.children relation.slot).drop (position + 1) = rest := by
        rw [← List.tail_drop, hdrop, List.tail_cons]
      have hfirstBlock : IsForest registry mapping e path number next
          (· = ⟨index, position⟩) subtree :=
        (hkids kid List.mem_cons_self _ _ _ _ _ hsubtree).isForest hrelation hfirst
          hchildren hkid
      have hothersBlock := ih (fun kid hkid => hkids kid (List.mem_cons_of_mem _ hkid))
        hrest hothers
      refine (hfirstBlock.append hothersBlock ?_).weaken ?_
      · rintro _ rfl ⟨_, hposition⟩
        exact absurd hposition (by simp)
      · rintro segment (rfl | ⟨hindex, hposition⟩)
        · exact ⟨rfl, Nat.le_refl _⟩
        · exact ⟨hindex, by omega⟩

/-- The children of the relations from an index on.  The invariant is that the slots
of all earlier relations were visited. -/
theorem visitRelations_isForest
    (hkids : ∀ slot, ∀ kid ∈ e.children slot, VisitsSubtree registry kid)
    (relations : List Relation) :
    ∀ {index next : Nat} {visited : List Slot} {numbers : List Nat} {block : List Member},
      mapping.relations.drop index = relations →
      (∀ earlier < index, ∀ other, mapping.relations[earlier]? = some other →
        other.slot ∈ visited) →
      visitRelations e (fun slot => (e.children slot).map (visitEntity registry)) path
        number index next visited relations = .ok (numbers, block) →
      IsForest registry mapping e path number next
        (fun segment => index ≤ segment.relation) block := by
  induction relations with
  | nil =>
      intro index next visited numbers block _ _ hvisit
      cases hvisit
      exact .nil
  | cons relation rest ih =>
      intro index next visited numbers block hdrop hvisited hvisit
      have hrelation : mapping.relations[index]? = some relation := by
        rw [← List.head?_drop, hdrop, List.head?_cons]
      have hrest : mapping.relations.drop (index + 1) = rest := by
        rw [← List.tail_drop, hdrop, List.tail_cons]
      obtain ⟨found, hfound, hvisit⟩ := Result.bind_eq_ok.1 hvisit
      have hchildren : relation.children e = .ok (e.children relation.slot) := by
        rw [hfound, Relation.children_eq hfound]
      split at hvisit
      case isTrue hseen =>
        have hcovered : ∀ earlier < index + 1, ∀ other,
            mapping.relations[earlier]? = some other → other.slot ∈ visited := by
          intro earlier hearlier other hother
          rcases Nat.lt_succ_iff_lt_or_eq.1 hearlier with hlt | rfl
          · exact hvisited earlier hlt other hother
          · obtain rfl : relation = other := by simpa [hrelation] using hother
            simpa using hseen
        exact (ih hrest hcovered hvisit).weaken fun segment hindex => by omega
      case isFalse hseen =>
        obtain ⟨⟨numbers', below⟩, hbelow, hvisit⟩ := Result.bind_eq_ok.1 hvisit
        obtain ⟨⟨others, beyond⟩, hbeyond, hvisit⟩ := Result.bind_eq_ok.1 hvisit
        cases hvisit
        have hfirst : ∀ earlier < index, ∀ other,
            mapping.relations[earlier]? = some other → other.slot ≠ relation.slot := by
          intro earlier hearlier other hother hslot
          exact hseen (by simpa [hslot] using hvisited earlier hearlier other hother)
        have hcovered : ∀ earlier < index + 1, ∀ other,
            mapping.relations[earlier]? = some other →
              other.slot ∈ relation.slot :: visited := by
          intro earlier hearlier other hother
          rcases Nat.lt_succ_iff_lt_or_eq.1 hearlier with hlt | rfl
          · exact List.mem_cons_of_mem _ (hvisited earlier hlt other hother)
          · obtain rfl : relation = other := by simpa [hrelation] using hother
            exact List.mem_cons_self
        have hblock := visitChildren_isForest hrelation hfirst hchildren
          (e.children relation.slot) (hkids relation.slot) (List.drop_zero ..) hbelow
        refine (hblock.append (ih hrest hcovered hbeyond) ?_).weaken ?_
        · rintro segment ⟨hindex, _⟩ hlater
          omega
        · rintro segment (⟨hindex, _⟩ | hlater) <;> omega

end Visit

theorem visitEntity_isSubtree (registry : Registry) : ∀ e, VisitsSubtree registry e := by
  refine Entity.treeInduction fun type fields members ih => ?_
  intro path parent relation number block hvisit
  have hkids : ∀ slot, ∀ kid ∈ (Entity.mk type fields members).children slot,
      VisitsSubtree registry kid := fun slot kid hkid =>
    ih _ (Entity.mem_of_mem_inSlot hkid)
  rw [visitEntity_eq] at hvisit
  obtain ⟨mapping, hmapping, hvisit⟩ := Result.bind_eq_ok.1 hvisit
  obtain ⟨key, hkey, hvisit⟩ := Result.bind_eq_ok.1 hvisit
  obtain ⟨⟨children, below⟩, hbelow, hvisit⟩ := Result.bind_eq_ok.1 hvisit
  cases hvisit
  have hforest : IsForest registry mapping (Entity.mk type fields members) path number
      (number + 1) (fun segment => 0 ≤ segment.relation) below :=
    visitRelations_isForest hkids mapping.relations (List.drop_zero ..) (by simp) hbelow
  constructor
  case shape => exact ⟨_, below, rfl, rfl, rfl, rfl, rfl, hforest.below⟩
  case known =>
    intro member hmember
    rcases List.mem_cons.1 hmember with rfl | hbelow
    · exact ⟨hmapping, hkey⟩
    · exact hforest.known member hbelow
  case within =>
    intro member hmember
    rcases List.mem_cons.1 hmember with rfl | hbelow
    · exact List.prefix_rfl
    · obtain ⟨segment, _, hprefix⟩ := hforest.within member hbelow
      exact (List.prefix_append _ _).trans hprefix
  case distinct =>
    rw [List.map_cons, List.nodup_cons]
    refine ⟨?_, hforest.distinct⟩
    intro hself
    obtain ⟨member, hmember, hpath⟩ := List.mem_map.1 hself
    obtain ⟨segment, _, hprefix⟩ := hforest.within member hmember
    have hlength := hprefix.length_le
    rw [show member.path = path from hpath, List.length_append,
      List.length_singleton] at hlength
    omega

/-- What a traversal of `root` lists. -/
structure IsTraversal (registry : Registry) (root : Entity) (members : List Member) :
    Prop where
  /-- The root comes first. -/
  root : ∃ self rest, members = self :: rest ∧ self.entity = root ∧ self.path = [] ∧
    self.parent = none ∧ self.relation = none
  /-- Every other member comes after the member that holds it. -/
  linked : ∀ i child, members[i + 1]? = some child →
    ∃ p ≤ i, ∃ parent, members[p]? = some parent ∧ child.parent = some p ∧
      child.IsChildOf parent.mapping parent.entity parent.path
  known : ∀ member ∈ members, member.IsKnown registry
  distinct : (members.map Member.path).Nodup

theorem traverse_isTraversal {registry : Registry} {root : Entity} {members : List Member}
    (htraverse : registry.traverse root = .ok members) :
    IsTraversal registry root members := by
  have hsubtree := visitEntity_isSubtree registry root _ _ _ _ _ htraverse
  obtain ⟨self, below, rfl, hentity, hpath, hparent, hrelation, hbelow⟩ := hsubtree.shape
  refine ⟨⟨self, below, rfl, hentity, hpath, hparent, hrelation⟩, ?_, hsubtree.known,
    hsubtree.distinct⟩
  intro i child hchild
  rcases hbelow i child hchild with ⟨hnumber, hunder⟩ | ⟨p, hp, parent, hget, hnumber, hunder⟩
  · refine ⟨0, Nat.zero_le i, self, rfl, hnumber, ?_⟩
    rwa [hentity, hpath]
  · refine ⟨p + 1, hp, parent, hget, ?_, hunder⟩
    rw [hnumber]
    congr 1
    omega

end AggregateSync
