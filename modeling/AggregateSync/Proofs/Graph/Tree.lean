import AggregateSync.Proofs.Graph.Partition
import AggregateSync.Proofs.Graph.Resolution

/-!
# The tree that a traversal builds

A traversal numbers the members, and each names its parent and its children by number.
The two agree: the children of a member are those that name it as parent, in the order of
their numbers.  Nothing is left out either: whatever the declared relations lead to from
the root is listed, also where several relations of a class share a slot.
-/

namespace AggregateSync

/-! ## The numbers of the children -/

/-- The numbers of those members of a list that name a parent, the list being numbered
from `next` on. -/
def childNumbers (parent next : Nat) (block : List Member) : List Nat :=
  ((block.zipIdx next).filter fun entry => entry.1.parent == some parent).map Prod.snd

section Children

variable {parent next number : Nat} {block others : List Member}

theorem childNumbers_append :
    childNumbers parent next (block ++ others) =
      childNumbers parent next block ++ childNumbers parent (next + block.length) others := by
  rw [childNumbers, List.zipIdx_append, List.filter_append, List.map_append]
  rfl

theorem mem_childNumbers :
    number ∈ childNumbers parent next block ↔
      ∃ i member, block[i]? = some member ∧ member.parent = some parent ∧ number = next + i := by
  rw [childNumbers, List.mem_map]
  constructor
  · rintro ⟨⟨member, _⟩, hentry, rfl⟩
    obtain ⟨hentry, hparent⟩ := List.mem_filter.1 hentry
    obtain ⟨hnext, hmember⟩ := List.mem_zipIdx_iff_le_and_getElem?_sub.1 hentry
    exact ⟨_, member, hmember, beq_iff_eq.1 hparent, (Nat.add_sub_cancel' hnext).symm⟩
  · rintro ⟨i, member, hmember, hparent, rfl⟩
    refine ⟨(member, next + i), List.mem_filter.2 ⟨?_, beq_iff_eq.2 hparent⟩, rfl⟩
    exact List.mk_add_mem_zipIdx_iff_getElem?.2 hmember

/-- The numbers ascend, so none occurs twice. -/
theorem childNumbers_pairwise : (childNumbers parent next block).Pairwise (· < ·) := by
  have hsublist : (childNumbers parent next block).Sublist (List.range' next block.length) := by
    rw [← List.zipIdx_map_snd next block]
    exact List.filter_sublist.map _
  exact List.Pairwise.sublist hsublist List.pairwise_lt_range'

theorem childNumbers_eq_nil (hnone : ∀ member ∈ block, member.parent ≠ some parent) :
    childNumbers parent next block = [] := by
  rw [List.eq_nil_iff_forall_not_mem]
  intro number hnumber
  obtain ⟨i, member, hmember, hparent, _⟩ := mem_childNumbers.1 hnumber
  exact hnone member (List.mem_of_getElem? hmember) hparent

end Children

/-- A list of members numbered from `next` on, under one parent: those directly under the
parent are `tops`, and every member lists the ones that hang directly under it. -/
structure IsListed (parent : Option Nat) (next : Nat) (tops : List Nat)
    (block : List Member) : Prop where
  closed : IsClosed parent next block
  tops : ∀ number, parent = some number → childNumbers number next block = tops
  children : ∀ i member, block[i]? = some member →
    member.children = childNumbers (next + i) next block

/-- The traversal gives a list in which every member lists its children. -/
def Visit.IsListed (visit : Visit) : Prop :=
  ∀ path parent relation next members, (∀ number, parent = some number → number < next) →
    visit path parent relation next = .ok members →
      AggregateSync.IsListed parent next [next] members

section Listed

variable {parent : Option Nat} {next : Nat}

/-- Nothing in a closed list names a parent that is neither that of the list nor in it. -/
theorem IsClosed.childNumbers_eq_nil {block : List Member} {number from' : Nat}
    (hclosed : IsClosed parent next block) (hparent : parent ≠ some number)
    (houtside : number < next ∨ next + block.length ≤ number) :
    childNumbers number from' block = [] := by
  refine AggregateSync.childNumbers_eq_nil fun member hmember hnumber => ?_
  rcases hclosed member hmember with htop | ⟨i, hi, hinner⟩
  · exact hparent (htop.symm.trans hnumber)
  · obtain rfl : next + i = number := Option.some.inj (hinner.symm.trans hnumber)
    omega

theorem IsListed.nil : IsListed parent next [] [] := ⟨nofun, fun _ _ => rfl, nofun⟩

/-- Lists under one parent that follow each other. -/
theorem IsListed.append {block others : List Member} {numbers numbers' : List Nat}
    (hparent : ∀ number, parent = some number → number < next)
    (hblock : IsListed parent next numbers block)
    (hothers : IsListed parent (next + block.length) numbers' others) :
    IsListed parent next (numbers ++ numbers') (block ++ others) := by
  -- what is numbered in one of the lists is the parent of nothing in the other
  have hapart : ∀ number, next ≤ number → parent ≠ some number := by
    intro number hnumber hsame
    exact absurd (hparent number hsame) (Nat.not_lt.2 hnumber)
  constructor
  case closed => exact hblock.closed.append hothers.closed
  case tops =>
    intro number hnumber
    rw [childNumbers_append, hblock.tops number hnumber, hothers.tops number hnumber]
  case children =>
    intro i member hmember
    rw [childNumbers_append]
    by_cases hi : i < block.length
    · rw [List.getElem?_append_left hi] at hmember
      rw [hblock.children i member hmember, hothers.closed.childNumbers_eq_nil
        (hapart _ (Nat.le_add_right next i)) (.inl (Nat.add_lt_add_left hi next)),
        List.append_nil]
    · have hlate : block.length ≤ i := Nat.le_of_not_lt hi
      rw [List.getElem?_append_right hlate] at hmember
      rw [hblock.closed.childNumbers_eq_nil (hapart _ (Nat.le_add_right next i))
        (.inr (Nat.add_le_add_left hlate next)), List.nil_append,
        hothers.children _ member hmember, Nat.add_assoc, Nat.add_sub_cancel' hlate]

/-- A member and what hangs under it. -/
theorem IsListed.cons {self : Member} {below : List Member}
    (hparent : ∀ number, parent = some number → number < next) (hself : self.parent = parent)
    (hbelow : IsListed (some next) (next + 1) self.children below) :
    IsListed parent next [next] (self :: below) := by
  have hsplit : ∀ number, childNumbers number next (self :: below) =
      childNumbers number next [self] ++ childNumbers number (next + 1) below := fun number =>
    @childNumbers_append number next [self] below
  have hnoneAbove : ∀ number, parent ≠ some number → childNumbers number next [self] = [] := by
    intro number hdiffer
    refine childNumbers_eq_nil fun member hmember hnumber => hdiffer ?_
    rw [← hself, ← List.mem_singleton.1 hmember, hnumber]
  have hapart : ∀ number, next ≤ number → parent ≠ some number := by
    intro number hnumber hsame
    exact absurd (hparent number hsame) (Nat.not_lt.2 hnumber)
  constructor
  case closed => exact hbelow.closed.cons hself
  case tops =>
    intro number hnumber
    have hlt := hparent number hnumber
    have hnone : childNumbers number (next + 1) below = [] :=
      hbelow.closed.childNumbers_eq_nil (by simpa using Nat.ne_of_gt hlt)
        (.inl (Nat.lt_succ_of_lt hlt))
    rw [hsplit, hnone, childNumbers]
    simp [hself, hnumber]
  case children =>
    intro i member hmember
    rw [hsplit, hnoneAbove _ (hapart _ (Nat.le_add_right next i)), List.nil_append]
    cases i with
    | zero =>
        obtain rfl : self = member := by simpa using hmember
        exact (hbelow.tops next rfl).symm
    | succ i =>
        rw [hbelow.children i member hmember, Nat.add_right_comm, Nat.add_assoc]

theorem visitChildren_isListed {path : Path} {number index : Nat} {visits : List Visit}
    (hvisits : ∀ visit ∈ visits, Visit.IsListed visit) :
    ∀ {position next : Nat} {numbers : List Nat} {block : List Member}, number < next →
      visitChildren path number index position next visits = .ok (numbers, block) →
      IsListed (some number) next numbers block := by
  induction visits with
  | nil =>
      intro position next numbers block _ hvisit
      cases hvisit
      exact .nil
  | cons visit rest ih =>
      intro position next numbers block hnumber hvisit
      obtain ⟨subtree, hsubtree, hvisit⟩ := Result.bind_eq_ok.1 hvisit
      obtain ⟨⟨numbers', others⟩, hothers, hvisit⟩ := Result.bind_eq_ok.1 hvisit
      cases hvisit
      have hearlier : ∀ other, some number = some other → other < next :=
        fun other heq => Option.some.inj heq ▸ hnumber
      exact (hvisits visit List.mem_cons_self _ _ _ _ _ hearlier hsubtree).append hearlier
        (ih (fun visit hvisit => hvisits visit (List.mem_cons_of_mem _ hvisit))
          (Nat.lt_add_right _ hnumber) hothers)

theorem visitRelations_isListed {e : Entity} {visits : Slot → List Visit} {path : Path}
    {number : Nat} (hvisits : ∀ slot, ∀ visit ∈ visits slot, Visit.IsListed visit)
    (relations : List Relation) :
    ∀ {index next : Nat} {visited : List Slot} {numbers : List Nat} {block : List Member},
      number < next →
      visitRelations e visits path number index next visited relations = .ok (numbers, block) →
      IsListed (some number) next numbers block := by
  induction relations with
  | nil =>
      intro index next visited numbers block _ hvisit
      cases hvisit
      exact .nil
  | cons relation rest ih =>
      intro index next visited numbers block hnumber hvisit
      obtain ⟨found, _, hvisit⟩ := Result.bind_eq_ok.1 hvisit
      split at hvisit
      case isTrue => exact ih hnumber hvisit
      case isFalse =>
        obtain ⟨⟨numbers', below⟩, hbelow, hvisit⟩ := Result.bind_eq_ok.1 hvisit
        obtain ⟨⟨others, beyond⟩, hbeyond, hvisit⟩ := Result.bind_eq_ok.1 hvisit
        cases hvisit
        exact (visitChildren_isListed (hvisits relation.slot) hnumber hbelow).append
          (fun other heq => Option.some.inj heq ▸ hnumber)
          (ih (Nat.lt_add_right _ hnumber) hbeyond)

end Listed

theorem visitEntity_isListed (registry : Registry) :
    ∀ e, Visit.IsListed (visitEntity registry e) := by
  refine Entity.treeInduction fun type fields members ih => ?_
  intro path parent relation next block hparent hvisit
  rw [visitEntity_eq] at hvisit
  obtain ⟨mapping, _, hvisit⟩ := Result.bind_eq_ok.1 hvisit
  obtain ⟨key, _, hvisit⟩ := Result.bind_eq_ok.1 hvisit
  obtain ⟨⟨children, below⟩, hbelow, hvisit⟩ := Result.bind_eq_ok.1 hvisit
  cases hvisit
  have hvisits : ∀ slot, ∀ visit ∈ ((Entity.mk type fields members).children slot).map
      (visitEntity registry), Visit.IsListed visit := by
    intro slot visit hmember
    obtain ⟨child, hchild, rfl⟩ := List.mem_map.1 hmember
    exact ih _ (Entity.mem_of_mem_inSlot hchild)
  exact .cons hparent rfl
    (visitRelations_isListed hvisits mapping.relations (Nat.lt_succ_self next) hbelow)

/-- A member lists exactly those that name it as parent, in the order of their numbers. -/
theorem children_of_traverse {registry : Registry} {root : Entity} {members : List Member}
    (htraverse : registry.traverse root = .ok members) {p : Nat} {parent : Member}
    (hparent : members[p]? = some parent) : parent.children = childNumbers p 0 members := by
  have hlisted := visitEntity_isListed registry root [] none none 0 _ nofun htraverse
  simpa using hlisted.children p parent hparent

/-! ## Nothing is left out -/

/-- The member is found at a position of a slot of the entity of a class at `path`: the step
that leads to it goes through a relation of that slot. -/
def Member.StandsAt (found : Member) (mapping : ClassMapping) (path : Path) (slot : Slot)
    (position : Nat) : Prop :=
  ∃ index relation, mapping.relations[index]? = some relation ∧ relation.slot = slot ∧
    found.path = path ++ [⟨index, position⟩]

/-- Every child that a relation shows of an entity is in the list. -/
def Covers (mapping : ClassMapping) (e : Entity) (path : Path) (relation : Relation)
    (block : List Member) : Prop :=
  ∀ position < (e.children relation.slot).length,
    ∃ found ∈ block, found.StandsAt mapping path relation.slot position

/-- Every child of every member is in the list. -/
def IsFull (block : List Member) : Prop :=
  ∀ member ∈ block, ∀ relation ∈ member.mapping.relations,
    Covers member.mapping member.entity member.path relation block

/-- Every traversal of an entity lists all there is below it. -/
def VisitsFully (registry : Registry) (e : Entity) : Prop :=
  ∀ path parent relation next members,
    visitEntity registry e path parent relation next = .ok members → IsFull members

theorem Covers.mono {mapping : ClassMapping} {e : Entity} {path : Path} {relation : Relation}
    {block others : List Member} (hcovers : Covers mapping e path relation block)
    (hsubset : block ⊆ others) : Covers mapping e path relation others := by
  intro position hposition
  obtain ⟨found, hfound, hstands⟩ := hcovers position hposition
  exact ⟨found, hsubset hfound, hstands⟩

theorem IsFull.append {block others : List Member} (hblock : IsFull block)
    (hothers : IsFull others) : IsFull (block ++ others) := by
  intro member hmember relation hrelation
  rcases List.mem_append.1 hmember with hleft | hright
  · exact (hblock member hleft relation hrelation).mono (List.subset_append_left _ _)
  · exact (hothers member hright relation hrelation).mono (List.subset_append_right _ _)

section Full

variable {registry : Registry} {path : Path} {number : Nat}

theorem visitChildren_isFull {index : Nat} (kids : List Entity)
    (hkids : ∀ kid ∈ kids, VisitsFully registry kid) :
    ∀ {position next : Nat} {numbers : List Nat} {block : List Member},
      visitChildren path number index position next (kids.map (visitEntity registry)) =
        .ok (numbers, block) →
      IsFull block ∧ ∀ k < kids.length,
        ∃ found ∈ block, found.path = path ++ [⟨index, position + k⟩] := by
  induction kids with
  | nil =>
      intro position next numbers block hvisit
      cases hvisit
      exact ⟨nofun, nofun⟩
  | cons kid rest ih =>
      intro position next numbers block hvisit
      obtain ⟨subtree, hsubtree, hvisit⟩ := Result.bind_eq_ok.1 hvisit
      obtain ⟨⟨numbers', others⟩, hothers, hvisit⟩ := Result.bind_eq_ok.1 hvisit
      cases hvisit
      obtain ⟨hfull, hcovered⟩ :=
        ih (fun kid hkid => hkids kid (List.mem_cons_of_mem _ hkid)) hothers
      refine ⟨(hkids kid List.mem_cons_self _ _ _ _ _ hsubtree).append hfull, ?_⟩
      rintro (_ | k) hk
      · obtain ⟨self, below, rfl, _, hpath, _⟩ :=
          (visitEntity_isSubtree registry kid _ _ _ _ _ hsubtree).shape
        exact ⟨self, List.mem_append_left _ List.mem_cons_self, hpath⟩
      · obtain ⟨found, hfound, hpath⟩ := hcovered k (Nat.lt_of_succ_lt_succ hk)
        refine ⟨found, List.mem_append_right _ hfound, ?_⟩
        rw [hpath, Nat.add_right_comm, Nat.add_assoc]

/-- The relations from an index on whose slots were not visited before. -/
theorem visitRelations_isFull {mapping : ClassMapping} {e : Entity}
    (hkids : ∀ slot, ∀ kid ∈ e.children slot, VisitsFully registry kid)
    (relations : List Relation) :
    ∀ {index next : Nat} {visited : List Slot} {numbers : List Nat} {block : List Member},
      mapping.relations.drop index = relations →
      visitRelations e (fun slot => (e.children slot).map (visitEntity registry)) path
        number index next visited relations = .ok (numbers, block) →
      IsFull block ∧ ∀ relation ∈ relations, relation.slot ∉ visited →
        Covers mapping e path relation block := by
  induction relations with
  | nil =>
      intro index next visited numbers block _ hvisit
      cases hvisit
      exact ⟨nofun, nofun⟩
  | cons relation rest ih =>
      intro index next visited numbers block hdrop hvisit
      have hrelation : mapping.relations[index]? = some relation := by
        rw [← List.head?_drop, hdrop, List.head?_cons]
      have hrest : mapping.relations.drop (index + 1) = rest := by
        rw [← List.tail_drop, hdrop, List.tail_cons]
      obtain ⟨found, _, hvisit⟩ := Result.bind_eq_ok.1 hvisit
      split at hvisit
      case isTrue hseen =>
        obtain ⟨hfull, hcovers⟩ := ih hrest hvisit
        refine ⟨hfull, fun other hother hfresh => ?_⟩
        rcases List.mem_cons.1 hother with rfl | hother
        · exact absurd (List.contains_iff_mem.1 hseen) hfresh
        · exact hcovers other hother hfresh
      case isFalse =>
        obtain ⟨⟨numbers', below⟩, hbelow, hvisit⟩ := Result.bind_eq_ok.1 hvisit
        obtain ⟨⟨others, beyond⟩, hbeyond, hvisit⟩ := Result.bind_eq_ok.1 hvisit
        cases hvisit
        obtain ⟨hfullBelow, hcovered⟩ :=
          visitChildren_isFull (e.children relation.slot) (hkids relation.slot) hbelow
        obtain ⟨hfullBeyond, hcovers⟩ := ih hrest hbeyond
        -- also covers the later relations of the same slot, which are skipped
        have hslot : ∀ position < (e.children relation.slot).length, ∃ found ∈ below ++ beyond,
            found.StandsAt mapping path relation.slot position := by
          intro position hposition
          obtain ⟨found, hfound, hpath⟩ := hcovered position hposition
          rw [Nat.zero_add] at hpath
          exact ⟨found, List.mem_append_left _ hfound, index, relation, hrelation, rfl, hpath⟩
        refine ⟨hfullBelow.append hfullBeyond, fun other hother hfresh => ?_⟩
        by_cases hsame : other.slot = relation.slot
        · rw [Covers, hsame]
          exact hslot
        · rcases List.mem_cons.1 hother with rfl | hother
          · exact absurd rfl hsame
          · exact (hcovers other hother (by simp [hsame, hfresh])).mono
              (List.subset_append_right _ _)

end Full

theorem visitEntity_isFull (registry : Registry) : ∀ e, VisitsFully registry e := by
  refine Entity.treeInduction fun type fields members ih => ?_
  intro path parent relation next block hvisit
  have hkids : ∀ slot, ∀ kid ∈ (Entity.mk type fields members).children slot,
      VisitsFully registry kid := fun slot kid hkid => ih _ (Entity.mem_of_mem_inSlot hkid)
  rw [visitEntity_eq] at hvisit
  obtain ⟨mapping, _, hvisit⟩ := Result.bind_eq_ok.1 hvisit
  obtain ⟨key, _, hvisit⟩ := Result.bind_eq_ok.1 hvisit
  obtain ⟨⟨children, below⟩, hbelow, hvisit⟩ := Result.bind_eq_ok.1 hvisit
  cases hvisit
  obtain ⟨hfull, hcovers⟩ :=
    visitRelations_isFull hkids mapping.relations (List.drop_zero ..) hbelow
  intro member hmember other hother
  rcases List.mem_cons.1 hmember with rfl | hmember
  · exact (hcovers other hother List.not_mem_nil).mono (List.subset_cons_self _ _)
  · exact (hfull member hmember other hother).mono (List.subset_cons_self _ _)

/-! ## What the declared relations lead to -/

/-- A place that declared relations lead to from the root, with the entity there. -/
inductive Registry.Reaches (registry : Registry) (root : Entity) : Address → Entity → Prop
  | root : registry.Reaches root [] root
  | child {address : Address} {e child : Entity} {mapping : ClassMapping} {relation : Relation}
      {position : Nat} (habove : registry.Reaches root address e)
      (hmapping : registry.mappingFor e = .ok mapping) (hrelation : relation ∈ mapping.relations)
      (hchild : (e.children relation.slot)[position]? = some child) :
      registry.Reaches root (address ++ [(relation.slot, position)]) child

/-- Whatever a path reads is reached. -/
theorem Registry.reaches_of_descend {registry : Registry} {root : Entity} {whole path : Path} :
    ∀ {above address : Address} {e found : Entity}, registry.Reaches root above e →
      registry.descend whole path e = .ok found → registry.addressOf? path e = some address →
      registry.Reaches root (above ++ address) found := by
  induction path with
  | nil =>
      intro above address e found habove hfound haddress
      obtain rfl := Except.ok.inj hfound
      obtain rfl := Option.some.inj haddress
      rwa [List.append_nil]
  | cons segment rest ih =>
      intro above address e found habove hfound haddress
      obtain ⟨mapping, relation, child, hmapping, hrelation, _, hchild, hrest⟩ :=
        descend_cons_eq_ok.1 hfound
      obtain ⟨below, hbelow, _⟩ := addressOf?_of_descend hrest
      rw [addressOf?, mappingFor_eq_ok.1 hmapping] at haddress
      simp only [hrelation, hchild, hbelow, Option.bind_eq_bind, Option.bind_some,
        Option.pure_def, Option.some.injEq] at haddress
      subst haddress
      have hstep := ih (habove.child hmapping (List.mem_of_getElem? hrelation) hchild) hrest hbelow
      rwa [List.append_assoc] at hstep

namespace IsTraversal

variable {registry : Registry} {root : Entity} {members : List Member}

/-- Every member is reached, at the address of its path. -/
theorem reaches (htraversal : IsTraversal registry root members) {member : Member}
    (hmember : member ∈ members) :
    ∃ address, registry.addressOf? member.path root = some address ∧
      registry.Reaches root address member.entity := by
  have hresolve := htraversal.resolve hmember
  obtain ⟨address, haddress, _⟩ := Registry.addressOf?_of_descend hresolve
  exact ⟨address, haddress, Registry.reaches_of_descend .root hresolve haddress⟩

/-- In a full traversal, whatever is reached is a member. -/
theorem exists_of_reaches (htraversal : IsTraversal registry root members)
    (hfull : IsFull members) {address : Address} {e : Entity}
    (hreaches : registry.Reaches root address e) :
    ∃ member ∈ members, member.entity = e ∧
      registry.addressOf? member.path root = some address := by
  induction hreaches with
  | root =>
      obtain ⟨self, rest, rfl, hentity, hpath, _⟩ := htraversal.root
      exact ⟨self, List.mem_cons_self, hentity, by rw [hpath]; rfl⟩
  | @child address e child mapping relation position _ hmapping hrelation hchild ih =>
      obtain ⟨member, hmember, rfl, haddress⟩ := ih
      obtain rfl : mapping = member.mapping :=
        Except.ok.inj (hmapping.symm.trans (htraversal.known member hmember).1)
      obtain ⟨found, hfound, index, first, hfirst, hslot, hpath⟩ :=
        hfull member hmember relation hrelation position (List.getElem?_eq_some_iff.1 hchild).1
      obtain ⟨_, segment, relation', hpath', _, hrelation', _, _, hget⟩ :=
        htraversal.isChildOf_of_isDirectlyBelow hfound hmember ⟨_, hpath⟩
      obtain rfl : segment = ⟨index, position⟩ := by simpa using hpath'.symm.trans hpath
      obtain rfl : first = relation' := Option.some.inj (hfirst.symm.trans hrelation')
      rw [hslot] at hget
      refine ⟨found, hfound, Option.some.inj (hget.symm.trans hchild), ?_⟩
      rw [hpath, Registry.addressOf?_append_singleton hmapping hfirst (hslot ▸ hchild)
        (htraversal.resolve hmember) haddress, hslot]

/-- No address occurs twice. -/
theorem number_unique (htraversal : IsTraversal registry root members) {i j : Nat}
    {member other : Member} (hi : members[i]? = some member) (hj : members[j]? = some other)
    (haddress : registry.addressOf? member.path root = registry.addressOf? other.path root) :
    i = j := by
  obtain rfl := htraversal.eq_of_address_eq (List.mem_of_getElem? hi) (List.mem_of_getElem? hj)
    haddress
  exact (List.getElem?_inj (List.getElem?_eq_some_iff.1 hi).1
    htraversal.distinct.of_map).1 (hi.trans hj.symm)

end IsTraversal

/-- A traversal builds a faithful tree.  The root comes first; every other member comes after
its parent, one step further from the root, and is listed once among the children, which are
all that name the parent.  The path of a member is read as its entity.  The places that
declared relations lead to are those of the members, each of one member only, also where
relations share a slot.  Sorted by depth, the numbers are permuted, those of one depth in the
order they had. -/
theorem traverse_builds_tree {registry : Registry} {root : Entity} {members : List Member}
    (htraverse : registry.traverse root = .ok members) :
    (∃ first, members[0]? = some first ∧ first.entity = root ∧ first.path = [] ∧
      first.parent = none ∧ first.relation = none) ∧
    (∀ i child, members[i + 1]? = some child →
      ∃ p ≤ i, ∃ parent, members[p]? = some parent ∧ child.parent = some p ∧
        parent.children.count (i + 1) = 1 ∧ child.IsDirectlyBelow parent ∧
        child.depth = parent.depth + 1) ∧
    (∀ (p : Nat) parent, members[p]? = some parent → parent.children.Pairwise (· < ·) ∧
      ∀ i, i ∈ parent.children ↔ ∃ child, members[i]? = some child ∧ child.parent = some p) ∧
    (∀ member ∈ members, member.depth = member.path.length ∧
      registry.resolve root member.path = .ok member.entity) ∧
    (∀ member ∈ members, ∃ address, registry.addressOf? member.path root = some address ∧
      registry.Reaches root address member.entity) ∧
    (∀ address e, registry.Reaches root address e →
      ∃ (i : Nat) (member : Member), members[i]? = some member ∧ member.entity = e ∧
        registry.addressOf? member.path root = some address ∧
        ∀ (j : Nat) (other : Member), members[j]? = some other →
          registry.addressOf? other.path root = some address → j = i) ∧
    ∃ order : List Nat, order.Perm (List.range members.length) ∧
      (byDepth Member.depth members).map some = order.map (fun i => members[i]?) ∧
      order.Pairwise fun i j => ∀ member other, members[i]? = some member →
        members[j]? = some other →
          member.depth < other.depth ∨ member.depth = other.depth ∧ i < j := by
  have htraversal := traverse_isTraversal htraverse
  have hfull := visitEntity_isFull registry root _ _ _ _ _ htraverse
  have hlists : ∀ (p : Nat) parent, members[p]? = some parent →
      parent.children.Pairwise (· < ·) ∧ ∀ i, i ∈ parent.children ↔
        ∃ child, members[i]? = some child ∧ child.parent = some p := by
    intro p parent hparent
    rw [children_of_traverse htraverse hparent]
    refine ⟨childNumbers_pairwise, fun i => ?_⟩
    simp [mem_childNumbers]
  refine ⟨?_, ?_, hlists, ?_, fun member => htraversal.reaches, ?_, byDepth_numbers _ _⟩
  · obtain ⟨self, rest, rfl, hroot⟩ := htraversal.root
    exact ⟨self, rfl, hroot⟩
  · intro i child hchild
    obtain ⟨p, hp, parent, hparent, hnumber, segment, _, hpath, _⟩ :=
      htraversal.linked i child hchild
    obtain ⟨hascending, hmem⟩ := hlists p parent hparent
    have hnodup : parent.children.Nodup := hascending.imp Nat.ne_of_lt
    refine ⟨p, hp, parent, hparent, hnumber, ?_, ⟨segment, hpath⟩, ?_⟩
    · exact List.count_eq_one_of_mem hnodup ((hmem (i + 1)).2 ⟨child, hchild, hnumber⟩)
    · rw [Member.depth, Member.depth, hpath, List.length_append, List.length_singleton]
  · exact fun member hmember => ⟨rfl, htraversal.resolve hmember⟩
  · intro address e hreaches
    obtain ⟨member, hmember, hentity, haddress⟩ := htraversal.exists_of_reaches hfull hreaches
    obtain ⟨i, hi⟩ := List.mem_iff_getElem?.1 hmember
    refine ⟨i, member, hi, hentity, haddress, fun j other hj hother => ?_⟩
    exact htraversal.number_unique hj hi (hother.trans haddress.symm)

namespace Shipping

/-- The parcels of an order stand in one slot, to which two relations lead. -/
def givers : ClassMapping where
  type := order
  table := "orders"
  keys := [.generatedKey "id" idField]
  properties := []
  relations := [⟨"parcels", order, 0, .many parcel (some parentKey), none, []⟩,
    ⟨"gifts", order, 0, .many parcel (some parentKey), some ⟨"kind", .text "gift"⟩, []⟩]
  initialFields := []
  initialMembers := []
  sound := rfl

def giving : Registry := ⟨[givers, parcels, items], rfl⟩

end Shipping

/-- Both relations lead to the second parcel, which is listed once, as the last member. -/
theorem giving_builds_tree :
    ∃ members, Shipping.giving.traverse Shipping.packed = .ok members ∧
      members.map Member.children = [[1, 3], [2], [], []] ∧
      Shipping.giving.Reaches Shipping.packed [(.many 1 0, 1)] (Shipping.parcelOf 2 1 []) ∧
      ∃ (i : Nat) (member : Member), members[i]? = some member ∧
        member.entity = Shipping.parcelOf 2 1 [] ∧
        Shipping.giving.addressOf? member.path Shipping.packed = some [(.many 1 0, 1)] ∧
        ∀ (j : Nat) (other : Member), members[j]? = some other →
          Shipping.giving.addressOf? other.path Shipping.packed = some [(.many 1 0, 1)] →
            j = i := by
  have hgift : Shipping.givers.relations[1] ∈ Shipping.givers.relations := List.getElem_mem _
  have hreaches : Shipping.giving.Reaches Shipping.packed ([] ++ [(.many 1 0, 1)])
      (Shipping.parcelOf 2 1 []) := .child .root rfl hgift rfl
  obtain ⟨_, _, _, _, _, hlisted, _⟩ := traverse_builds_tree
    (rfl : Shipping.giving.traverse Shipping.packed = .ok _)
  exact ⟨_, rfl, rfl, hreaches, hlisted _ _ hreaches⟩

end AggregateSync
