import AggregateSync.Graph.Diff
import AggregateSync.Proofs.Graph.Depth
import AggregateSync.Proofs.Graph.Members
import AggregateSync.Proofs.Mapping.Identity
import AggregateSync.Proofs.Value.Equality
import Mathlib.Data.List.Pairwise

/-!
# The difference as a partition

A comparison fails over identities exactly if one of the graphs has two members of
one identity.  Otherwise the changes fall into two lists that correspond, one to one,
to the members of the current graph and to those saved members of the snapshot whose
identity the current graph lacks.  Equality of identities is only a partial
equivalence, so members are matched through `SameIdentity` and never by taking one
identity for another.
-/

namespace AggregateSync

namespace Member

/-- Both members are saved, under one identity. -/
def SameIdentity (member other : Member) : Prop :=
  ∃ key otherKey, member.key = some key ∧ other.key = some otherKey ∧
    key.equal otherKey = true

theorem SameIdentity.symm {member other : Member} (hsame : member.SameIdentity other) :
    other.SameIdentity member := by
  obtain ⟨key, otherKey, hkey, hother, hequal⟩ := hsame
  exact ⟨otherKey, key, hother, hkey, by rwa [IdentityKey.equal_comm]⟩

instance : Std.Symm fun member other : Member => ¬ member.SameIdentity other where
  symm _ _ hdiffer hsame := hdiffer hsame.symm

theorem SameIdentity.trans {first second third : Member} (hleft : first.SameIdentity second)
    (hright : second.SameIdentity third) : first.SameIdentity third := by
  obtain ⟨key, middle, hkey, hmiddle, hequal⟩ := hleft
  obtain ⟨middle', last, hmiddle', hlast, hequal'⟩ := hright
  obtain rfl : middle = middle' := by simpa [hmiddle] using hmiddle'
  exact ⟨key, last, hkey, hlast, IdentityKey.equal_trans hequal hequal'⟩

theorem any_hasKey_iff {member other : Member} :
    (member.key.any fun key => hasKey key other) = true ↔ member.SameIdentity other := by
  simp only [SameIdentity, hasKey, Option.any_eq_true]
  constructor
  · rintro ⟨key, hkey, otherKey, hother, hequal⟩
    exact ⟨key, otherKey, hkey, hother, hequal⟩
  · rintro ⟨key, otherKey, hkey, hother, hequal⟩
    exact ⟨key, hkey, otherKey, hother, hequal⟩

/-- The member is saved, and no member of the other graph has its identity. -/
def IsGoneFrom (others : List Member) (member : Member) : Prop :=
  member.key.isSome ∧ ∀ other ∈ others, ¬ member.SameIdentity other

theorem isGone_iff {others : List Member} {member : Member} :
    member.isGone others = true ↔ member.IsGoneFrom others := by
  cases hkey : member.key with
  | none => simp [isGone, IsGoneFrom, hkey]
  | some key =>
      simp only [isGone, hkey, Option.any_some, Bool.not_eq_true', List.any_eq_false,
        IsGoneFrom, Option.isSome_some, true_and]
      refine forall₂_congr fun other _ => not_congr ?_
      rw [← any_hasKey_iff, hkey, Option.any_some]

instance (others : List Member) (member : Member) : Decidable (member.IsGoneFrom others) :=
  decidable_of_iff _ isGone_iff

/-- The entity of a known member is of the mapped class. -/
theorem IsKnown.same_type {registry : Registry} {member : Member}
    (hknown : member.IsKnown registry) : member.entity.type.same member.mapping.type = true :=
  Registry.same_of_mappingFor hknown.1

theorem IsKnown.key_eq {registry : Registry} {member : Member}
    (hknown : member.IsKnown registry) :
    member.key = if member.mapping.isSaved member.entity then
      some (IdentityKey.ofValues member.mapping.type
        (member.mapping.keyReadings member.entity)) else none := by
  have hkey := hknown.2
  rw [ClassMapping.identityKey_of_same hknown.same_type] at hkey
  exact (Except.ok.inj hkey).symm

theorem IsKnown.key_type {registry : Registry} {member : Member} {key : IdentityKey}
    (hknown : member.IsKnown registry) (hkey : member.key = some key) :
    key.type = member.mapping.type := by
  rw [hknown.key_eq] at hkey
  split at hkey
  · cases hkey
    rfl
  · cases hkey

/-- Members of one identity are of one class. -/
theorem SameIdentity.same_type {registry : Registry} {member other : Member}
    (hsame : member.SameIdentity other) (hmember : member.IsKnown registry)
    (hother : other.IsKnown registry) :
    other.entity.type.same member.mapping.type = true := by
  obtain ⟨key, otherKey, hkey, hotherKey, hequal⟩ := hsame
  have htypes : key.type.same otherKey.type = true := by
    simp only [IdentityKey.equal, Bool.and_eq_true] at hequal
    exact hequal.1.1
  rw [hmember.key_type hkey, hother.key_type hotherKey] at htypes
  have hentity := hother.same_type
  simp only [EntityType.same, beq_iff_eq] at htypes hentity ⊢
  rw [hentity, htypes]

end Member

/-- No two members of a graph have one identity. -/
def DistinctIdentities (members : List Member) : Prop :=
  members.Pairwise fun member other => ¬ member.SameIdentity other

theorem firstRepeated_eq_none_iff {earlier members : List Member} :
    firstRepeated earlier members = none ↔
      (∀ member ∈ members, ∀ other ∈ earlier, ¬ other.SameIdentity member) ∧
        DistinctIdentities members := by
  induction members generalizing earlier with
  | nil => simp [firstRepeated, DistinctIdentities]
  | cons member rest ih =>
      have hseen : (member.key.any fun key => earlier.any (Member.hasKey key)) = true ↔
          ∃ other ∈ earlier, other.SameIdentity member := by
        simp only [Option.any_eq_true, List.any_eq_true]
        constructor
        · rintro ⟨key, hkey, other, hother, hequal⟩
          refine ⟨other, hother, Member.SameIdentity.symm ?_⟩
          exact Member.any_hasKey_iff.1 (by rw [hkey]; exact hequal)
        · rintro ⟨other, hother, hsame⟩
          obtain ⟨key, otherKey, hkey, hother', hequal⟩ := hsame.symm
          exact ⟨key, hkey, other, hother, by rwa [Member.hasKey, hother', Option.any_some]⟩
      rw [firstRepeated]
      split
      case isTrue hrepeated =>
        obtain ⟨other, hother, hsame⟩ := hseen.1 hrepeated
        simp only [reduceCtorEq, false_iff]
        rintro ⟨hfresh, _⟩
        exact hfresh member List.mem_cons_self other hother hsame
      case isFalse hfresh =>
        have hfresh : ∀ other ∈ earlier, ¬ other.SameIdentity member :=
          fun other hother hsame => hfresh (hseen.2 ⟨other, hother, hsame⟩)
        rw [ih, DistinctIdentities, DistinctIdentities, List.pairwise_cons]
        constructor
        · rintro ⟨hrest, hdistinct⟩
          refine ⟨?_, fun other hother => hrest other hother member List.mem_cons_self, hdistinct⟩
          rintro other hother
          rcases List.mem_cons.1 hother with rfl | hother
          · exact hfresh
          · exact fun before hbefore => hrest other hother before (List.mem_cons_of_mem _ hbefore)
        · rintro ⟨hrest, hmember, hdistinct⟩
          refine ⟨fun other hother before hbefore => ?_, hdistinct⟩
          rcases List.mem_cons.1 hbefore with rfl | hbefore
          · exact hmember other hother
          · exact hrest other (List.mem_cons_of_mem _ hother) before hbefore

/-- Identities are checked completely, and the only complaint is a repeated one. -/
theorem checkIdentities_spec (members : List Member) :
    (DistinctIdentities members ∧ checkIdentities members = .ok ()) ∨
      (¬ DistinctIdentities members ∧ ∃ e : IntegrityError,
        checkIdentities members = .error (.integrity e) ∧ e.fault = .duplicateIdentity) := by
  have hiff : firstRepeated [] members = none ↔ _ := firstRepeated_eq_none_iff
  cases hrepeated : firstRepeated [] members with
  | none =>
      rw [hrepeated] at hiff
      exact .inl ⟨(hiff.1 rfl).2, by rw [checkIdentities, hrepeated]⟩
  | some member =>
      refine .inr ⟨fun hdistinct => ?_, ?_⟩
      · rw [hiff.2 ⟨by simp, hdistinct⟩] at hrepeated
        cases hrepeated
      · refine ⟨_, by rw [checkIdentities, hrepeated], rfl⟩


/-- The compared properties whose values differ, in declaration order. -/
def differences (filter : PropertyFilter) (mapping : ClassMapping) (before after : Entity) :
    List String :=
  ((mapping.writableProperties.filter (filter mapping)).filter fun property =>
    !(before.read property.field).equal (after.read property.field)).map Property.name

/-- Two entities of one class are compared without failure. -/
theorem changedProperties_of_same {filter : PropertyFilter} {mapping : ClassMapping}
    {before after : Entity} (hbefore : before.type.same mapping.type = true)
    (hafter : after.type.same mapping.type = true) :
    changedProperties filter mapping before after =
      .ok (differences filter mapping before after) := by
  rw [changedProperties, differences]
  induction mapping.writableProperties.filter (filter mapping) with
  | nil => rfl
  | cons property rest ih =>
      rw [differing, ClassMapping.get_of_same hbefore, ClassMapping.get_of_same hafter, ih]
      by_cases hequal : (before.read property.field).equal (after.read property.field) = true
      · simp [bind, Except.bind, pure, Except.pure, hequal]
      · simp [bind, Except.bind, pure, Except.pure, hequal]

/-- The change of a member of the current graph, as far as the two graphs decide it. -/
def classify (filter : PropertyFilter) (before after : List Member) (member : Member) :
    Change :=
  match member.key.bind fun key => before.find? (Member.hasKey key) with
  | none => member.change after .added .current []
  | some previous =>
    let changed := differences filter member.mapping previous.entity member.entity
    member.change after (if changed.isEmpty then .unmodified else .modified) .current changed

theorem find?_hasKey_eq_none_iff {before : List Member} {member : Member} :
    (member.key.bind fun key => before.find? (Member.hasKey key)) = none ↔
      ∀ other ∈ before, ¬ member.SameIdentity other := by
  cases hkey : member.key with
  | none => simp [Member.SameIdentity, hkey]
  | some key =>
      rw [Option.bind_some, List.find?_eq_none]
      apply forall₂_congr
      intro other _
      rw [← Member.any_hasKey_iff, hkey, Option.any_some]

theorem sameIdentity_of_find?_hasKey {before : List Member} {member previous : Member}
    (hfound : (member.key.bind fun key => before.find? (Member.hasKey key)) = some previous) :
    previous ∈ before ∧ member.SameIdentity previous := by
  obtain ⟨key, hkey, hfind⟩ := Option.bind_eq_some_iff.1 hfound
  have hequal := List.find?_some hfind
  refine ⟨List.mem_of_find?_eq_some hfind, Member.any_hasKey_iff.1 ?_⟩
  rwa [hkey, Option.any_some]

theorem currentChange_eq_classify {registry : Registry} {filter : PropertyFilter}
    {before after : List Member} (hbefore : ∀ other ∈ before, other.IsKnown registry)
    {member : Member} (hmember : member.IsKnown registry) :
    currentChange filter before after member = .ok (classify filter before after member) := by
  rw [currentChange, classify]
  cases hfound : member.key.bind fun key => before.find? (Member.hasKey key) with
  | none => rfl
  | some previous =>
      obtain ⟨hprevious, hsame⟩ := sameIdentity_of_find?_hasKey hfound
      have htype := hsame.same_type hmember (hbefore previous hprevious)
      simp only [changedProperties_of_same htype hmember.same_type]
      rfl

namespace Change

/-- The change tells of a member, found in the graph of a side. -/
structure Describes (change : Change) (side : Side) (member : Member) : Prop where
  side : change.side = side
  type : change.type = member.mapping.type
  key : change.key = member.key
  path : change.path = member.path
  relation : change.relation = member.relation

/-- What a difference says of a member of the current graph, given the members of the
snapshot. -/
structure Classifies (filter : PropertyFilter) (before : List Member) (member : Member)
    (change : Change) : Prop extends change.Describes .current member where
  added : change.state = .added ↔ ∀ other ∈ before, ¬ member.SameIdentity other
  kept : ∀ other ∈ before, member.SameIdentity other →
    change.changed = differences filter member.mapping other.entity member.entity ∧
    (change.state = .modified ↔ change.changed ≠ []) ∧
    (change.state = .unmodified ↔ change.changed = [])

/-- What a difference says of a member of the snapshot that is gone. -/
structure Removes (member : Member) (change : Change) : Prop
    extends change.Describes .snapshot member where
  removed : change.state = .removed
  unchanged : change.changed = []

/-- Both changes tell of saved members, of one identity. -/
def SameIdentity (change other : Change) : Prop :=
  ∃ key otherKey, change.key = some key ∧ other.key = some otherKey ∧
    key.equal otherKey = true

/-- A change linked to that of its parent. -/
def linked (changes : List Change) (change : Change) : Change :=
  { change with parent := parentPosition changes change }

end Change

theorem linkParents_eq_map (changes : List Change) :
    linkParents changes = changes.map (Change.linked changes) := rfl

/-- Among distinct identities, the snapshot's member of an identity is unique, so the
one that was found stands for every other. -/
theorem DistinctIdentities.eq_of_sameIdentity {members : List Member}
    (hdistinct : DistinctIdentities members) {member first second : Member}
    (hfirst : first ∈ members) (hsecond : second ∈ members)
    (hsameFirst : member.SameIdentity first) (hsameSecond : member.SameIdentity second) :
    first = second := by
  by_contra hne
  exact hdistinct.forall hfirst hsecond hne (hsameFirst.symm.trans hsameSecond)

theorem classify_classifies {filter : PropertyFilter} {before after : List Member}
    (hdistinct : DistinctIdentities before) (member : Member) :
    (classify filter before after member).Classifies filter before member := by
  rw [classify]
  cases hfound : member.key.bind fun key => before.find? (Member.hasKey key) with
  | none =>
      have hfresh := find?_hasKey_eq_none_iff.1 hfound
      refine ⟨⟨rfl, rfl, rfl, rfl, rfl⟩, iff_of_true rfl hfresh, ?_⟩
      intro other hother hsame
      exact absurd hsame (hfresh other hother)
  | some previous =>
      obtain ⟨hprevious, hsame⟩ := sameIdentity_of_find?_hasKey hfound
      refine ⟨⟨rfl, rfl, rfl, rfl, rfl⟩, ?_, ?_⟩
      · apply iff_of_false
        · simp only [Member.change]
          split <;> simp
        · intro hfresh
          exact hfresh previous hprevious hsame
      · intro other hother hsameOther
        obtain rfl := hdistinct.eq_of_sameIdentity hprevious hother hsame hsameOther
        refine ⟨rfl, ?_, ?_⟩ <;> simp only [Member.change, List.isEmpty_iff] <;>
          split <;> simp_all


namespace Registry

theorem members_isKnown {registry : Registry} {graph : Option Entity} {members : List Member}
    (hmembers : registry.members graph = .ok members) :
    ∀ member ∈ members, member.IsKnown registry := by
  cases graph with
  | none =>
      cases hmembers
      simp
  | some root => exact (traverse_isTraversal hmembers).known

theorem nodup_paths {registry : Registry} {graph : Option Entity}
    {members : List Member} (hmembers : registry.members graph = .ok members) :
    (members.map Member.path).Nodup := by
  cases graph with
  | none =>
      cases hmembers
      exact .nil
  | some root => exact (traverse_isTraversal hmembers).distinct

theorem exists_traversal {registry : Registry} {graph : Option Entity}
    {members : List Member} (hmembers : registry.members graph = .ok members)
    {member : Member} (hmember : member ∈ members) :
    ∃ root, graph = some root ∧ IsTraversal registry root members := by
  cases graph with
  | none =>
      cases hmembers
      exact absurd hmember List.not_mem_nil
  | some root => exact ⟨root, rfl, traverse_isTraversal hmembers⟩

/-- The changes of a comparison before they are linked to their parents. -/
def unlinkedChanges (filter : PropertyFilter) (before after : List Member) : List Change :=
  byDepth Change.depth
    ((byDepth Member.depth after).map (classify filter before after) ++
      ((byDepth Member.depth before).filter (Member.isGone after)).map
        (Member.change before .removed .snapshot []))

theorem unlinkedChanges_perm (filter : PropertyFilter) (before after : List Member) :
    (unlinkedChanges filter before after).Perm
      (after.map (classify filter before after) ++
        (before.filter (Member.isGone after)).map
          (Member.change before .removed .snapshot [])) := by
  apply byDepth_perm.trans
  apply List.Perm.append
  · exact byDepth_perm.map _
  · exact (byDepth_perm.filter _).map _

variable {registry : Registry} {snapshot current : Option Entity} {before after : List Member}

/-- A comparison of graphs that can be traversed fails over identities or gives the
classified members, linked to their parents. -/
theorem compare_of_members (filter : PropertyFilter)
    (hgiven : snapshot.isSome = true ∨ current.isSome = true)
    (hbefore : registry.members snapshot = .ok before)
    (hafter : registry.members current = .ok after) :
    registry.compare snapshot current filter = (do
      checkIdentities before
      checkIdentities after
      return linkParents (unlinkedChanges filter before after)) := by
  have hboth : (snapshot.isNone && current.isNone) = false := by
    cases snapshot <;> cases current <;> simp_all
  have hkept : (byDepth Member.depth after).mapM (currentChange filter before after) =
      .ok ((byDepth Member.depth after).map (classify filter before after)) := by
    apply Result.mapM_eq_map
    intro member hmember
    exact currentChange_eq_classify (members_isKnown hbefore)
      (members_isKnown hafter member (mem_byDepth.1 hmember))
  rw [compare, hboth, hbefore, hafter]
  simp only [Bool.false_eq_true, if_false, Result.ok_bind, hkept]
  rfl

end Registry

namespace Change

theorem SameIdentity.symm {change other : Change} (hsame : change.SameIdentity other) :
    other.SameIdentity change := by
  obtain ⟨key, otherKey, hkey, hother, hequal⟩ := hsame
  exact ⟨otherKey, key, hother, hkey, by rwa [IdentityKey.equal_comm]⟩

theorem Describes.sameIdentity_iff {change other : Change} {side side' : Side}
    {member member' : Member} (hchange : change.Describes side member)
    (hother : other.Describes side' member') :
    change.SameIdentity other ↔ member.SameIdentity member' := by
  rw [SameIdentity, hchange.key, hother.key, Member.SameIdentity]

end Change

/-- Changes that describe the members of two lists, one to one, carry no identity twice
if the members do not. -/
theorem pairwise_not_sameIdentity_of_describes {side : Side} {members : List Member}
    {changes : List Change} (hdistinct : DistinctIdentities members)
    (hdescribes : List.Forall₂ (fun member change => change.Describes side member)
      members changes) :
    changes.Pairwise fun change other => ¬ change.SameIdentity other := by
  induction hdescribes with
  | nil => exact .nil
  | cons hfirst hrest ih =>
      obtain ⟨hmember, hmembers⟩ := List.pairwise_cons.1 hdistinct
      apply List.Pairwise.cons _ (ih hmembers)
      intro other hother
      obtain ⟨member, hmember', hdescribes⟩ := exists_item_of_forall₂ hrest hother
      rw [hfirst.sameIdentity_iff hdescribes]
      exact hmember member hmember'

/-- Lists of changes that classify distinct members and remove others carry no
identity twice. -/
theorem pairwise_not_sameIdentity {filter : PropertyFilter} {before after : List Member}
    {changes kept gone : List Change} (hbefore : DistinctIdentities before)
    (hafter : DistinctIdentities after) (hperm : changes.Perm (kept ++ gone))
    (hkept : List.Forall₂ (Change.Classifies filter before) after kept)
    (hgone : List.Forall₂ Change.Removes
      (before.filter fun member => decide (member.IsGoneFrom after)) gone) :
    changes.Pairwise fun change other => ¬ change.SameIdentity other := by
  have hsymm : ∀ {change other : Change}, ¬ change.SameIdentity other →
      ¬ other.SameIdentity change := fun hdiffer hsame => hdiffer hsame.symm
  rw [hperm.pairwise_iff hsymm, List.pairwise_append]
  refine ⟨?_, ?_, ?_⟩
  · apply pairwise_not_sameIdentity_of_describes hafter
    exact hkept.imp fun _ _ hclassifies => hclassifies.toDescribes
  · apply pairwise_not_sameIdentity_of_describes (hbefore.filter _)
    exact hgone.imp fun _ _ hremoves => hremoves.toDescribes
  · intro change hchange other hother
    obtain ⟨member, hmember, hclassifies⟩ := exists_item_of_forall₂ hkept hchange
    obtain ⟨lost, hlost, hremoves⟩ := exists_item_of_forall₂ hgone hother
    rw [hclassifies.toDescribes.sameIdentity_iff hremoves.toDescribes]
    have hgoneFrom : lost.IsGoneFrom after := of_decide_eq_true (List.mem_filter.1 hlost).2
    intro hsame
    exact hgoneFrom.2 member hmember hsame.symm

/-- The changes tell of the members of the current graph and of those of the snapshot
that are gone, of each exactly once, by depth. -/
structure IsDifference (filter : PropertyFilter) (before after : List Member)
    (changes : List Change) : Prop where
  distinctBefore : DistinctIdentities before
  distinctAfter : DistinctIdentities after
  sorted : changes.Pairwise fun change other => change.depth ≤ other.depth
  matched : ∃ kept gone, changes.Perm (kept ++ gone) ∧
    List.Forall₂ (Change.Classifies filter before) after kept ∧
    List.Forall₂ Change.Removes
      (before.filter fun member => decide (member.IsGoneFrom after)) gone

/-- Classified members, linked to their parents, make up a difference. -/
theorem linkParents_isDifference {filter : PropertyFilter} {before after : List Member}
    (hbefore : DistinctIdentities before) (hafter : DistinctIdentities after) :
    IsDifference filter before after
      (linkParents (Registry.unlinkedChanges filter before after)) := by
  let changes := Registry.unlinkedChanges filter before after
  let kept := (after.map (classify filter before after)).map (Change.linked changes)
  let gone := ((before.filter (Member.isGone after)).map
    (Member.change before .removed .snapshot [])).map (Change.linked changes)
  have hsorted : (linkParents changes).Pairwise
      fun change other => change.depth ≤ other.depth := by
    rw [linkParents_eq_map, List.pairwise_map]
    exact byDepth_sorted
  have hperm : (linkParents changes).Perm (kept ++ gone) := by
    rw [linkParents_eq_map, ← List.map_append]
    exact (Registry.unlinkedChanges_perm filter before after).map _
  have hkept : List.Forall₂ (Change.Classifies filter before) after kept := by
    rw [List.forall₂_map_right_iff, List.forall₂_map_right_iff, List.forall₂_same]
    intro member _
    have hclassifies : (classify filter before after member).Classifies filter before member :=
      classify_classifies hbefore member
    exact ⟨⟨hclassifies.side, hclassifies.type, hclassifies.key, hclassifies.path,
      hclassifies.relation⟩, hclassifies.added, hclassifies.kept⟩
  have hgone : List.Forall₂ Change.Removes
      (before.filter fun member => decide (member.IsGoneFrom after)) gone := by
    have hfilter : (before.filter fun member => decide (member.IsGoneFrom after)) =
        before.filter (Member.isGone after) := by
      apply List.filter_congr
      intro member _
      rw [Bool.eq_iff_iff, decide_eq_true_iff, Member.isGone_iff]
    rw [hfilter, List.forall₂_map_right_iff, List.forall₂_map_right_iff, List.forall₂_same]
    intro member _
    exact ⟨⟨rfl, rfl, rfl, rfl, rfl⟩, rfl, rfl⟩
  exact ⟨hbefore, hafter, hsorted, kept, gone, hperm, hkept, hgone⟩

/-- A comparison that succeeds traversed both graphs, found every identity once, and linked
what it classified. -/
theorem Registry.compare_eq_linkParents {registry : Registry}
    {snapshot current : Option Entity} {filter : PropertyFilter} {changes : List Change}
    (hcompare : registry.compare snapshot current filter = .ok changes) :
    ∃ before after, registry.members snapshot = .ok before ∧
      registry.members current = .ok after ∧ DistinctIdentities before ∧
      DistinctIdentities after ∧
      changes = linkParents (Registry.unlinkedChanges filter before after) := by
  have hgiven : snapshot.isSome = true ∨ current.isSome = true := by
    by_contra hnone
    obtain ⟨hsnapshot, hcurrent⟩ := not_or.1 hnone
    rw [Option.not_isSome_iff_eq_none] at hsnapshot hcurrent
    subst hsnapshot hcurrent
    cases hcompare
  have htraversed := hcompare
  rw [Registry.compare] at htraversed
  split at htraversed
  · cases htraversed
  obtain ⟨before, hbefore, htraversed⟩ := Result.bind_eq_ok.1 htraversed
  obtain ⟨after, hafter, _⟩ := Result.bind_eq_ok.1 htraversed
  rw [Registry.compare_of_members filter hgiven hbefore hafter] at hcompare
  obtain ⟨_, hleft, hcompare⟩ := Result.bind_eq_ok.1 hcompare
  obtain ⟨_, hright, hcompare⟩ := Result.bind_eq_ok.1 hcompare
  cases hcompare
  rcases checkIdentities_spec before with ⟨hdistinct, _⟩ | ⟨_, e, herror, _⟩
  case inr =>
    rw [hleft] at herror
    cases herror
  rcases checkIdentities_spec after with ⟨hdistinct', _⟩ | ⟨_, e, herror, _⟩
  case inr =>
    rw [hright] at herror
    cases herror
  exact ⟨before, after, hbefore, hafter, hdistinct, hdistinct', rfl⟩

/-- A comparison that succeeds gives the difference of two graphs that can be
traversed. -/
theorem Registry.compare_eq_ok {registry : Registry} {snapshot current : Option Entity}
    {filter : PropertyFilter} {changes : List Change}
    (hcompare : registry.compare snapshot current filter = .ok changes) :
    ∃ before after, registry.members snapshot = .ok before ∧
      registry.members current = .ok after ∧ IsDifference filter before after changes := by
  obtain ⟨before, after, hbefore, hafter, hdistinct, hdistinct', rfl⟩ :=
    Registry.compare_eq_linkParents hcompare
  exact ⟨before, after, hbefore, hafter, linkParents_isDifference hdistinct hdistinct'⟩

theorem Registry.isDifference_of_compare {registry : Registry} {snapshot current : Option Entity}
    {filter : PropertyFilter} {changes : List Change} {before after : List Member}
    (hcompare : registry.compare snapshot current filter = .ok changes)
    (hbefore : registry.members snapshot = .ok before)
    (hafter : registry.members current = .ok after) :
    IsDifference filter before after changes := by
  obtain ⟨members, others, hmembers, hothers, hdifference⟩ := Registry.compare_eq_ok hcompare
  obtain rfl : before = members := Except.ok.inj (hbefore.symm.trans hmembers)
  obtain rfl : after = others := Except.ok.inj (hafter.symm.trans hothers)
  exact hdifference

theorem places_of_describes {side : Side} {members : List Member} {changes : List Change}
    (hdescribes : List.Forall₂ (fun member change => change.Describes side member)
      members changes) :
    changes.map (fun change => (change.side, change.path)) =
      (members.map Member.path).map fun path => (side, path) := by
  induction hdescribes with
  | nil => rfl
  | cons hfirst hrest ih =>
      rw [List.map_cons, List.map_cons, List.map_cons, ih, hfirst.side, hfirst.path]

namespace IsDifference

variable {filter : PropertyFilter} {before after : List Member} {changes : List Change}

theorem mem_cases (hdifference : IsDifference filter before after changes) {change : Change}
    (hchange : change ∈ changes) :
    (∃ member ∈ after, change.Classifies filter before member) ∨
      ∃ member ∈ before, member.IsGoneFrom after ∧ change.Removes member := by
  obtain ⟨kept, gone, hperm, hkept, hgone⟩ := hdifference.matched
  rcases List.mem_append.1 (hperm.mem_iff.1 hchange) with hleft | hright
  · exact .inl (exists_item_of_forall₂ hkept hleft)
  · obtain ⟨member, hmember, hremoves⟩ := exists_item_of_forall₂ hgone hright
    obtain ⟨hmember, hlost⟩ := List.mem_filter.1 hmember
    exact .inr ⟨member, hmember, of_decide_eq_true hlost, hremoves⟩

theorem exists_classifies (hdifference : IsDifference filter before after changes)
    {member : Member} (hmember : member ∈ after) :
    ∃ change ∈ changes, change.Classifies filter before member := by
  obtain ⟨kept, gone, hperm, hkept, _⟩ := hdifference.matched
  obtain ⟨change, hchange, hclassifies⟩ := exists_result_of_forall₂ hkept hmember
  exact ⟨change, hperm.mem_iff.2 (List.mem_append_left _ hchange), hclassifies⟩

theorem exists_removes (hdifference : IsDifference filter before after changes)
    {member : Member} (hmember : member ∈ before) (hlost : member.IsGoneFrom after) :
    ∃ change ∈ changes, change.Removes member := by
  obtain ⟨kept, gone, hperm, _, hgone⟩ := hdifference.matched
  obtain ⟨change, hchange, hremoves⟩ := exists_result_of_forall₂ hgone
    (List.mem_filter.2 ⟨hmember, decide_eq_true hlost⟩)
  exact ⟨change, hperm.mem_iff.2 (List.mem_append_right _ hchange), hremoves⟩

/-- No two changes of a difference tell of one identity. -/
theorem distinct (hdifference : IsDifference filter before after changes) :
    changes.Pairwise fun change other => ¬ change.SameIdentity other := by
  obtain ⟨kept, gone, hperm, hkept, hgone⟩ := hdifference.matched
  exact pairwise_not_sameIdentity hdifference.distinctBefore hdifference.distinctAfter hperm
    hkept hgone

/-- The changes of a difference stand at different places. -/
theorem nodup_places (hdifference : IsDifference filter before after changes)
    (hbefore : (before.map Member.path).Nodup) (hafter : (after.map Member.path).Nodup) :
    (changes.map fun change => (change.side, change.path)).Nodup := by
  obtain ⟨kept, gone, hperm, hkept, hgone⟩ := hdifference.matched
  have hkeptPlaces := places_of_describes
    (hkept.imp fun member change hclassifies => hclassifies.toDescribes)
  have hgonePlaces := places_of_describes
    (hgone.imp fun member change hremoves => hremoves.toDescribes)
  rw [(hperm.map _).nodup_iff, List.map_append, hkeptPlaces, hgonePlaces, List.nodup_append]
  refine ⟨?_, ?_, ?_⟩
  · exact hafter.map fun path other hsame => (Prod.mk.inj hsame).2
  · have hsublist : ((before.filter fun member => decide (member.IsGoneFrom after)).map
        Member.path).Nodup := hbefore.sublist (List.filter_sublist.map _)
    exact hsublist.map fun path other hsame => (Prod.mk.inj hsame).2
  · intro place hplace other hother hsame
    obtain ⟨path, _, rfl⟩ := List.mem_map.1 hplace
    obtain ⟨path', _, rfl⟩ := List.mem_map.1 hother
    cases hsame

end IsDifference

/-- A comparison of two graphs that can be traversed fails over identities exactly if
one of them has two members of one identity.  Otherwise it says one thing of every
member of the current graph and one of every saved member of the snapshot whose
identity the current graph lacks, and nothing else; so no identity occurs twice. -/
theorem compare_partitions (registry : Registry) (snapshot current : Option Entity)
    (filter : PropertyFilter) {before after : List Member}
    (hgiven : snapshot.isSome = true ∨ current.isSome = true)
    (hbefore : registry.members snapshot = .ok before)
    (hafter : registry.members current = .ok after) :
    ((∃ e, registry.compare snapshot current filter = .error (.integrity e) ∧
        e.fault = .duplicateIdentity) ↔
      ¬ (DistinctIdentities before ∧ DistinctIdentities after)) ∧
    (DistinctIdentities before ∧ DistinctIdentities after →
      ∃ changes kept gone, registry.compare snapshot current filter = .ok changes ∧
        changes.Perm (kept ++ gone) ∧
        List.Forall₂ (Change.Classifies filter before) after kept ∧
        List.Forall₂ Change.Removes
          (before.filter fun member => decide (member.IsGoneFrom after)) gone ∧
        changes.Pairwise fun change other => ¬ change.SameIdentity other) := by
  rw [Registry.compare_of_members filter hgiven hbefore hafter]
  rcases checkIdentities_spec before with ⟨hleft, hok⟩ | ⟨hleft, e, herror, hfault⟩
  case inr =>
    refine ⟨iff_of_true ⟨e, by rw [herror]; rfl, hfault⟩ fun hboth => hleft hboth.1, ?_⟩
    intro hboth
    exact absurd hboth.1 hleft
  rcases checkIdentities_spec after with ⟨hright, hok'⟩ | ⟨hright, e, herror, hfault⟩
  case inr =>
    refine ⟨iff_of_true ⟨e, by rw [hok, herror]; rfl, hfault⟩ fun hboth => hright hboth.2, ?_⟩
    intro hboth
    exact absurd hboth.2 hright
  rw [hok, hok']
  refine ⟨iff_of_false ?_ fun hnot => hnot ⟨hleft, hright⟩, fun _ => ?_⟩
  · rintro ⟨e, herror, _⟩
    cases herror
  have hdifference : IsDifference filter before after
      (linkParents (Registry.unlinkedChanges filter before after)) :=
    linkParents_isDifference hleft hright
  obtain ⟨kept, gone, hperm, hkept, hgone⟩ := hdifference.matched
  exact ⟨_, kept, gone, rfl, hperm, hkept, hgone,
    pairwise_not_sameIdentity hleft hright hperm hkept hgone⟩

/-! ## Shipments

An order holds parcels and a parcel holds items, each of which carries the number of
what holds it. -/

namespace Shipping

def idField : Field := ⟨0, "id", .bigInt⟩

def parentField : Field := ⟨1, "parent_id", .bigInt⟩

def noteField : Field := ⟨2, "note", .text⟩

def order : EntityType := ⟨0, "Order", [idField]⟩

def parcel : EntityType := ⟨1, "Parcel", [idField, parentField]⟩

def item : EntityType := ⟨2, "Item", [idField, parentField]⟩

def parentKey : ForeignKey := ⟨"parent_id", some "parent_id", "id"⟩

def orders : ClassMapping where
  type := order
  table := "orders"
  keys := [.generatedKey "id" idField]
  properties := []
  relations := [⟨"parcels", order, 0, .many parcel (some parentKey), none, []⟩]
  initialFields := []
  initialMembers := []
  sound := rfl

def parcels : ClassMapping where
  type := parcel
  table := "parcels"
  keys := [.generatedKey "id" idField]
  properties := [.plain "parent_id" parentField]
  relations := [⟨"items", parcel, 0, .many item (some parentKey), none, []⟩]
  initialFields := []
  initialMembers := []
  sound := rfl

def items : ClassMapping where
  type := item
  table := "items"
  keys := [.generatedKey "id" idField]
  properties := [.plain "parent_id" parentField]
  relations := []
  initialFields := []
  initialMembers := []
  sound := rfl

def registry : Registry := ⟨[orders, parcels, items], rfl⟩

def orderOf (id : Int64) (parcels : List Entity) : Entity :=
  .mk order [(idField, .bigInt id)] (parcels.map fun parcel => (.many 1 0, parcel))

def parcelOf (id parent : Int64) (items : List Entity) : Entity :=
  .mk parcel [(idField, .bigInt id), (parentField, .bigInt parent)]
    (items.map fun item => (.many 2 0, item))

def itemOf (id parent : Int64) : Entity :=
  .mk item [(idField, .bigInt id), (parentField, .bigInt parent)] []

/-- Two parcels, the first of which holds an item. -/
def packed : Entity := orderOf 1 [parcelOf 1 1 [itemOf 1 1], parcelOf 2 1 []]

/-- The first parcel is gone, and its item lies in the second. -/
def repacked : Entity := orderOf 1 [parcelOf 2 1 [itemOf 1 2]]

/-- The item lies in the second parcel and still carries the number of the first. -/
def moved : Entity := orderOf 1 [parcelOf 1 1 [], parcelOf 2 1 [itemOf 1 1]]

/-- The first parcel is gone with its item. -/
def emptied : Entity := orderOf 1 [parcelOf 2 1 []]

end Shipping

theorem repacked_partitions :
    ∃ before after changes kept gone,
      Shipping.registry.members (some Shipping.packed) = .ok before ∧
      Shipping.registry.members (some Shipping.repacked) = .ok after ∧
      Shipping.registry.compare (some Shipping.packed) (some Shipping.repacked)
        (fun _ _ => true) = .ok changes ∧
      changes.Perm (kept ++ gone) ∧
      List.Forall₂ (Change.Classifies (fun _ _ => true) before) after kept ∧
      List.Forall₂ Change.Removes
        (before.filter fun member => decide (member.IsGoneFrom after)) gone ∧
      changes.Pairwise fun change other => ¬ change.SameIdentity other := by
  obtain ⟨changes, kept, gone, hpartition⟩ :=
    (compare_partitions Shipping.registry (some Shipping.packed) (some Shipping.repacked)
      (fun _ _ => true) (.inl rfl) rfl rfl).2
        ⟨((@firstRepeated_eq_none_iff [] _).1 rfl).2,
          ((@firstRepeated_eq_none_iff [] _).1 rfl).2⟩
  exact ⟨_, _, changes, kept, gone, rfl, rfl, hpartition⟩

end AggregateSync
