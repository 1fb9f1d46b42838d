import AggregateSync.Proofs.Graph.Resolution
import AggregateSync.Proofs.Graph.Partition

/-!
# Changes and the changes of their parents

A change points to what became of the parent of its member.  In one graph that is the
change of the parent, which stands above: earlier in the list and nearer to the root.  A
removed member whose parent survives points to the survivor, which may have moved to
another depth of the current graph; it stands above exactly if it did not move down.
-/

namespace AggregateSync

/-- The members of the graph of a side. -/
def Side.members (side : Side) (before after : List Member) : List Member :=
  match side with
  | .snapshot => before
  | .current => after

/-- The identity of the parent of a member, if the parent is saved. -/
def Member.parentKey (members : List Member) (member : Member) : Option IdentityKey :=
  (member.parent.bind fun number => members[number]?).bind Member.key

/-! ## What a change knows of the parent -/

theorem mem_linkParents {filter : PropertyFilter} {before after : List Member}
    {change : Change}
    (hchange : change ∈ linkParents (Registry.unlinkedChanges filter before after)) :
    ∃ member ∈ change.side.members before after, change.Describes change.side member ∧
      change.parentKey = member.parentKey (change.side.members before after) := by
  rw [linkParents_eq_map, List.mem_map] at hchange
  obtain ⟨unlinked, hunlinked, rfl⟩ := hchange
  rw [(Registry.unlinkedChanges_perm filter before after).mem_iff, List.mem_append,
    List.mem_map, List.mem_map] at hunlinked
  rcases hunlinked with ⟨member, hmember, rfl⟩ | ⟨member, hmember, rfl⟩
  · rw [classify]
    split
    · exact ⟨member, hmember, ⟨rfl, rfl, rfl, rfl, rfl⟩, rfl⟩
    · exact ⟨member, hmember, ⟨rfl, rfl, rfl, rfl, rfl⟩, rfl⟩
  · exact ⟨member, (List.mem_filter.1 hmember).1, ⟨rfl, rfl, rfl, rfl, rfl⟩, rfl⟩

/-- Changes are looked up by what linking them leaves alone. -/
theorem parent_eq_of_mem_linkParents {changes : List Change} {change : Change}
    (hchange : change ∈ linkParents changes) :
    change.parent = parentPosition (linkParents changes) change := by
  rw [linkParents_eq_map, List.mem_map] at hchange
  obtain ⟨unlinked, _, rfl⟩ := hchange
  have hposition : parentPosition (linkParents changes) unlinked =
      parentPosition changes unlinked := by
    simp only [parentPosition, linkParents_eq_map, List.findIdx?_map]
    rfl
  exact hposition.symm

/-- A member of a traversal knows the identity of its parent. -/
theorem IsTraversal.parentKey_eq {registry : Registry} {root : Entity}
    {members : List Member} (htraversal : IsTraversal registry root members)
    {child parent : Member} (hchild : child ∈ members) (hparent : parent ∈ members)
    (hbelow : child.IsDirectlyBelow parent) :
    child.parentKey members = parent.key := by
  obtain ⟨⟨number, hnumber, hlink⟩, _⟩ :=
    htraversal.isChildOf_of_isDirectlyBelow hchild hparent hbelow
  rw [Member.parentKey, hlink, Option.bind_some, hnumber, Option.bind_some]

/-- Only the change of the root says that it is one. -/
theorem IsTraversal.exists_parent_of_describes {registry : Registry} {root : Entity}
    {members : List Member} (htraversal : IsTraversal registry root members) {change : Change}
    {side : Side} {child : Member} (hchild : child ∈ members)
    (hdescribes : change.Describes side child) (hbelowRoot : change.isRoot = false) :
    ∃ parent ∈ members, child.IsDirectlyBelow parent := by
  have hroot : child.path ≠ [] := by
    intro hempty
    obtain ⟨self, rest, rfl, _, hpath, _, hnone⟩ := htraversal.root
    obtain rfl := htraversal.eq_of_path_eq hchild List.mem_cons_self (hempty.trans hpath.symm)
    rw [Change.isRoot, hdescribes.relation, hnone] at hbelowRoot
    cases hbelowRoot
  obtain ⟨parent, hparent, _, segment, _, hpath, _⟩ := htraversal.exists_parent hchild hroot
  exact ⟨parent, hparent, segment, hpath⟩

/-! ## Finding the change of the parent -/

namespace IsDifference

variable {filter : PropertyFilter} {before after : List Member} {changes : List Change}

instance : Std.Symm Change.SameIdentity where
  symm _ _ hsame := hsame.symm

/-- The change of an identity is found by it. -/
theorem findIdx?_hasKey (hdifference : IsDifference filter before after changes) {i : Nat}
    {change : Change} (hi : changes[i]? = some change) {key key' : IdentityKey}
    (hkey : change.key = some key') (hequal : key.equal key' = true) :
    changes.findIdx? (Change.hasKey key) = some i := by
  apply findIdx?_eq_of_unique hi
  · rw [Change.hasKey, hkey, Option.any_some]
    exact hequal
  · intro j other hj hother
    obtain ⟨otherKey, hotherKey, hequal'⟩ := Option.any_eq_true _ _ |>.1 hother
    apply position_eq_of_related hdifference.distinct hj hi
    refine ⟨otherKey, key', hotherKey, hkey, ?_⟩
    rw [IdentityKey.equal_comm] at hequal'
    exact IdentityKey.equal_trans hequal' hequal

/-- An identity that does not even equal itself is the identity of no change. -/
theorem findIdx?_hasKey_eq_none {key : IdentityKey} (hunequal : ¬ key.equal key = true) :
    changes.findIdx? (Change.hasKey key) = none := by
  rw [List.findIdx?_eq_none_iff]
  intro change _
  rw [Bool.eq_false_iff]
  intro hhas
  obtain ⟨key', _, hequal⟩ := Option.any_eq_true _ _ |>.1 hhas
  exact hunequal (IdentityKey.equal_trans hequal (by rwa [IdentityKey.equal_comm]))

/-- The change of a member is found by its place. -/
theorem findIdx?_place (hdifference : IsDifference filter before after changes)
    (hbefore : (before.map Member.path).Nodup) (hafter : (after.map Member.path).Nodup)
    {i : Nat} {change : Change} (hi : changes[i]? = some change) :
    changes.findIdx? (fun other => other.side == change.side && other.path == change.path) =
      some i := by
  apply findIdx?_eq_of_unique hi
  · simp
  · intro j other hj hother
    rw [Bool.and_eq_true, beq_iff_eq, beq_iff_eq] at hother
    have hplace : (changes.map fun change => (change.side, change.path))[j]? =
        (changes.map fun change => (change.side, change.path))[i]? := by
      rw [List.getElem?_map, List.getElem?_map, hj, hi, Option.map_some, Option.map_some,
        hother.1, hother.2]
    have hlength : j < (changes.map fun change => (change.side, change.path)).length := by
      rw [List.length_map]
      exact (List.getElem?_eq_some_iff.1 hj).1
    exact (List.getElem?_inj hlength (hdifference.nodup_places hbefore hafter)).1 hplace

end IsDifference

/-! ## Whom the parent link points to -/

/-- The change of the parent, or of what is left of it: that of the parent itself or, if the
member is removed and the parent is not, that of the parent in the current graph. -/
inductive Change.ShowsParent (after : List Member) (change target : Change) (parent : Member) :
    Member → Prop
  | itself (hdescribes : target.Describes change.side parent) :
      ShowsParent after change target parent parent
  | survivor {shown : Member} (hremoved : change.state = .removed) (hshown : shown ∈ after)
      (hsame : parent.SameIdentity shown) (hdescribes : target.Describes .current shown) :
      ShowsParent after change target parent shown

theorem Change.ShowsParent.depth_eq {after : List Member} {change target : Change}
    {parent shown : Member} (hshows : change.ShowsParent after target parent shown) :
    target.depth = shown.depth := by
  cases hshows with
  | itself hdescribes => rw [depth, Member.depth, hdescribes.path]
  | survivor _ _ _ hdescribes => rw [depth, Member.depth, hdescribes.path]

namespace IsDifference

variable {registry : Registry} {snapshot current : Option Entity} {filter : PropertyFilter}
  {before after : List Member} {changes : List Change}

/-- The change of a member, unless it is the old form of a member that is still there, or
was never saved. -/
theorem exists_describes (hdifference : IsDifference filter before after changes) {side : Side}
    {member : Member} (hmember : member ∈ side.members before after) :
    (∃ change ∈ changes, change.Describes side member) ∨
      side = .snapshot ∧
        (member.key = none ∨ ∃ survivor ∈ after, member.SameIdentity survivor) := by
  cases side with
  | current =>
      obtain ⟨change, hchange, hclassifies⟩ := hdifference.exists_classifies hmember
      exact .inl ⟨change, hchange, hclassifies.toDescribes⟩
  | snapshot =>
      by_cases hgone : member.IsGoneFrom after
      · obtain ⟨change, hchange, hremoves⟩ := hdifference.exists_removes hmember hgone
        exact .inl ⟨change, hchange, hremoves.toDescribes⟩
      · refine .inr ⟨rfl, ?_⟩
        rw [Member.IsGoneFrom, not_and_or, Option.not_isSome_iff_eq_none] at hgone
        rcases hgone with hunsaved | hsurvives
        · exact .inl hunsaved
        · simp only [not_forall, not_not, exists_prop] at hsurvives
          exact .inr hsurvives

theorem removed_of_side (hdifference : IsDifference filter before after changes)
    {change : Change} (hchange : change ∈ changes) (hside : change.side = .snapshot) :
    change.state = .removed := by
  rcases hdifference.mem_cases hchange with ⟨member, _, hclassifies⟩ | ⟨_, _, _, hremoves⟩
  · rw [hclassifies.side] at hside
    cases hside
  · exact hremoves.removed

/-- The position of the parent's change: nothing if the parent is an unsaved member of the
snapshot, and otherwise where the parent, or what is left of it, is shown. -/
theorem parentPosition_cases (hdifference : IsDifference filter before after changes)
    (hbefore : registry.members snapshot = .ok before)
    (hafter : registry.members current = .ok after) {change : Change}
    (hchange : change ∈ changes) {child parent : Member}
    (hparent : parent ∈ change.side.members before after)
    (hdescribes : change.Describes change.side child) (hbelow : child.IsDirectlyBelow parent)
    (hroot : change.isRoot = false) (hkey : change.parentKey = parent.key) :
    (parentPosition changes change = none ∧ change.side = .snapshot ∧ parent.key = none) ∨
      ∃ p target shown, parentPosition changes change = some p ∧ changes[p]? = some target ∧
        change.ShowsParent after target parent shown := by
  have hposition : parentPosition changes change =
      (parent.key.bind fun key => changes.findIdx? (Change.hasKey key)).or
        (changes.findIdx? fun other => other.side == change.side && other.path == parent.path) := by
    obtain ⟨segment, hpath⟩ := hbelow
    rw [parentPosition, hroot, hkey, hdescribes.path, hpath, Path.parent?_append_singleton]
    rfl
  rcases hdifference.exists_describes hparent with ⟨target, htarget, hshown⟩ | ⟨hside, hlost⟩
  case inl =>
    -- The parent has a change of its own, and identity and place lead to the same one.
    obtain ⟨p, hp⟩ := List.mem_iff_getElem?.1 htarget
    have hplace := hdifference.findIdx?_place (Registry.nodup_paths hbefore)
      (Registry.nodup_paths hafter) hp
    rw [hshown.side, hshown.path] at hplace
    refine .inr ⟨p, target, parent, ?_, hp, .itself hshown⟩
    rw [hposition, hplace]
    cases hparentKey : parent.key with
    | none => rfl
    | some key =>
        by_cases hself : key.equal key = true
        · rw [Option.bind_some, hdifference.findIdx?_hasKey hp (hshown.key.trans hparentKey) hself]
          rfl
        · rw [Option.bind_some, findIdx?_hasKey_eq_none hself]
          rfl
  case inr =>
    rcases hlost with hunsaved | ⟨survivor, hsurvivor, hsame⟩
    case inl =>
      refine .inl ⟨?_, hside, hunsaved⟩
      rw [hposition, hunsaved, Option.bind_none, Option.none_or, List.findIdx?_eq_none_iff]
      intro other hother
      rw [Bool.eq_false_iff]
      intro hplace
      rw [Bool.and_eq_true, beq_iff_eq, beq_iff_eq, hside] at hplace
      rw [hside] at hparent
      rcases hdifference.mem_cases hother with ⟨_, _, hclassifies⟩ | ⟨former, hformer, hgone,
        hremoves⟩
      · cases hclassifies.side.symm.trans hplace.1
      · obtain rfl := List.inj_on_of_nodup_map (Registry.nodup_paths hbefore) hformer hparent
          (hremoves.path.symm.trans hplace.2)
        have hsaved := hgone.1
        rw [hunsaved] at hsaved
        cases hsaved
    case inr =>
      obtain ⟨target, htarget, hclassifies⟩ := hdifference.exists_classifies hsurvivor
      obtain ⟨p, hp⟩ := List.mem_iff_getElem?.1 htarget
      obtain ⟨key, key', hparentKey, hsurvivorKey, hequal⟩ := id hsame
      refine .inr ⟨p, target, survivor, ?_, hp,
        .survivor (hdifference.removed_of_side hchange hside) hsurvivor hsame
          hclassifies.toDescribes⟩
      rw [hposition, hparentKey, Option.bind_some,
        hdifference.findIdx?_hasKey hp (hclassifies.key.trans hsurvivorKey) hequal]
      rfl

end IsDifference

theorem Side.exists_traversal {registry : Registry} {snapshot current : Option Entity}
    {before after : List Member} (hbefore : registry.members snapshot = .ok before)
    (hafter : registry.members current = .ok after) {side : Side} {member : Member}
    (hmember : member ∈ side.members before after) :
    ∃ root, IsTraversal registry root (side.members before after) := by
  cases side with
  | snapshot =>
      obtain ⟨root, _, htraversal⟩ := Registry.exists_traversal hbefore hmember
      exact ⟨root, htraversal⟩
  | current =>
      obtain ⟨root, _, htraversal⟩ := Registry.exists_traversal hafter hmember
      exact ⟨root, htraversal⟩

/-- A comparison lists the changes by depth and links each to what became of the parent.
The link is missing only for the root and for members of the snapshot whose parent was never
saved.  It leads to an earlier change, nearer to the root, exactly if the parent is shown no
deeper than it was: always, except for removed members whose parent has moved down. -/
theorem compare_links_parents {registry : Registry} {snapshot current : Option Entity}
    {filter : PropertyFilter} {changes : List Change} {before after : List Member}
    (hcompare : registry.compare snapshot current filter = .ok changes)
    (hbefore : registry.members snapshot = .ok before)
    (hafter : registry.members current = .ok after) :
    (changes.Pairwise fun change other => change.depth ≤ other.depth) ∧
    ∀ (i : Nat) change, changes[i]? = some change →
      (change.isRoot = true → change.parent = none) ∧
      (change.isRoot = false → ∃ child ∈ change.side.members before after,
        ∃ parent ∈ change.side.members before after,
          change.Describes change.side child ∧ child.IsDirectlyBelow parent ∧
          (parent.key.isSome ∨ change.side = .current → change.parent.isSome) ∧
          ∀ p, change.parent = some p → ∃ target shown, changes[p]? = some target ∧
            change.ShowsParent after target parent shown ∧
            (p < i ∧ target.depth < change.depth ↔ shown.depth ≤ parent.depth)) := by
  have hdifference := Registry.isDifference_of_compare hcompare hbefore hafter
  obtain ⟨before', after', hbefore', hafter', _, _, rfl⟩ :=
    Registry.compare_eq_linkParents hcompare
  obtain rfl : before' = before := Except.ok.inj (hbefore'.symm.trans hbefore)
  obtain rfl : after' = after := Except.ok.inj (hafter'.symm.trans hafter)
  refine ⟨hdifference.sorted, ?_⟩
  intro i change hi
  have hchange := List.mem_of_getElem? hi
  have hparentLink := parent_eq_of_mem_linkParents hchange
  constructor
  case left =>
    intro hroot
    rw [hparentLink, parentPosition, if_pos hroot]
  case right =>
    intro hroot
    obtain ⟨child, hchild, hdescribes, hknows⟩ := mem_linkParents hchange
    obtain ⟨root, htraversal⟩ := Side.exists_traversal hbefore hafter hchild
    obtain ⟨parent, hparent, hbelow⟩ :=
      htraversal.exists_parent_of_describes hchild hdescribes hroot
    have hkey := hknows.trans (htraversal.parentKey_eq hchild hparent hbelow)
    have hdepth : change.depth = parent.depth + 1 := by
      obtain ⟨segment, hpath⟩ := hbelow
      rw [Change.depth, hdescribes.path, hpath, List.length_append]
      rfl
    refine ⟨child, hchild, parent, hparent, hdescribes, hbelow, ?_⟩
    rcases hdifference.parentPosition_cases hbefore hafter hchange hparent hdescribes hbelow
      hroot hkey with ⟨hnone, hside, hunsaved⟩ | ⟨p, target, shown, hp, htarget, hshows⟩
    · rw [hparentLink, hnone, hside, hunsaved]
      simp
    · rw [hparentLink, hp]
      refine ⟨fun _ => rfl, ?_⟩
      intro q hq
      cases hq
      refine ⟨target, shown, htarget, hshows, ?_⟩
      have htargetDepth := hshows.depth_eq
      constructor
      · rintro ⟨_, hlt⟩
        omega
      · intro hle
        have hlt : target.depth < change.depth := by omega
        refine ⟨lt_of_not_precedes hdifference.sorted hi htarget ?_ (by omega), hlt⟩
        rintro rfl
        exact Nat.lt_irrefl _ hlt

/-! ## Crates in crates

A crate holds crates, so a crate can be put deeper into another one. -/

namespace Stacking

def crate : EntityType := ⟨3, "Crate", [Shipping.idField, Shipping.parentField]⟩

def crates : ClassMapping where
  type := crate
  table := "crates"
  keys := [.generatedKey "id" Shipping.idField]
  properties := [.plain "parent_id" Shipping.parentField]
  relations := [⟨"crates", crate, 0, .many crate (some Shipping.parentKey), none, []⟩]
  initialFields := []
  initialMembers := []
  sound := rfl

def registry : Registry := ⟨[crates], rfl⟩

def crateOf (id parent : Int64) (inner : List Entity) : Entity :=
  .mk crate [(Shipping.idField, .bigInt id), (Shipping.parentField, .bigInt parent)]
    (inner.map fun crate => (.many 3 0, crate))

/-- Each crate holds the next. -/
def stacked : Entity := crateOf 1 0 [crateOf 2 1 [crateOf 3 2 []]]

/-- The innermost crate is gone, and two new ones stand between the others. -/
def wrapped : Entity := crateOf 1 0 [crateOf 4 1 [crateOf 5 4 [crateOf 2 5 []]]]

/-- The crates deep inside. -/
def nested : Entity := crateOf 1 0 [crateOf 4 1 [crateOf 2 4 [crateOf 3 2 []]]]

/-- Only the crate in the middle is left, nearer to the outermost. -/
def unwrapped : Entity := crateOf 1 0 [crateOf 2 1 []]

end Stacking

/-- The change of a removed crate whose holder moved up stands behind that of the holder. -/
theorem unwrapped_links_parents :
    ∃ before after changes,
      Stacking.registry.members (some Stacking.nested) = .ok before ∧
      Stacking.registry.members (some Stacking.unwrapped) = .ok after ∧
      Stacking.registry.compare (some Stacking.nested) (some Stacking.unwrapped)
        (fun _ _ => true) = .ok changes ∧
      (changes.Pairwise fun change other => change.depth ≤ other.depth) ∧
      ∃ change, changes[3]? = some change ∧ change.isRoot = false ∧
        change.parent = some 1 ∧ ∃ target parent shown, changes[1]? = some target ∧
          change.ShowsParent after target parent shown ∧
          (1 < 3 ∧ target.depth < change.depth ↔ shown.depth ≤ parent.depth) := by
  obtain ⟨hsorted, hlinked⟩ := compare_links_parents
    (rfl : Stacking.registry.compare (some Stacking.nested) (some Stacking.unwrapped)
      (fun _ _ => true) = .ok _) rfl rfl
  obtain ⟨_, _, parent, _, _, _, _, hlink⟩ := (hlinked 3 _ rfl).2 rfl
  obtain ⟨target, shown, htarget, hshows, hiff⟩ := hlink 1 rfl
  exact ⟨_, _, _, rfl, rfl, rfl, hsorted, _, rfl, rfl, rfl, target, parent, shown, htarget,
    hshows, hiff⟩

/-- The change of a crate that is gone stands before that of its holder, which moved down. -/
theorem wrapped_links_down :
    ∃ changes change target,
      Stacking.registry.compare (some Stacking.stacked) (some Stacking.wrapped)
        (fun _ _ => true) = .ok changes ∧
      changes[3]? = some change ∧ change.parent = some 4 ∧ changes[4]? = some target ∧
      ¬ (4 < 3 ∧ target.depth < change.depth) :=
  ⟨_, _, _, rfl, rfl, rfl, rfl, by decide⟩

end AggregateSync
