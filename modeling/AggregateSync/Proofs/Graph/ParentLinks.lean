import AggregateSync.Proofs.Graph.Lineage
import AggregateSync.Proofs.Value.Reflexive

/-!
# Which change a parent link leads to

A change of the current graph points to the change of the member that holds it, which
stands before it, one step nearer to the root.  A removed member points to the only change
that has the identity of its former parent: that of the survivor if the parent is still
there, and otherwise that of the parent, which is removed with it.  Only an unsaved parent
has no identity to be found by.  Identities are told apart by the comparison itself, so a
lookup cannot hit another change.
-/

namespace AggregateSync

/-- An identity without NaN equals itself. -/
theorem IdentityKey.equal_self_of_forms {key : IdentityKey}
    (hvalues : ∀ value ∈ key.values, value.hasNaN = false) : key.equal key = true := by
  rw [equal, Value.equalItems_self_eq, Value.itemsHaveNaN_eq_false_iff.2 hvalues, EntityType.same]
  simp

namespace Change

theorem Classifies.not_removed {filter : PropertyFilter} {before : List Member}
    {member : Member} {change : Change} (hclassifies : change.Classifies filter before member) :
    change.state ≠ .removed := by
  intro hremoved
  have hknown : ¬ ∀ other ∈ before, ¬ member.SameIdentity other := by
    rw [← hclassifies.added, hremoved]
    exact nofun
  push Not at hknown
  obtain ⟨other, hother, hsame⟩ := hknown
  obtain ⟨_, hmodified, hunmodified⟩ := hclassifies.kept other hother hsame
  rw [hremoved] at hmodified hunmodified
  by_cases hchanged : change.changed = []
  · exact nomatch hunmodified.2 hchanged
  · exact nomatch hmodified.2 hchanged

/-- The change of a member is one step further down than the parent of the member. -/
theorem Describes.depth_eq_succ {change : Change} {side : Side} {child parent : Member}
    (hdescribes : change.Describes side child) (hbelow : child.IsDirectlyBelow parent) :
    change.depth = parent.depth + 1 := by
  obtain ⟨segment, hpath⟩ := hbelow
  rw [depth, hdescribes.path, hpath, List.length_append]
  rfl

theorem hasKey_iff {key : IdentityKey} {change : Change} :
    change.hasKey key = true ↔ ∃ other, change.key = some other ∧ key.equal other = true := by
  rw [hasKey, Option.any_eq_true]

end Change

namespace IsDifference

variable {filter : PropertyFilter} {before after : List Member} {changes : List Change}

/-- A removed change tells of a member of the snapshot that is gone. -/
theorem exists_gone (hdifference : IsDifference filter before after changes) {change : Change}
    (hchange : change ∈ changes) (hremoved : change.state = .removed) :
    ∃ member ∈ before, member.IsGoneFrom after ∧ change.Removes member := by
  rcases hdifference.mem_cases hchange with ⟨member, _, hclassifies⟩ | hgone
  · exact absurd hremoved hclassifies.not_removed
  · exact hgone

/-- What is shown of a member of the snapshot is that it is gone. -/
theorem removes_of_describes {registry : Registry} {snapshot : Option Entity}
    (hdifference : IsDifference filter before after changes)
    (hbefore : registry.members snapshot = .ok before) {change : Change}
    (hchange : change ∈ changes) {member : Member} (hmember : member ∈ before)
    (hdescribes : change.Describes .snapshot member) :
    member.IsGoneFrom after ∧ change.Removes member := by
  obtain ⟨former, hformer, hgone, hremoves⟩ :=
    hdifference.exists_gone hchange (hdifference.removed_of_side hchange hdescribes.side)
  obtain rfl := List.inj_on_of_nodup_map (Registry.nodup_paths hbefore) hformer hmember
    (hremoves.path.symm.trans hdescribes.path)
  exact ⟨hgone, hremoves⟩

/-- An identity is that of one change at most. -/
theorem position_eq_of_hasKey (hdifference : IsDifference filter before after changes)
    {i j : Nat} {change other : Change} (hi : changes[i]? = some change)
    (hj : changes[j]? = some other) {key : IdentityKey} (hchange : change.hasKey key = true)
    (hother : other.hasKey key = true) : i = j := by
  obtain ⟨changeKey, hchangeKey, hequal⟩ := Change.hasKey_iff.1 hchange
  obtain ⟨otherKey, hotherKey, hequal'⟩ := Change.hasKey_iff.1 hother
  refine position_eq_of_related hdifference.distinct hi hj
    ⟨changeKey, otherKey, hchangeKey, hotherKey, ?_⟩
  rw [IdentityKey.equal_comm] at hequal
  exact IdentityKey.equal_trans hequal hequal'

end IsDifference

section Links

variable {registry : Registry} {snapshot current : Option Entity} {filter : PropertyFilter}
  {changes : List Change} {before after : List Member}

/-- Where the link of a member that is not the root leads. -/
theorem Registry.parent_of_compare
    (hcompare : registry.compare snapshot current filter = .ok changes)
    (hbefore : registry.members snapshot = .ok before)
    (hafter : registry.members current = .ok after) {change : Change}
    (hchange : change ∈ changes) :
    (change.isRoot = true → change.parent = none) ∧
    (change.isRoot = false → ∃ child ∈ change.side.members before after,
      ∃ parent ∈ change.side.members before after,
        change.Describes change.side child ∧ child.IsDirectlyBelow parent ∧
        ((change.parent = none ∧ change.side = .snapshot ∧ parent.key = none) ∨
          ∃ p target shown, change.parent = some p ∧ changes[p]? = some target ∧
            change.ShowsParent after target parent shown)) := by
  have hdifference := Registry.isDifference_of_compare hcompare hbefore hafter
  obtain ⟨before', after', hbefore', hafter', _, _, rfl⟩ :=
    Registry.compare_eq_linkParents hcompare
  obtain rfl : before' = before := Except.ok.inj (hbefore'.symm.trans hbefore)
  obtain rfl : after' = after := Except.ok.inj (hafter'.symm.trans hafter)
  rw [parent_eq_of_mem_linkParents hchange]
  refine ⟨fun hroot => if_pos hroot, fun hroot => ?_⟩
  obtain ⟨child, hchild, hdescribes, hknows⟩ := mem_linkParents hchange
  obtain ⟨root, htraversal⟩ := Side.exists_traversal hbefore hafter hchild
  obtain ⟨parent, hparent, hbelow⟩ :=
    htraversal.exists_parent_of_describes hchild hdescribes hroot
  have hkey := hknows.trans (htraversal.parentKey_eq hchild hparent hbelow)
  exact ⟨child, hchild, parent, hparent, hdescribes, hbelow, hdifference.parentPosition_cases
    hbefore hafter hchange hparent hdescribes hbelow hroot hkey⟩

/-- In the current graph a link leads to the parent, which stands above. -/
theorem IsDifference.current_link (hdifference : IsDifference filter before after changes)
    {i p : Nat} {change target : Change} (hi : changes[i]? = some change)
    (hp : changes[p]? = some target) (hside : change.side = .current)
    {child parent shown : Member} (hdescribes : change.Describes .current child)
    (hbelow : child.IsDirectlyBelow parent)
    (hshows : change.ShowsParent after target parent shown) :
    target.Describes .current parent ∧ p < i ∧ target.depth + 1 = change.depth := by
  have hshown : target.Describes .current parent := by
    cases hshows with
    | itself hitself => exact hside ▸ hitself
    | survivor hremoved _ _ _ =>
        obtain ⟨_, _, _, hremoves⟩ :=
          hdifference.exists_gone (List.mem_of_getElem? hi) hremoved
        cases hside.symm.trans hremoves.side
  have hdepth : target.depth + 1 = change.depth := by
    rw [hdescribes.depth_eq_succ hbelow, Change.depth, hshown.path]
    rfl
  refine ⟨hshown, lt_of_not_precedes hdifference.sorted hi hp ?_ (by omega), hdepth⟩
  rintro rfl
  exact absurd hdepth (Nat.succ_ne_self _)

/-- In the snapshot a link leads to the only change that has the identity of the parent: that
of the survivor, or of the parent itself if it is gone. -/
theorem IsDifference.removed_link (hdifference : IsDifference filter before after changes)
    (hbefore : registry.members snapshot = .ok before) {p : Nat} {change target : Change}
    (hp : changes[p]? = some target) (hside : change.side = .snapshot)
    {parent shown : Member} (hparent : parent ∈ before)
    (hnumbers : ∀ key ∈ parent.key, ∀ value ∈ key.values, value.hasNaN = false)
    (hshows : change.ShowsParent after target parent shown) :
    ∃ key, parent.key = some key ∧ target.hasKey key = true ∧
      ((∃ survivor ∈ after, parent.SameIdentity survivor ∧
          target.Describes .current survivor) ∨
        parent.IsGoneFrom after ∧ target.Removes parent) := by
  cases hshows with
  | itself hitself =>
      obtain ⟨hgone, hremoves⟩ := hdifference.removes_of_describes hbefore
        (List.mem_of_getElem? hp) hparent (hside ▸ hitself)
      obtain ⟨key, hkey⟩ := Option.isSome_iff_exists.1 hgone.1
      refine ⟨key, hkey, Change.hasKey_iff.2 ⟨key, hremoves.key.trans hkey, ?_⟩,
        .inr ⟨hgone, hremoves⟩⟩
      exact IdentityKey.equal_self_of_forms (hnumbers key hkey)
  | survivor _ hshown hsame hdescribes =>
      obtain ⟨key, other, hkey, hother, hequal⟩ := id hsame
      exact ⟨key, hkey, Change.hasKey_iff.2 ⟨other, hdescribes.key.trans hother, hequal⟩,
        .inl ⟨shown, hshown, hsame, hdescribes⟩⟩

/-- The links of a comparison whose snapshot has no NaN among its keys.  Roots have none.  In
the current graph the link leads to the change of the parent, earlier in the list and one step
nearer to the root.  A removed member has no link exactly if its former parent was never saved;
otherwise its link leads to the only change with the identity of that parent, the survivor's if
there is one and else the parent's own. -/
theorem compare_links_exactly
    (hcompare : registry.compare snapshot current filter = .ok changes)
    (hbefore : registry.members snapshot = .ok before)
    (hafter : registry.members current = .ok after)
    (hnumbers : ∀ member ∈ before, ∀ key ∈ member.key, ∀ value ∈ key.values,
      value.hasNaN = false)
    (i : Nat) (change : Change) (hi : changes[i]? = some change) :
    (change.isRoot = true → change.parent = none) ∧
    (change.side = .current → change.isRoot = false →
      ∃ child ∈ after, ∃ parent ∈ after,
        change.Describes .current child ∧ child.IsDirectlyBelow parent ∧
        ∃ p target, change.parent = some p ∧ changes[p]? = some target ∧
          target.Describes .current parent ∧ p < i ∧ target.depth + 1 = change.depth) ∧
    (change.state = .removed → change.isRoot = false →
      ∃ child ∈ before, ∃ parent ∈ before,
        change.Removes child ∧ child.IsDirectlyBelow parent ∧
        (change.parent = none ↔ parent.key = none) ∧
        ∀ key, parent.key = some key →
          ∃ p target, change.parent = some p ∧ changes[p]? = some target ∧
            target.hasKey key = true ∧
            (∀ q other, changes[q]? = some other → other.hasKey key = true → q = p) ∧
            ((∃ survivor ∈ after, parent.SameIdentity survivor ∧
                target.Describes .current survivor) ∨
              parent.IsGoneFrom after ∧ target.Removes parent)) := by
  have hdifference := Registry.isDifference_of_compare hcompare hbefore hafter
  have hchange := List.mem_of_getElem? hi
  obtain ⟨hrootLink, hlink⟩ := Registry.parent_of_compare hcompare hbefore hafter hchange
  refine ⟨hrootLink, ?_, ?_⟩
  · intro hside hroot
    obtain ⟨child, hchild, parent, hparent, hdescribes, hbelow, hcases⟩ := hlink hroot
    rw [hside] at hchild hparent hdescribes hcases
    rcases hcases with ⟨_, hother, _⟩ | ⟨p, target, shown, hp, htarget, hshows⟩
    · cases hother
    · exact ⟨child, hchild, parent, hparent, hdescribes, hbelow, p, target, hp, htarget,
        hdifference.current_link hi htarget hside hdescribes hbelow hshows⟩
  · intro hremoved hroot
    obtain ⟨_, _, _, hremoves⟩ := hdifference.exists_gone hchange hremoved
    have hside := hremoves.side
    obtain ⟨child, hchild, parent, hparent, hdescribes, hbelow, hcases⟩ := hlink hroot
    rw [hside] at hchild hparent hdescribes
    obtain ⟨_, hremovesChild⟩ :=
      hdifference.removes_of_describes hbefore hchange hchild hdescribes
    refine ⟨child, hchild, parent, hparent, hremovesChild, hbelow, ?_⟩
    rcases hcases with ⟨hnone, _, hunsaved⟩ | ⟨p, target, shown, hp, htarget, hshows⟩
    · exact ⟨iff_of_true hnone hunsaved, fun key hkey => nomatch hunsaved.symm.trans hkey⟩
    · obtain ⟨key, hkey, hhas, hwhose⟩ :=
        hdifference.removed_link hbefore htarget hside hparent (hnumbers parent hparent) hshows
      refine ⟨iff_of_false (by simp [hp]) (by simp [hkey]), fun key' hkey' => ?_⟩
      obtain rfl : key = key' := Option.some.inj (hkey.symm.trans hkey')
      refine ⟨p, target, hp, htarget, hhas, fun q other hq hother => ?_, hwhose⟩
      exact hdifference.position_eq_of_hasKey hq htarget hother hhas

end Links

/-- The innermost crate is gone, and its link leads to the crate that held it, which moved up
and stands before it. -/
theorem unwrapped_links_exactly :
    ∃ before after changes change,
      Stacking.registry.members (some Stacking.nested) = .ok before ∧
      Stacking.registry.members (some Stacking.unwrapped) = .ok after ∧
      Stacking.registry.compare (some Stacking.nested) (some Stacking.unwrapped)
        (fun _ _ => true) = .ok changes ∧
      (∀ member ∈ before, ∀ key ∈ member.key, ∀ value ∈ key.values, value.hasNaN = false) ∧
      changes[3]? = some change ∧ change.state = .removed ∧ change.isRoot = false ∧
      ∃ child ∈ before, ∃ parent ∈ before,
        change.Removes child ∧ child.IsDirectlyBelow parent ∧
        (change.parent = none ↔ parent.key = none) ∧
        ∀ key, parent.key = some key →
          ∃ p target, change.parent = some p ∧ changes[p]? = some target ∧
            target.hasKey key = true ∧
            (∀ q other, changes[q]? = some other → other.hasKey key = true → q = p) ∧
            ((∃ survivor ∈ after, parent.SameIdentity survivor ∧
                target.Describes .current survivor) ∨
              parent.IsGoneFrom after ∧ target.Removes parent) := by
  have hnumbers : ∀ member ∈ (Stacking.registry.members (some Stacking.nested)).toOption.getD [],
      ∀ key ∈ member.key, ∀ value ∈ key.values, value.hasNaN = false := by decide
  exact ⟨_, _, _, _, rfl, rfl, rfl, hnumbers, rfl, rfl, rfl,
    (compare_links_exactly (rfl : Stacking.registry.compare (some Stacking.nested)
      (some Stacking.unwrapped) (fun _ _ => true) = .ok _) rfl rfl hnumbers 3 _ rfl).2.2 rfl rfl⟩

end AggregateSync
