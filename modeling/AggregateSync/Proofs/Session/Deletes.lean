import AggregateSync.Proofs.Session.Writing

/-!
# The order of deletes

A member that is gone is deleted after the members that hung under it, as far as they
are gone too: deletes go from the leaves up.  A member that survives under another
parent is written in the last phase, so its row still refers to its former parent when
that parent is deleted.
-/

namespace AggregateSync

section Deletes

variable {ω : Type} {environment : Environment ω} {registry : Registry} {dialect : Dialect}
  {channel : Channel} {snapshot current : Option Entity} {options : PersistOptions}
  {filter : PropertyFilter} {changes : List Change} {before after : List Member}

/-- A turn that deletes a member and succeeds made one request, the DELETE of the
member. -/
theorem requests_of_removes {root : Entity} (htraversal : IsTraversal registry root before)
    {change : Change} {member : Member} (hmember : member ∈ before)
    (hremoves : change.Removes member) {state later : Option Entity} {world between : ω}
    {issued : Bool} {requests : List Request}
    (hturn : (Task.writeMember registry dialect channel (some root) options
      change).execution environment state world = ⟨.ok issued, later, between, requests⟩) :
    ∃ link, parentLink registry change (some root) state options.onDelete = .ok link ∧
      requests = [.execute channel ((memberDelete member.mapping member.entity
        link.foreignKey link.subset).build dialect)] := by
  obtain ⟨address, hstands⟩ := htraversal.standsIn hmember hremoves.toDescribes
  rw [Task.writeMember, hremoves.removed] at hturn
  obtain ⟨link, hlink, _, _, hrequests, _⟩ := deleteMember_eq_ok hstands hturn
  exact ⟨link, hlink, hrequests⟩

/-- A change of a member of the current graph that is scheduled, and whose identity the
snapshot has, is a modification. -/
theorem state_eq_modified (hdifference : IsDifference filter before after changes)
    {change : Change} (hchange : change ∈ schedule changes) {survivor child : Member}
    (hdescribes : change.Describes .current survivor) (hchild : child ∈ before)
    (hsame : survivor.SameIdentity child) : change.state = .modified := by
  obtain ⟨hchange, hstate⟩ := mem_schedule.1 hchange
  rcases hdifference.mem_cases hchange with ⟨member, _, hclassifies⟩ | ⟨member, _, _, hremoves⟩
  case inr =>
    have hside := hremoves.side
    rw [hdescribes.side] at hside
    cases hside
  have hkey : member.SameIdentity child := by
    rw [Member.SameIdentity, ← hclassifies.key, hdescribes.key]
    exact hsame
  obtain ⟨_, hmodified, hunmodified⟩ := hclassifies.kept child hchild hkey
  rw [hmodified]
  intro hunchanged
  exact hstate (hunmodified.2 hunchanged)

/-- When the turn comes to delete a member, every member that hung directly under it and
is gone was deleted in an earlier turn; one that survives was not written yet. -/
theorem deletes_follow_children (world : ω)
    (hcompare : registry.compare snapshot current filter = .ok changes)
    (hbefore : registry.members snapshot = .ok before)
    (hafter : registry.members current = .ok after) :
    let turns : List (Turn (Option Entity) ω Change) := writeTurns environment registry
      dialect channel changes snapshot options current world
    ((persist registry dialect channel changes snapshot options).execution environment
        current world).requests = turns.flatMap Turn.requests ∧
      ∀ (i : Nat) turn parent, turns[i]? = some turn → parent ∈ before → turn.item.Removes parent →
        ∀ child ∈ before, child.key.isSome → child.IsDirectlyBelow parent →
          (child.IsGoneFrom after → ∃ (j : Nat) (earlier : Turn (Option Entity) ω Change)
              (link : ParentLink),
            j < i ∧ turns[j]? = some earlier ∧
            earlier.item.Removes child ∧
            earlier.requests = [.execute channel ((memberDelete child.mapping child.entity
              link.foreignKey link.subset).build dialect)]) ∧
          ∀ survivor ∈ after, survivor.SameIdentity child → ∀ (j : Nat) earlier, j ≤ i →
            turns[j]? = some earlier → ¬ earlier.item.Describes .current survivor := by
  intro turns
  refine ⟨persist_requests changes current world, ?_⟩
  intro i turn parent hturn hparent hremoves child hchild _ hbelow
  obtain ⟨members, others, hmembers, hothers, hdifference⟩ := Registry.compare_eq_ok hcompare
  obtain rfl : before = members := Except.ok.inj (hbefore.symm.trans hmembers)
  obtain rfl : after = others := Except.ok.inj (hafter.symm.trans hothers)
  obtain ⟨hitem, _, _⟩ := Task.afterTurns_take hturn
  constructor
  · intro hgone
    obtain ⟨change, hchange, hremovesChild⟩ := hdifference.exists_removes hchild hgone
    have hscheduled : change ∈ schedule changes := by
      rw [mem_schedule, hremovesChild.removed]
      exact ⟨hchange, by simp⟩
    obtain ⟨j, hj⟩ := List.mem_iff_getElem?.1 hscheduled
    have hdepth : turn.item.depth < change.depth := by
      rw [Change.depth, Change.depth, hremoves.path, hremovesChild.path]
      exact hbelow.depth_lt
    have hlt : j < i := by
      apply lt_of_not_mayPrecede hdifference.sorted hitem hj
      · intro hsame
        exact absurd (congrArg Change.depth hsame) (Nat.ne_of_lt hdepth)
      · intro hprecede
        have hstates := hremoves.removed.trans hremovesChild.removed.symm
        exact absurd (hprecede.2.1 hstates hremoves.removed) (Nat.not_le_of_lt hdepth)
    obtain ⟨earlier, issued, later, between, requests, hearlier, hexecution⟩ :=
      Task.exists_ok_of_reached hturn hlt
    obtain ⟨hitem', _, hrun⟩ := Task.afterTurns_take hearlier
    obtain rfl : earlier.item = change := Option.some.inj (hitem'.symm.trans hj)
    cases snapshot with
    | none =>
        obtain rfl := Except.ok.inj hbefore
        exact absurd hchild List.not_mem_nil
    | some root =>
        obtain ⟨link, _, hrequests⟩ := requests_of_removes (traverse_isTraversal hbefore)
          hchild hremovesChild (hrun.symm.trans hexecution)
        refine ⟨j, earlier, link, hlt, hearlier, hremovesChild, ?_⟩
        rw [Turn.requests, hexecution, hrequests]
  · intro survivor _ hsame j earlier hle hearlier hdescribes
    obtain ⟨hitem', _, _⟩ := Task.afterTurns_take hearlier
    have hmodified : earlier.item.state = .modified :=
      state_eq_modified hdifference (List.mem_of_getElem? hitem') hdescribes hchild hsame
    have hlate : i < j := by
      apply lt_of_not_mayPrecede hdifference.sorted hitem' hitem
      · intro heq
        rw [heq, hremoves.removed] at hmodified
        cases hmodified
      · intro hprecede
        have hphase := hprecede.1
        rw [hmodified, hremoves.removed] at hphase
        exact absurd hphase (by decide)
    exact absurd hle (Nat.not_le_of_lt hlate)

end Deletes

theorem emptied_deletes_follow_children :
    ∃ changes before after parent child,
      Shipping.registry.compare (some Shipping.packed) (some Shipping.emptied)
        (fun _ _ => true) = .ok changes ∧
      Shipping.registry.members (some Shipping.packed) = .ok before ∧
      Shipping.registry.members (some Shipping.emptied) = .ok after ∧
      before[1]? = some parent ∧ before[2]? = some child ∧ child.IsGoneFrom after ∧
      ∃ (j : Nat) (earlier : Turn (Option Entity) Script Change) (link : ParentLink), j < 1 ∧
        (writeTurns Script.environment Shipping.registry .postgres .transaction changes
          (some Shipping.packed) .standard (some Shipping.emptied)
          Shipping.quiet)[j]? = some earlier ∧
        earlier.item.Removes child ∧
        earlier.requests = [.execute .transaction ((memberDelete child.mapping child.entity
          link.foreignKey link.subset).build .postgres)] := by
  refine ⟨_, _, _, _, _, rfl, rfl, rfl, rfl, rfl, Member.isGone_iff.1 rfl, ?_⟩
  obtain ⟨_, hturns⟩ := @deletes_follow_children Script Script.environment Shipping.registry
    .postgres .transaction (some Shipping.packed) (some Shipping.emptied) .standard
    (fun _ _ => true) _ _ _ Shipping.quiet rfl rfl rfl
  exact (hturns 1 _ _ rfl (@List.mem_of_getElem? _ _ 1 _ rfl)
    ⟨⟨rfl, rfl, rfl, rfl, rfl⟩, rfl, rfl⟩ _ (@List.mem_of_getElem? _ _ 2 _ rfl) rfl
    ⟨⟨0, 0⟩, rfl⟩).1 (Member.isGone_iff.1 rfl)

/-- A DELETE waits for the members under the one that it removes: each was deleted
before or, if it survives, had a statement of its own. -/
def DeletesAwaitChildren {ω : Type} (turns : List (Turn (Option Entity) ω Change))
    (before after : List Member) : Prop :=
  ∀ (i : Nat) turn parent, turns[i]? = some turn → turn.requests ≠ [] → parent ∈ before →
    turn.item.Removes parent → ∀ child ∈ before, child.key.isSome →
      child.IsDirectlyBelow parent → ∃ (j : Nat) (earlier : _), j < i ∧
        turns[j]? = some earlier ∧ earlier.requests ≠ [] ∧ (earlier.item.Removes child ∨
          ∃ survivor ∈ after, survivor.SameIdentity child ∧
            earlier.item.Describes .current survivor)

/-- The item that lies in another parcel is written only after its former parcel was
deleted. -/
theorem repacked_not_deletesAwaitChildren :
    ∃ changes before after,
      Shipping.registry.compare (some Shipping.packed) (some Shipping.repacked)
        (fun _ _ => true) = .ok changes ∧
      Shipping.registry.members (some Shipping.packed) = .ok before ∧
      Shipping.registry.members (some Shipping.repacked) = .ok after ∧
      ¬ DeletesAwaitChildren (writeTurns Script.environment Shipping.registry .postgres
        .transaction changes (some Shipping.packed) .standard (some Shipping.repacked)
        Shipping.quiet) before after := by
  refine ⟨_, _, _, rfl, rfl, rfl, ?_⟩
  intro hawait
  -- the first turn deletes the parcel, so nothing can have come before it
  obtain ⟨j, _, hearlier, _⟩ := hawait 0 _ _ rfl (by intro hnone; cases hnone)
    (@List.mem_of_getElem? _ _ 1 _ rfl) ⟨⟨rfl, rfl, rfl, rfl, rfl⟩, rfl, rfl⟩ _
    (@List.mem_of_getElem? _ _ 2 _ rfl) rfl ⟨⟨0, 0⟩, rfl⟩
  exact absurd hearlier (Nat.not_lt_zero j)

end AggregateSync
