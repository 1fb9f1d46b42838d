import AggregateSync.Proofs.Session.Transaction
import AggregateSync.Proofs.Value.Reflexive

/-!
# A graph and its copy

A comparison finds a saved member again by its identity, and the member's properties
unchanged by their equality.  Both can miss only where a value does not equal itself, so a
graph without NaN agrees with a copy of it, and where graphs agree nothing is written.
-/

namespace AggregateSync

/-- There is no NaN in the key of the member or in a property that is compared. -/
def Member.IsNaNFree (member : Member) : Prop :=
  ∀ property ∈ member.mapping.keys ++ member.mapping.writableProperties,
    (member.entity.read property.field).hasNaN = false

instance : DecidablePred Member.IsNaNFree := fun member =>
  inferInstanceAs (Decidable (∀ property ∈ member.mapping.keys ++
    member.mapping.writableProperties, (member.entity.read property.field).hasNaN = false))

/-- The change says of a member of the current graph that nothing became of it. -/
structure Change.Agrees (member : Member) (change : Change) : Prop
    extends change.Describes .current member where
  unmodified : change.state = .unmodified
  unchanged : change.changed = []

/-- A saved member is found again. -/
theorem Member.sameIdentity_self {registry : Registry} {member : Member}
    (hknown : member.IsKnown registry) (hsaved : member.key.isSome = true)
    (hnumbers : member.IsNaNFree) : member.SameIdentity member := by
  obtain ⟨key, hkey⟩ := Option.isSome_iff_exists.1 hsaved
  refine ⟨key, key, hkey, hkey, ?_⟩
  rw [hknown.key_eq] at hkey
  split at hkey
  case isFalse => cases hkey
  obtain rfl := Option.some.inj hkey
  apply IdentityKey.equal_self_of_values
  rw [ClassMapping.keyReadings, List.forall_mem_map]
  exact fun property hproperty => hnumbers property (List.mem_append_left _ hproperty)

/-- A member does not differ from itself. -/
theorem Member.differences_self (filter : PropertyFilter) {member : Member}
    (hnumbers : member.IsNaNFree) :
    differences filter member.mapping member.entity member.entity = [] := by
  rw [differences, List.map_eq_nil_iff, List.filter_eq_nil_iff]
  intro property hproperty
  have hwritable : property ∈ member.mapping.writableProperties :=
    (List.mem_filter.1 hproperty).1
  rw [Value.equal_self_eq, hnumbers property (List.mem_append_right _ hwritable)]
  decide

section Copy

variable {registry : Registry} {root : Entity} {members : List Member}

/-- A comparison of a graph with its copy agrees about every member and says nothing else. -/
theorem Registry.compare_self (filter : PropertyFilter)
    (htraverse : registry.traverse root = .ok members)
    (hsaved : ∀ member ∈ members, member.key.isSome = true)
    (hdistinct : DistinctIdentities members)
    (hnumbers : ∀ member ∈ members, member.IsNaNFree) :
    ∃ changes items, registry.compare (some root) (some root) filter = .ok changes ∧
      changes.Perm items ∧ List.Forall₂ Change.Agrees members items := by
  have hmembers : registry.members (some root) = .ok members := htraverse
  have hcheck : checkIdentities members = .ok () := by
    rcases checkIdentities_spec members with ⟨_, hok⟩ | ⟨hrepeated, _⟩
    · exact hok
    · exact absurd hdistinct hrepeated
  have hcompare := Registry.compare_of_members filter (.inl rfl) hmembers hmembers
  rw [hcheck] at hcompare
  have hdifference : IsDifference filter members members _ :=
    linkParents_isDifference hdistinct hdistinct
  obtain ⟨kept, gone, hperm, hkept, hgone⟩ := hdifference.matched
  have hself : ∀ member ∈ members, member.SameIdentity member := fun member hmember =>
    Member.sameIdentity_self (members_isKnown hmembers member hmember)
      (hsaved member hmember) (hnumbers member hmember)
  have hstays : (members.filter fun member => decide (member.IsGoneFrom members)) = [] := by
    rw [List.filter_eq_nil_iff]
    intro member hmember hgone
    exact (of_decide_eq_true hgone).2 member hmember (hself member hmember)
  rw [hstays, List.forall₂_nil_left_iff] at hgone
  rw [hgone, List.append_nil] at hperm
  refine ⟨_, kept, hcompare, hperm, ?_⟩
  -- each change is matched with a member of the list, which meets itself in the snapshot
  rw [List.forall₂_iff_get] at hkept ⊢
  refine ⟨hkept.1, fun i hi hi' => ?_⟩
  have hmember : members.get ⟨i, hi⟩ ∈ members := List.get_mem members _
  have hclassifies := hkept.2 i hi hi'
  obtain ⟨hchanged, _, hunmodified⟩ := hclassifies.kept _ hmember (hself _ hmember)
  rw [Member.differences_self filter (hnumbers _ hmember)] at hchanged
  exact ⟨hclassifies.toDescribes, hunmodified.2 hchanged, hchanged⟩

end Copy

section Unmodified

variable {changes : List Change}

/-- Changes that are all agreements are none to write. -/
theorem changesIn_eq_nil (hunmodified : ∀ change ∈ changes, change.state = .unmodified)
    {state : ChangeState} (hstate : state ≠ .unmodified) : changesIn changes state = [] := by
  rw [List.eq_nil_iff_forall_not_mem]
  intro change hchange
  obtain ⟨hlisted, rfl⟩ := mem_changesIn.1 hchange
  exact hstate (hunmodified change hlisted)

/-- Where graphs agree, writing does nothing. -/
theorem execution_persist_unmodified
    (hunmodified : ∀ change ∈ changes, change.state = .unmodified) {ω : Type}
    (environment : Environment ω) (registry : Registry) (dialect : Dialect) (channel : Channel)
    (snapshot current : Option Entity) (options : PersistOptions) (world : ω) :
    (persist registry dialect channel changes snapshot options).execution environment current
      world = ⟨.ok ⟨0, 0, 0⟩, current, world, []⟩ := by
  rw [persist, changesIn_eq_nil hunmodified (by decide), changesIn_eq_nil hunmodified (by decide),
    changesIn_eq_nil hunmodified (by decide)]
  rfl

/-- The summary of an agreement counts every change as unmodified. -/
theorem ChangeSummary.ofChanges_unmodified
    (hunmodified : ∀ change ∈ changes, change.state = .unmodified)
    (hroot : ∃ change ∈ changes, change.isRoot = true ∧ change.side = .current) :
    ofChanges changes ⟨0, 0, 0⟩ =
      ⟨some .unmodified, 0, 0, 0, changes.length, ⟨0, 0, 0⟩⟩ := by
  have hall : countState changes .unmodified = changes.length := by
    rw [countState, List.filter_eq_self.2]
    exact fun change hchange => beq_iff_eq.2 (hunmodified change hchange)
  have hnone : ∀ state, state ≠ .unmodified → countState changes state = 0 := by
    intro state hstate
    have hempty : changesIn changes state = [] := changesIn_eq_nil hunmodified hstate
    rw [changesIn] at hempty
    rw [countState, hempty, List.length_nil]
  obtain ⟨change, hchange, hisRoot, hside⟩ := hroot
  obtain ⟨found, hfound⟩ : ∃ found, (changes.find? fun change =>
      change.isRoot && change.side == .current) = some found := by
    rw [← Option.isSome_iff_exists, List.find?_isSome]
    exact ⟨change, hchange, by rw [hisRoot, hside]; rfl⟩
  have hstate : found.state = .unmodified := hunmodified found (List.mem_of_find?_eq_some hfound)
  rw [ofChanges, hall, hnone _ (by decide), hnone _ (by decide), hnone _ (by decide)]
  simp only [hfound, Option.some_or, Option.map_some, hstate]

end Unmodified

/-- A graph whose members are saved under distinct identities, with no NaN in a key or a
compared property, agrees with its copy: whatever the filter is, the comparison says one thing
of each member, that it is unmodified.  So a synchronization with the copy leaves the graph as
it is and asks for nothing but to begin and, once it has begun, to commit; if both succeed, the
summary counts every member as unmodified and no statement. -/
theorem compare_copy_agrees (registry : Registry) (root : Entity) {members : List Member}
    (htraverse : registry.traverse root = .ok members)
    (hsaved : ∀ member ∈ members, member.key.isSome = true)
    (hdistinct : DistinctIdentities members)
    (hnumbers : ∀ member ∈ members, member.IsNaNFree) :
    (∀ filter, ∃ changes items, registry.compare (some root) (some root) filter = .ok changes ∧
      changes.Perm items ∧ List.Forall₂ Change.Agrees members items) ∧
    ∀ (ω : Type) (environment : Environment ω) (dialect : Dialect) (config : SyncConfig)
        (world : ω),
      let run := (synchronize registry dialect config (some root)).execution environment
        (some root) world
      run.state = some root ∧
      match environment.answer .begin world with
      | (.ok (), begun) =>
        ∃ summary : ChangeSummary,
          run.outcome = (environment.answer .commit begun).1.map (fun _ => summary) ∧
          run.requests = [.begin, .commit] ∧
          summary = ⟨some .unmodified, 0, 0, 0, members.length, ⟨0, 0, 0⟩⟩ ∧
          summary.hasChanges = false
      | (failure, _) => run.outcome.FailsAs failure ∧ run.requests = [.begin] := by
  refine ⟨fun filter => Registry.compare_self filter htraverse hsaved hdistinct hnumbers, ?_⟩
  intro ω environment dialect config world run
  obtain ⟨changes, items, hcompare, hperm, hagrees⟩ :=
    Registry.compare_self config.filter htraverse hsaved hdistinct hnumbers
  have hunmodified : ∀ change ∈ changes, change.state = .unmodified := by
    intro change hchange
    obtain ⟨_, _, hagree⟩ := exists_item_of_forall₂ hagrees (hperm.mem_iff.1 hchange)
    exact hagree.unmodified
  have hroot : ∃ change ∈ changes, change.isRoot = true ∧ change.side = .current := by
    obtain ⟨self, rest, rfl, _, _, _, hrelation⟩ := (traverse_isTraversal htraverse).root
    obtain ⟨change, hchange, hagree⟩ := exists_result_of_forall₂ hagrees List.mem_cons_self
    refine ⟨change, hperm.mem_iff.2 hchange, ?_, hagree.side⟩
    rw [Change.isRoot, hagree.relation, hrelation, Option.isNone_none]
  have hsummary : ChangeSummary.ofChanges changes ⟨0, 0, 0⟩ =
      ⟨some .unmodified, 0, 0, 0, members.length, ⟨0, 0, 0⟩⟩ := by
    rw [ChangeSummary.ofChanges_unmodified hunmodified hroot, hperm.length_eq,
      hagrees.length_eq]
  have hrun : run = _ := execution_synchronize environment registry dialect config (some root)
    (some root) world
  rw [hcompare] at hrun
  replace hrun : run = Execution.andThen _ _ := hrun
  rw [Task.execution_inTransaction] at hrun
  cases hbegin : environment.answer .begin world with
  | mk answer begun =>
      rw [hbegin] at hrun
      cases answer with
      | ok =>
          replace hrun : run = Execution.andThen (Task.ending environment _) _ := hrun
          rw [execution_persist_unmodified hunmodified, Task.ending] at hrun
          cases hcommit : (environment.answer .commit begun).1 <;>
            simp [hrun, hcommit, Execution.andThen, Outcome.map, Outcome.andThen, hsummary,
              ChangeSummary.hasChanges, WriteCounts.total]
      | err e =>
          rw [hrun]
          exact ⟨rfl, .err e, rfl⟩
      | cancelled reason =>
          rw [hrun]
          exact ⟨rfl, .cancelled reason, rfl⟩
      | panicked detail =>
          rw [hrun]
          exact ⟨rfl, .panicked detail, rfl⟩

/-- Two parcels, one of them with an item, agree with their copy. -/
theorem packed_copy_agrees :
    ∃ members, Shipping.registry.traverse Shipping.packed = .ok members ∧
      (∀ member ∈ members, member.key.isSome = true) ∧ DistinctIdentities members ∧
      (∀ member ∈ members, member.IsNaNFree) ∧
      (∀ filter, ∃ changes items, Shipping.registry.compare (some Shipping.packed)
        (some Shipping.packed) filter = .ok changes ∧ changes.Perm items ∧
          List.Forall₂ Change.Agrees members items) ∧
      let run := (synchronize Shipping.registry .postgres .standard
        (some Shipping.packed)).execution Script.environment (some Shipping.packed)
          Shipping.quiet
      run.state = some Shipping.packed ∧ run.requests = [.begin, .commit] ∧
        run.outcome = .ok ⟨some .unmodified, 0, 0, 0, 4, ⟨0, 0, 0⟩⟩ := by
  obtain ⟨hcompare, hrun⟩ := compare_copy_agrees Shipping.registry Shipping.packed rfl (by decide)
    ((@firstRepeated_eq_none_iff [] _).1 rfl).2 (by decide)
  obtain ⟨hstate, summary, houtcome, hrequests, rfl, _⟩ :=
    hrun Script Script.environment .postgres .standard Shipping.quiet
  exact ⟨_, rfl, by decide, ((@firstRepeated_eq_none_iff [] _).1 rfl).2, by decide, hcompare,
    hstate, hrequests, houtcome⟩

end AggregateSync
