import AggregateSync.Proofs.Graph.Identity
import AggregateSync.Proofs.Graph.ParentLinks
import AggregateSync.Proofs.Session.Addressing
import AggregateSync.Proofs.Session.Writing

/-!
# The rows that a DELETE reaches

A DELETE is narrowed by the key of the member that is gone, by the foreign key that its
former parent gives it, and by the subset constant of the relation that held it.  All of
this is read in the snapshot, so the current graph plays no part: two runs over the same
changes make the same DELETEs for as long as both go on.
-/

namespace AggregateSync

/-! ## The snapshot alone -/

section Snapshot

variable {registry : Registry} {dialect : Dialect} {channel : Channel}
  {snapshot current : Option Entity} {options : PersistOptions} {change : Change}

/-- The DELETE of a member of the snapshot is prepared without a look at the current graph. -/
theorem prepareDelete_of_side (hside : change.side = .snapshot) (propagate : Bool) :
    prepareDelete registry dialect snapshot current propagate change =
      prepareDelete registry dialect snapshot none propagate change := by
  have hlink : parentLink registry change snapshot current propagate =
      parentLink registry change snapshot none propagate := by
    rw [parentLink, parentLink, hside]
  rw [prepareDelete, prepareDelete, hlink]

/-- The DELETE of a member of the snapshot, if it can be prepared. -/
def deleteRequests (registry : Registry) (dialect : Dialect) (channel : Channel)
    (snapshot : Option Entity) (options : PersistOptions) (change : Change) : List Request :=
  match prepareDelete registry dialect snapshot none options.onDelete change with
  | .ok write => [.execute channel write.statement]
  | .error _ => []

/-- Whatever the current graph, a member is deleted by that one request, unless the run is
cancelled before. -/
theorem requests_deleteMember {ω : Type} {environment : Environment ω}
    (hside : change.side = .snapshot) (world : ω) :
    let execution := (Task.deleteMember registry dialect channel snapshot options
      change).execution environment current world
    execution.requests = deleteRequests registry dialect channel snapshot options change ∨
      execution.requests = [] ∧ execution.succeeds = false := by
  intro execution
  have hexecution : execution = _ := Task.execution_deleteMember current world
  rw [hexecution]
  cases environment.cancelled world with
  | some reason => exact .inr ⟨rfl, rfl⟩
  | none =>
      left
      rw [deleteRequests, prepareDelete_of_side hside]
      cases prepareDelete registry dialect snapshot none options.onDelete change with
      | error fault => rfl
      | ok write => rfl

end Snapshot

/-- The requests of those turns that delete a member. -/
def deletesOf {ω : Type} (turns : List (Turn (Option Entity) ω Change)) : List Request :=
  (turns.filter fun turn => turn.item.state == .removed).flatMap Turn.requests

section Run

variable {ω : Type} {environment : Environment ω} {registry : Registry} {dialect : Dialect}
  {channel : Channel} {snapshot current : Option Entity} {options : PersistOptions}
  {changes : List Change}

/-- The DELETEs of a run are the first ones of a list that the snapshot decides. -/
theorem deletesOf_writeTurns_of_side
    (hsides : ∀ change ∈ changes, change.state = .removed → change.side = .snapshot)
    (world : ω) :
    deletesOf (writeTurns environment registry dialect channel changes snapshot options current
      world) <+: ((schedule changes).filter fun change => change.state == .removed).flatMap
        (deleteRequests registry dialect channel snapshot options) := by
  let meets : Change → Bool := fun change => change.state == .removed
  refine @Task.requests_turns_of_fixed _ _ _ environment _ meets _ _ ?_ current world
  intro change hchange hmeets state world
  have hremoved : change.state = .removed := eq_of_beq hmeets
  rw [Task.writeMember, hremoved]
  exact requests_deleteMember (hsides change (mem_schedule.1 hchange).1 hremoved) world

end Run

/-! ## What the row says about the parent -/

section Link

variable {registry : Registry} {root : Entity} {members : List Member}

/-- The change of a root is at the root. -/
theorem IsTraversal.path_of_isRoot (htraversal : IsTraversal registry root members)
    {member : Member} (hmember : member ∈ members) {change : Change} {side : Side}
    (hdescribes : change.Describes side member) (hroot : change.isRoot = true) :
    change.path = [] := by
  by_contra hbelow
  rw [hdescribes.path] at hbelow
  obtain ⟨_, _, _, segment, _, _, hrelation, _⟩ := htraversal.exists_parent hmember hbelow
  rw [Change.isRoot, hdescribes.relation, hrelation] at hroot
  cases hroot

/-- What the row of a member of the snapshot says about the parent is read in the snapshot. -/
theorem IsTraversal.link_of_snapshot (htraversal : IsTraversal registry root members)
    {member : Member} (hmember : member ∈ members) {change : Change}
    (hdescribes : change.Describes .snapshot member) {current : Option Entity}
    {propagate : Bool} {link : ParentLink}
    (hlink : parentLink registry change (some root) current propagate = .ok link) :
    (change.isRoot = true → link = ⟨none, none⟩) ∧
    (change.isRoot = false → ∃ parent ∈ members, ∃ segment relation,
      member.path = parent.path ++ [segment] ∧
      parent.mapping.relations[segment.relation]? = some relation ∧
      link.subset = relation.subset ∧
      if propagate then ∃ given, link.foreignKey = some given ∧
        GivesForeignKey parent.mapping relation member.mapping.type parent.entity given
      else link.foreignKey = none) := by
  constructor
  · intro hroot
    rw [parentLink_root (htraversal.path_of_isRoot hmember hdescribes hroot)] at hlink
    exact (Except.ok.inj hlink).symm
  · intro hroot
    obtain ⟨parent, hparent, hbelow⟩ :=
      htraversal.exists_parent_of_describes hmember hdescribes hroot
    have hgraph : Side.snapshot.graph (some root) current = some root := rfl
    obtain ⟨segment, relation, holder, hpath, hrelation, hholder, hsays⟩ :=
      htraversal.exists_parentLink hmember hparent hbelow hdescribes hgraph (.refl root)
    obtain rfl := Except.ok.inj (hholder.symm.trans (htraversal.resolve hparent))
    exact ⟨parent, hparent, segment, relation, hpath, hrelation, hsays propagate link hlink⟩

/-- The foreign key is a condition of its own unless a key column is it already. -/
theorem ClassMapping.parentEntries_cases (mapping : ClassMapping) (given : ForeignKeyValue) :
    ((∃ key ∈ mapping.keys, key.column = given.column) →
        mapping.parentEntries (some given) = []) ∧
      ((∀ key ∈ mapping.keys, key.column ≠ given.column) →
        mapping.parentEntries (some given) = [(given.column, given.value)]) := by
  rw [parentEntries]
  exact ⟨fun hkeyed => if_pos (by simpa using hkeyed),
    fun hunkeyed => if_neg (by simpa using hunkeyed)⟩

/-- What a DELETE says about the parent beside the key: the foreign key, unless it is left out or
is part of the key, and the subset constant. -/
theorem IsTraversal.parentEntries_of_snapshot (htraversal : IsTraversal registry root members)
    {member : Member} (hmember : member ∈ members) {change : Change}
    (hdescribes : change.Describes .snapshot member) {current : Option Entity}
    {propagate : Bool} {link : ParentLink}
    (hlink : parentLink registry change (some root) current propagate = .ok link) :
    (change.isRoot = true →
      member.mapping.parentEntries link.foreignKey = [] ∧ link.subset = none) ∧
    (change.isRoot = false → ∃ parent ∈ members, ∃ segment relation,
      member.path = parent.path ++ [segment] ∧
      parent.mapping.relations[segment.relation]? = some relation ∧
      link.subset = relation.subset ∧
      (propagate = false → member.mapping.parentEntries link.foreignKey = []) ∧
      (propagate = true → ∃ given,
        GivesForeignKey parent.mapping relation member.mapping.type parent.entity given ∧
        ((∃ key ∈ member.mapping.keys, key.column = given.column) →
          member.mapping.parentEntries link.foreignKey = []) ∧
        ((∀ key ∈ member.mapping.keys, key.column ≠ given.column) →
          member.mapping.parentEntries link.foreignKey = [(given.column, given.value)]))) := by
  obtain ⟨hroot, hbelow⟩ := htraversal.link_of_snapshot hmember hdescribes hlink
  refine ⟨fun hisRoot => ?_, fun hisBelow => ?_⟩
  · obtain rfl := hroot hisRoot
    exact ⟨rfl, rfl⟩
  · obtain ⟨parent, hparent, segment, relation, hpath, hrelation, hsubset, hgiven⟩ :=
      hbelow hisBelow
    refine ⟨parent, hparent, segment, relation, hpath, hrelation, hsubset, ?_, ?_⟩
    · rintro rfl
      rw [show link.foreignKey = none from hgiven, ClassMapping.parentEntries]
    · rintro rfl
      obtain ⟨given, hforeignKey, hgives⟩ := hgiven
      rw [hforeignKey]
      exact ⟨given, hgives, member.mapping.parentEntries_cases given⟩

end Link

section Scope

variable {ω ω' : Type} {environment : Environment ω} {environment' : Environment ω'}
  {registry : Registry} {dialect : Dialect} {channel : Channel}
  {snapshot compared : Option Entity} {options : PersistOptions} {filter : PropertyFilter}
  {changes : List Change} {before : List Member}

/-- The DELETE of a member that is gone compares the key columns, in their order, with the
complete key that is the identity of the member.  Then it compares the foreign key with the
value that the parent has in the snapshot, if foreign keys take part in deletes, the member is
not the root and the foreign key is not a key column, and then the subset column of the
relation, if there is one.  Runs over the same changes and snapshot make the same DELETEs, as
far as both get, whatever the current graphs. -/
theorem persist_deletes_scoped
    (hcompare : registry.compare snapshot compared filter = .ok changes)
    (hbefore : registry.members snapshot = .ok before) (current : Option Entity) (world : ω) :
    let turns : List (Turn (Option Entity) ω Change) := writeTurns environment registry
      dialect channel changes snapshot options current world
    ((persist registry dialect channel changes snapshot options).execution environment
        current world).requests = turns.flatMap Turn.requests ∧
    (∀ turn ∈ turns, turn.item.state = .removed →
      ∃ old ∈ before, ∃ key, turn.item.Describes .snapshot old ∧ turn.item.key = some key ∧
        ∀ request ∈ turn.requests, ∃ (delete : Delete) (values : List Value)
            (named : List (String × Value)) (constant : Option SubsetColumn),
          request = .execute channel (delete.build dialect) ∧
          delete.table = old.mapping.table ∧
          delete.filter = Expr.columnsAre? ((old.mapping.keys.map Property.column).zip values ++
            named ++ (constant.map SubsetColumn.entry).toList) ∧
          values = old.mapping.keyReadings old.entity ∧
          (∀ value ∈ values, value.isNull = false) ∧
          values.map Value.keyForm = key.values ∧
          (turn.item.isRoot = true → named = [] ∧ constant = none) ∧
          (turn.item.isRoot = false → ∃ parent ∈ before, ∃ segment relation,
            old.path = parent.path ++ [segment] ∧
            parent.mapping.relations[segment.relation]? = some relation ∧
            constant = relation.subset ∧
            (options.onDelete = false → named = []) ∧
            (options.onDelete = true → ∃ given,
              GivesForeignKey parent.mapping relation old.mapping.type parent.entity given ∧
              ((∃ key ∈ old.mapping.keys, key.column = given.column) → named = []) ∧
              ((∀ key ∈ old.mapping.keys, key.column ≠ given.column) →
                named = [(given.column, given.value)])))) ∧
    ∀ (current' : Option Entity) (world' : ω'),
      deletesOf turns <+: deletesOf (writeTurns environment' registry dialect channel changes
        snapshot options current' world') ∨
      deletesOf (writeTurns environment' registry dialect channel changes snapshot options
        current' world') <+: deletesOf turns := by
  intro turns
  obtain ⟨before', after, hbefore', hafter, hdifference⟩ := Registry.compare_eq_ok hcompare
  obtain rfl := Except.ok.inj (hbefore'.symm.trans hbefore)
  refine ⟨persist_requests changes current world, ?_, ?_⟩
  · intro turn hturn hremoved
    obtain ⟨i, hi⟩ := List.mem_iff_getElem?.1 hturn
    obtain ⟨hitem, _, hrun⟩ := Task.afterTurns_take hi
    obtain ⟨old, hold, hlost, hremoves⟩ :=
      hdifference.exists_gone (mem_schedule.1 (List.mem_of_getElem? hitem)).1 hremoved
    have hdescribes := hremoves.toDescribes
    obtain ⟨root, rfl, htraversal⟩ := Registry.exists_traversal hbefore' hold
    obtain ⟨hpresent, key, hkey, hforms⟩ :=
      (htraversal.known old hold).keyReadings_of_isSome hlost.1
    refine ⟨old, hold, key, hdescribes, hdescribes.key.trans hkey, ?_⟩
    intro request hrequest
    obtain ⟨address, hstands⟩ := htraversal.standsIn hold hdescribes
    rw [Turn.requests, hrun, Task.writeMember, hremoved] at hrequest
    rcases deleteMember_asksOnce hstands turn.state turn.world with
      ⟨hnone, _⟩ | ⟨_, hasked, link, hlink, rfl⟩
    · rw [hnone] at hrequest
      cases hrequest
    rw [hasked, List.mem_singleton] at hrequest
    refine ⟨memberDelete old.mapping old.entity link.foreignKey link.subset,
      old.mapping.keyReadings old.entity, old.mapping.parentEntries link.foreignKey, link.subset,
      hrequest, rfl, ?_, rfl, hpresent, hforms,
      htraversal.parentEntries_of_snapshot hold hdescribes hlink⟩
    rw [memberDelete, ClassMapping.entries_eq_zip]
    rfl
  · intro current' world'
    have hsides : ∀ change ∈ changes, change.state = .removed → change.side = .snapshot := by
      intro change hchange hremoved
      obtain ⟨_, _, _, hremoves⟩ := hdifference.exists_gone hchange hremoved
      exact hremoves.side
    exact List.prefix_or_prefix_of_prefix (deletesOf_writeTurns_of_side hsides world)
      (deletesOf_writeTurns_of_side hsides world')

end Scope

/-- The DELETE of the item names the parcel that held it.  A run whose graph has the item in
another parcel makes the same DELETEs. -/
theorem emptied_deletes_scoped :
    ∃ changes before turn,
      Shipping.registry.compare (some Shipping.packed) (some Shipping.emptied)
        (fun _ _ => true) = .ok changes ∧
      Shipping.registry.members (some Shipping.packed) = .ok before ∧
      (writeTurns Script.environment Shipping.registry .postgres .transaction changes
        (some Shipping.packed) .standard (some Shipping.emptied) Shipping.quiet)[0]? =
          some turn ∧
      turn.item.state = .removed ∧ turn.item.isRoot = false ∧
      (∃ old ∈ before, ∃ key, turn.item.Describes .snapshot old ∧ turn.item.key = some key ∧
        ∀ request ∈ turn.requests, ∃ (delete : Delete) (values : List Value)
            (named : List (String × Value)) (constant : Option SubsetColumn),
          request = .execute .transaction (delete.build .postgres) ∧
          delete.filter = Expr.columnsAre? ((old.mapping.keys.map Property.column).zip values ++
            named ++ (constant.map SubsetColumn.entry).toList) ∧
          values.map Value.keyForm = key.values) ∧
      (deletesOf (writeTurns Script.environment Shipping.registry .postgres .transaction changes
          (some Shipping.packed) .standard (some Shipping.emptied) Shipping.quiet) <+:
        deletesOf (writeTurns Script.environment Shipping.registry .postgres .transaction changes
          (some Shipping.packed) .standard (some Shipping.moved) Shipping.quiet) ∨
      deletesOf (writeTurns Script.environment Shipping.registry .postgres .transaction changes
          (some Shipping.packed) .standard (some Shipping.moved) Shipping.quiet) <+:
        deletesOf (writeTurns Script.environment Shipping.registry .postgres .transaction changes
          (some Shipping.packed) .standard (some Shipping.emptied) Shipping.quiet)) := by
  obtain ⟨_, hscoped, halike⟩ := @persist_deletes_scoped Script Script Script.environment
    Script.environment Shipping.registry .postgres .transaction (some Shipping.packed)
    (some Shipping.emptied) .standard (fun _ _ => true) _ _ rfl rfl (some Shipping.emptied)
    Shipping.quiet
  obtain ⟨old, hold, key, hdescribes, hkey, hdeletes⟩ :=
    hscoped _ (@List.mem_of_getElem? _ _ 0 _ rfl) rfl
  refine ⟨_, _, _, rfl, rfl, rfl, rfl, rfl, ⟨old, hold, key, hdescribes, hkey, ?_⟩,
    halike (some Shipping.moved) Shipping.quiet⟩
  intro request hrequest
  obtain ⟨delete, values, named, constant, hsent, _, hfilter, _, _, hforms, _⟩ :=
    hdeletes request hrequest
  exact ⟨delete, values, named, constant, hsent, hfilter, hforms⟩

end AggregateSync
