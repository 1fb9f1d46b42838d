import AggregateSync.Proofs.Session.Inserts

/-!
# The order of the statements

Whatever becomes of a run, its statements are the first ones of a fixed list: an INSERT
for each added member from the root down, a DELETE for each removed member from the leaves
up, an UPDATE for each modified member.  A container that is added is therefore inserted
before its members, which then find its key in the graph, and one that is removed is
deleted after them.
-/

namespace AggregateSync

/-- The request that stores the row of a new member, which asks for the key that the member
awaits. -/
def insertRequest (channel : Channel) (mapping : ClassMapping) (e : Entity)
    (statement : Statement) : Request :=
  if mapping.keys.any (ClassMapping.awaits e) then .insert channel statement
  else .execute channel statement

/-- The request that writes a member as its change asks: the INSERT of an added member, the
DELETE of a removed one, the UPDATE of a modified one. -/
inductive Change.Writes (dialect : Dialect) (channel : Channel) (before after : List Member)
    (change : Change) : Request → Prop
  | insert {member : Member} {foreignKey : Option ForeignKeyValue} {shown : Entity}
      {extra : Option (String × Value)} (subset : Option SubsetColumn)
      (hadded : change.state = .added) (hmember : member ∈ after)
      (hdescribes : change.Describes .current member)
      (htakes : TakesForeignKey member.mapping member.entity foreignKey shown extra) :
      Writes dialect channel before after change (insertRequest channel member.mapping shown
        ((memberInsert member.mapping shown extra subset).build dialect))
  | delete {member : Member} (foreignKey : Option ForeignKeyValue)
      (subset : Option SubsetColumn) (hmember : member ∈ before)
      (hremoves : change.Removes member) :
      Writes dialect channel before after change (.execute channel
        ((memberDelete member.mapping member.entity foreignKey subset).build dialect))
  | update {member : Member} {foreignKey : Option ForeignKeyValue} {shown : Entity}
      {extra : Option (String × Value)} (subset : Option SubsetColumn)
      (hmodified : change.state = .modified) (hmember : member ∈ after)
      (hdescribes : change.Describes .current member)
      (htakes : TakesForeignKey member.mapping member.entity foreignKey shown extra) :
      Writes dialect channel before after change (.execute channel
        ((memberUpdate member.mapping shown extra subset).build dialect))

theorem memberInsert_of_label {mapping : ClassMapping} {e other : Entity}
    (hlabel : e.label = other.label) (extra : Option (String × Value))
    (subset : Option SubsetColumn) :
    memberInsert mapping e extra subset = memberInsert mapping other extra subset := by
  have hawaits : ClassMapping.awaits e = ClassMapping.awaits other := by
    funext key
    rw [ClassMapping.awaits, ClassMapping.awaits, Entity.read_of_label hlabel]
  simp only [memberInsert, ClassMapping.entries_of_label hlabel, hawaits]

theorem insertRequest_of_label {channel : Channel} {mapping : ClassMapping} {e other : Entity}
    (hlabel : e.label = other.label) (statement : Statement) :
    insertRequest channel mapping e statement = insertRequest channel mapping other statement := by
  have hawaits : ClassMapping.awaits e = ClassMapping.awaits other := by
    funext key
    rw [ClassMapping.awaits, ClassMapping.awaits, Entity.read_of_label hlabel]
  rw [insertRequest, insertRequest, hawaits]

/-! ## The requests of one turn -/

section Turn

variable {ω : Type} {environment : Environment ω} {registry : Registry} {dialect : Dialect}
  {channel : Channel} {snapshot : Option Entity} {options : PersistOptions} {change : Change}
  {root e : Entity} {mapping : ClassMapping} {address : Address}

/-- What an execution asked: nothing, and then it failed, or one request. -/
def Execution.AsksOnce {σ α : Type} (execution : Execution σ ω α) (P : Request → Prop) : Prop :=
  (execution.requests = [] ∧ execution.succeeds = false) ∨
    ∃ request, execution.requests = [request] ∧ P request

theorem insertMember_asksOnce (hstands : change.StandsIn registry root mapping e address)
    (world : ω) :
    ((Task.insertMember registry dialect channel snapshot change).execution environment
      (some root) world).AsksOnce fun request => ∃ link shown extra,
        parentLink registry change snapshot (some root) true = .ok link ∧
        TakesForeignKey mapping e link.foreignKey shown extra ∧
        request = insertRequest channel mapping shown
          ((memberInsert mapping shown extra link.subset).build dialect) := by
  rw [Task.execution_insertMember]
  cases environment.cancelled world with
  | some reason => exact .inl ⟨rfl, rfl⟩
  | none =>
      cases hprepare : prepareInsert registry dialect snapshot change root with
      | error fault => exact .inl ⟨rfl, rfl⟩
      | ok prepared =>
          obtain ⟨linked, write⟩ := prepared
          obtain ⟨link, shown, extra, hlink, htakes, _, rfl⟩ :=
            (prepareInsert_eq_ok hstands).1 hprepare
          refine .inr ⟨_, ?_, link, shown, extra, hlink, htakes, rfl⟩
          rw [insertRequest]
          cases mapping.keys.any (ClassMapping.awaits shown) with
          | false => rfl
          | true =>
              simp only [if_true]
              rw [Task.sendingInsert]
              split
              · split <;> rfl
              all_goals rfl

theorem deleteMember_asksOnce (hstands : change.StandsIn registry root mapping e address)
    (current : Option Entity) (world : ω) :
    ((Task.deleteMember registry dialect channel (some root) options change).execution
      environment current world).AsksOnce fun request => ∃ link,
        parentLink registry change (some root) current options.onDelete = .ok link ∧
        request = .execute channel
          ((memberDelete mapping e link.foreignKey link.subset).build dialect) := by
  rw [Task.execution_deleteMember]
  cases environment.cancelled world with
  | some reason => exact .inl ⟨rfl, rfl⟩
  | none =>
      cases hprepare : prepareDelete registry dialect (some root) current options.onDelete
          change with
      | error fault => exact .inl ⟨rfl, rfl⟩
      | ok write =>
          obtain ⟨link, hlink, rfl⟩ := (prepareDelete_eq_ok hstands).1 hprepare
          exact .inr ⟨_, rfl, link, hlink, rfl⟩

theorem updateMember_asksOnce (hstands : change.StandsIn registry root mapping e address)
    (hassigns : ∀ shown extra subset, (memberUpdate mapping shown extra subset).isEmpty = false)
    (world : ω) :
    ((Task.updateMember registry dialect channel snapshot options change).execution environment
      (some root) world).AsksOnce fun request => ∃ link shown extra,
        parentLink registry change snapshot (some root) options.onUpdate = .ok link ∧
        TakesForeignKey mapping e link.foreignKey shown extra ∧
        request = .execute channel
          ((memberUpdate mapping shown extra link.subset).build dialect) := by
  rw [Task.execution_updateMember]
  cases environment.cancelled world with
  | some reason => exact .inl ⟨rfl, rfl⟩
  | none =>
      cases hprepare : prepareUpdate registry dialect snapshot options.onUpdate change root with
      | error fault => exact .inl ⟨rfl, rfl⟩
      | ok prepared =>
          obtain ⟨linked, write?⟩ := prepared
          obtain ⟨link, shown, extra, hlink, htakes, _, rfl⟩ :=
            (prepareUpdate_eq_ok hstands).1 hprepare
          rw [hassigns, if_neg Bool.false_ne_true]
          exact .inr ⟨_, rfl, link, shown, extra, hlink, htakes, rfl⟩

end Turn

section Run

variable {ω : Type} {environment : Environment ω} {registry : Registry} {dialect : Dialect}
  {channel : Channel} {snapshot current : Option Entity} {options : PersistOptions}
  {filter : PropertyFilter} {changes : List Change} {before after : List Member}
  {world : ω}

section Present

variable {root : Entity} (htraversal : IsTraversal registry root after)
  (hbefore : (before.map Member.path).Nodup)
  (hdifference : IsDifference filter before after changes)
  {turn : Turn (Option Entity) ω Change}
  (hturn : turn ∈ writeTurns environment registry dialect channel changes snapshot options
    (some root) world)
  {member : Member} (hmember : member ∈ after) (hdescribes : turn.item.Describes .current member)

include htraversal hbefore hdifference hturn hmember hdescribes

/-- The turn of a present member asks what writing the member asks, wherever it stands in a
graph, and the graph of its moment still shows it as it was compared. -/
theorem presentTurn_asksOnce {asked : Entity → Entity → Request → Prop}
    (hasks : ∀ met e address, turn.item.StandsIn registry met member.mapping e address →
      ((Task.writeMember registry dialect channel snapshot options turn.item).execution
        environment (some met) turn.world).AsksOnce (asked met e)) :
    ∃ met e, turn.state = some met ∧ root.SameShape met ∧ e.label = member.entity.label ∧
      turn.execution.AsksOnce (asked met e) := by
  obtain ⟨i, hi⟩ := List.mem_iff_getElem?.1 hturn
  obtain ⟨_, _, hrun⟩ := Task.afterTurns_take hi
  obtain ⟨met, e, address, hmet, hshape, hstands, hlabel⟩ :=
    standsIn_of_turn htraversal hbefore hdifference hi hmember hdescribes
  refine ⟨met, e, hmet, hshape, hlabel, ?_⟩
  rw [hrun, hmet]
  exact hasks met e address hstands

/-- The turn of an added member sends its INSERT, with the foreign key that the graph gives at
that moment, unless it fails before. -/
theorem addedTurn_asksOnce (hadded : turn.item.state = .added) :
    ∃ met e, turn.state = some met ∧ root.SameShape met ∧ e.label = member.entity.label ∧
      turn.execution.AsksOnce fun request => ∃ link shown extra,
        parentLink registry turn.item snapshot (some met) true = .ok link ∧
        TakesForeignKey member.mapping e link.foreignKey shown extra ∧
        request = insertRequest channel member.mapping shown
          ((memberInsert member.mapping shown extra link.subset).build dialect) := by
  refine presentTurn_asksOnce htraversal hbefore hdifference hturn hmember hdescribes ?_
  intro met e address hstands
  rw [Task.writeMember, hadded]
  exact insertMember_asksOnce hstands turn.world

/-- The turn of a modified member sends its UPDATE, unless it fails before. -/
theorem modifiedTurn_asksOnce {old : Member} (hmodified : turn.item.state = .modified)
    (hdiffer : differences filter member.mapping old.entity member.entity ≠ []) :
    ∃ met e, turn.state = some met ∧ root.SameShape met ∧ e.label = member.entity.label ∧
      turn.execution.AsksOnce fun request => ∃ link shown extra,
        parentLink registry turn.item snapshot (some met) options.onUpdate = .ok link ∧
        TakesForeignKey member.mapping e link.foreignKey shown extra ∧
        request = .execute channel
          ((memberUpdate member.mapping shown extra link.subset).build dialect) := by
  refine presentTurn_asksOnce htraversal hbefore hdifference hturn hmember hdescribes ?_
  intro met e address hstands
  rw [Task.writeMember, hmodified]
  exact updateMember_asksOnce hstands (memberUpdate_isEmpty_of_differences hdiffer) turn.world

end Present

/-- Every turn of writing makes the request of its change, unless it fails before. -/
theorem writeTurn_asksOnce (hbefore : registry.members snapshot = .ok before)
    (hafter : registry.members current = .ok after)
    (hdifference : IsDifference filter before after changes)
    {turn : Turn (Option Entity) ω Change}
    (hturn : turn ∈ writeTurns environment registry dialect channel changes snapshot options
      current world) :
    turn.execution.AsksOnce (turn.item.Writes dialect channel before after) := by
  obtain ⟨i, hi⟩ := List.mem_iff_getElem?.1 hturn
  obtain ⟨hitem, _, hrun⟩ := Task.afterTurns_take hi
  rcases hdifference.scheduled_cases (List.mem_of_getElem? hitem) with
    ⟨hadded, member, hmember, hdescribes, _⟩ | ⟨hremoved, old, hold, hdescribes, hgone⟩ |
    ⟨hmodified, member, hmember, old, hold, hdescribes, hsame, hdiffer⟩
  case inl =>
    obtain ⟨root, rfl, htraversal⟩ := Registry.exists_traversal hafter hmember
    obtain ⟨_, e, _, _, hlabel, hasks⟩ := addedTurn_asksOnce htraversal
      (Registry.nodup_paths hbefore) hdifference hturn hmember hdescribes hadded
    refine hasks.imp_right ?_
    rintro ⟨_, hrequest, link, shown, extra, _, htakes, rfl⟩
    obtain ⟨shown', htakes', hshown⟩ := htakes.of_label hlabel
    refine ⟨_, hrequest, ?_⟩
    rw [insertRequest_of_label hshown, memberInsert_of_label hshown]
    exact .insert link.subset hadded hmember hdescribes htakes'
  case inr.inl =>
    cases snapshot with
    | none =>
        cases hbefore
        exact absurd hold List.not_mem_nil
    | some root =>
        obtain ⟨address, hstands⟩ := (traverse_isTraversal hbefore).standsIn hold hdescribes
        rw [hrun, Task.writeMember, hremoved]
        refine (deleteMember_asksOnce hstands turn.state turn.world).imp_right ?_
        rintro ⟨_, hrequest, link, _, rfl⟩
        obtain ⟨removed, hremovedMember, hremoves⟩ : ∃ member ∈ before,
            turn.item.Removes member := by
          rcases hdifference.mem_cases (mem_schedule.1 (List.mem_of_getElem? hitem)).1 with
            ⟨member, _, hclassifies⟩ | ⟨member, hmember, _, hremoves⟩
          · have hsides := hclassifies.side.symm.trans hdescribes.side
            cases hsides
          · exact ⟨member, hmember, hremoves⟩
        obtain rfl : removed = old := (traverse_isTraversal hbefore).eq_of_path_eq
          hremovedMember hold (hremoves.path.symm.trans hdescribes.path)
        exact ⟨_, hrequest, .delete link.foreignKey link.subset hold hremoves⟩
  case inr.inr =>
    obtain ⟨root, rfl, htraversal⟩ := Registry.exists_traversal hafter hmember
    obtain ⟨_, e, _, _, hlabel, hasks⟩ := modifiedTurn_asksOnce htraversal
      (Registry.nodup_paths hbefore) hdifference hturn hmember hdescribes hmodified hdiffer
    refine hasks.imp_right ?_
    rintro ⟨_, hrequest, link, shown, extra, _, htakes, rfl⟩
    obtain ⟨shown', htakes', hshown⟩ := htakes.of_label hlabel
    refine ⟨_, hrequest, ?_⟩
    rw [memberUpdate_of_label hshown]
    exact .update link.subset hmodified hmember hdescribes htakes'

/-- What a turn finds of a member that is added too: it was inserted in an earlier turn, and
the graph shows the key that the database assigned to it. -/
def FindsInserted (environment : Environment ω) (registry : Registry) (dialect : Dialect)
    (channel : Channel) (before after : List Member)
    (turns : List (Turn (Option Entity) ω Change)) (i : Nat) (met : Entity) (member : Member)
    (change : Change) : Prop :=
  ∃ (j : Nat) (earlier : Turn (Option Entity) ω Change) (request : Request) (shown : Entity),
    j < i ∧ turns[j]? = some earlier ∧ earlier.item = change ∧
    earlier.requests = [request] ∧ change.Writes dialect channel before after request ∧
    registry.resolve met member.path = .ok shown ∧
    ∀ statement, request = .insert channel statement → ∃ id later key,
      environment.answer (.insert channel statement) earlier.world = (.ok id, later) ∧
      member.mapping.generatedKey? = some key ∧
      key.field.type.read (.bigInt (Int64.ofInt id)) = .ok (shown.read key.field)

/-- A member that is added finds its container inserted, if that is added too. -/
theorem finds_container {root : Entity} (hbefore : registry.members snapshot = .ok before)
    (hafter : registry.members (some root) = .ok after)
    (hdifference : IsDifference filter before after changes) {i : Nat}
    {turn : Turn (Option Entity) ω Change}
    (hturn : (writeTurns environment registry dialect channel changes snapshot options
      (some root) world)[i]? = some turn) (hadded : turn.item.state = .added)
    {child parent : Member} (hchild : turn.item.Describes .current child)
    (hbelow : child.IsDirectlyBelow parent) (hparent : parent ∈ after) {change : Change}
    (hchange : change ∈ changes) (hdescribes : change.Describes .current parent)
    (hnew : change.state = .added) :
    ∃ met, turn.state = some met ∧ FindsInserted environment registry dialect channel before
      after (writeTurns environment registry dialect channel changes snapshot options
        (some root) world) i met parent change := by
  have hscheduled : change ∈ schedule changes := mem_schedule.2 ⟨hchange, by rw [hnew]; simp⟩
  have hdepth : change.depth < turn.item.depth := by
    rw [Change.depth, Change.depth, hdescribes.path, hchild.path]
    exact hbelow.depth_lt
  obtain ⟨j, earlier, issued, left, between, requests, hlt, hearlier, rfl, hexecution⟩ :=
    exists_earlier_turn hdifference hturn hscheduled
      (fun hsame => absurd (congrArg Change.depth hsame) (Nat.ne_of_gt hdepth))
      (not_mayPrecede_of_depth (hadded.trans hnew.symm) (by simpa [hadded] using hdepth))
  obtain ⟨_, _, link, shown, extra, settled, hsettled, _, hkept⟩ := isSettled_of_turn
    (traverse_isTraversal hafter) (Registry.nodup_paths hbefore) hdifference hearlier hparent
    hdescribes hnew hexecution
  obtain ⟨met, found, hmet, _, hfound, hlabel⟩ := hkept _ _ _
    (fun other hother => List.mem_of_mem_take hother)
    (Task.afterTurns_between hearlier hexecution hturn hlt)
  refine ⟨met, hmet, ?_⟩
  rcases writeTurn_asksOnce hbefore hafter hdifference (List.mem_of_getElem? hearlier) with
    ⟨_, hfails⟩ | ⟨request, hrequest, hwrites⟩
  · rw [hexecution] at hfails
    cases hfails
  refine ⟨j, earlier, request, found, hlt, hearlier, rfl, hrequest, hwrites, hfound, ?_⟩
  rintro statement rfl
  have hstores := hsettled.stores
  rw [Turn.requests, hrequest] at hstores
  cases hstores with
  | assigned hawaits hkey hanswer hread =>
      refine ⟨_, _, _, hanswer, hkey, ?_⟩
      rw [hread, Entity.read_of_label hlabel, Entity.read_write (FieldType.holds_of_read hread)]

/-- The statements of writing are the first of: an INSERT for each added member in ascending
depth, a DELETE for each removed member in descending depth, an UPDATE for each modified
member, ties in the order of the changes. -/
theorem persist_in_order (world : ω)
    (hcompare : registry.compare snapshot current filter = .ok changes)
    (hbefore : registry.members snapshot = .ok before)
    (hafter : registry.members current = .ok after) :
    let turns : List (Turn (Option Entity) ω Change) := writeTurns environment registry
      dialect channel changes snapshot options current world
    let requests := ((persist registry dialect channel changes snapshot options).execution
      environment current world).requests
    ∃ inserts deletes,
      IsStablySorted (· ≤ ·) Change.depth (changesIn changes .added) inserts ∧
      IsStablySorted (· ≥ ·) Change.depth (changesIn changes .removed) deletes ∧
      List.Forall₂ (Change.Writes dialect channel before after)
        ((inserts ++ (deletes ++ changesIn changes .modified)).take requests.length) requests ∧
      requests = turns.flatMap Turn.requests ∧
      turns.map Turn.item =
        (inserts ++ (deletes ++ changesIn changes .modified)).take turns.length ∧
      (∀ turn ∈ turns, turn.item.state ≠ .unmodified) ∧
      (∀ (i : Nat) turn, turns[i]? = some turn → turn.item.state = .added →
        ∀ child, turn.item.Describes .current child →
        ∀ parent ∈ after, child.IsDirectlyBelow parent →
        ∀ change ∈ changes, change.Describes .current parent → change.state = .added →
          ∃ met, turn.state = some met ∧ FindsInserted environment registry dialect channel
            before after turns i met parent change) ∧
      ∀ (i : Nat) turn, turns[i]? = some turn → ∀ parent, turn.item.Removes parent →
        ∀ child, child.IsDirectlyBelow parent → ∀ change ∈ changes, change.Removes child →
          ∃ (j : Nat) (earlier : Turn (Option Entity) ω Change) (request : Request), j < i ∧
            turns[j]? = some earlier ∧ earlier.item = change ∧
            earlier.requests = [request] ∧
            change.Writes dialect channel before after request := by
  intro turns requests
  obtain ⟨members, others, hmembers, hothers, hdifference⟩ := Registry.compare_eq_ok hcompare
  obtain rfl : before = members := Except.ok.inj (hbefore.symm.trans hmembers)
  obtain rfl : after = others := Except.ok.inj (hafter.symm.trans hothers)
  have hasks : ∀ turn ∈ turns,
      turn.execution.AsksOnce (turn.item.Writes dialect channel before after) :=
    fun turn hturn => writeTurn_asksOnce hbefore hafter hdifference hturn
  have hrequests : requests = turns.flatMap Turn.requests :=
    persist_requests changes current world
  refine ⟨_, _, byDepth_isStablySorted, byDepthDescending_isStablySorted, ?_, hrequests,
    Task.map_item_turns (schedule changes) current world, ?_, ?_, ?_⟩
  · rw [hrequests]
    exact Task.forall₂_requests hasks
  · intro turn hturn
    obtain ⟨i, hi⟩ := List.mem_iff_getElem?.1 hturn
    exact (mem_schedule.1 (List.mem_of_getElem? (Task.afterTurns_take hi).1)).2
  · intro i turn hturn hadded child hchild parent hparent hbelow change hchange hdescribes hnew
    cases current with
    | none =>
        cases hafter
        exact absurd hparent List.not_mem_nil
    | some root =>
        exact finds_container hbefore hafter hdifference hturn hadded hchild hbelow hparent
          hchange hdescribes hnew
  · intro i turn hturn parent hparent child hbelow change hchange hchild
    have hdepth : turn.item.depth < change.depth := by
      rw [Change.depth, Change.depth, hparent.path, hchild.path]
      exact hbelow.depth_lt
    obtain ⟨j, earlier, issued, left, between, asked, hlt, hearlier, rfl, hexecution⟩ :=
      exists_earlier_turn hdifference hturn
        (mem_schedule.2 ⟨hchange, by rw [hchild.removed]; simp⟩)
        (fun hsame => absurd (congrArg Change.depth hsame) (Nat.ne_of_lt hdepth))
        (not_mayPrecede_of_depth (hparent.removed.trans hchild.removed.symm)
          (by simpa [hparent.removed] using hdepth))
    rcases hasks earlier (List.mem_of_getElem? hearlier) with
      ⟨_, hfails⟩ | ⟨request, hrequest, hwrites⟩
    · rw [hexecution] at hfails
      cases hfails
    · exact ⟨j, earlier, request, hlt, hearlier, rfl, hrequest, hwrites⟩

end Run

/-- The first parcel is gone with its item, and there is a new parcel with a new item. -/
def Shipping.exchanged : Entity :=
  orderOf 1 [parcelOf 2 1 [], parcelOf 0 0 [itemOf 0 0]]

theorem exchanged_in_order :
    ∃ changes before after inserts deletes requests met container change,
      Shipping.registry.compare (some Shipping.packed) (some Shipping.exchanged)
        (fun _ _ => true) = .ok changes ∧
      Shipping.registry.members (some Shipping.packed) = .ok before ∧
      Shipping.registry.members (some Shipping.exchanged) = .ok after ∧
      ((persist Shipping.registry .postgres .transaction changes (some Shipping.packed)
        .standard).execution Script.environment (some Shipping.exchanged)
        Shipping.quiet).requests = requests ∧ requests.length = 4 ∧
      List.Forall₂ (Change.Writes .postgres .transaction before after)
        ((inserts ++ (deletes ++ changesIn changes .modified)).take 4) requests ∧
      after[2]? = some container ∧ changes[2]? = some change ∧
      FindsInserted Script.environment Shipping.registry .postgres .transaction before after
        (writeTurns Script.environment Shipping.registry .postgres .transaction changes
          (some Shipping.packed) .standard (some Shipping.exchanged) Shipping.quiet)
        1 met container change := by
  obtain ⟨inserts, deletes, _, _, hwrites, _, _, _, hcontainer, _⟩ :=
    @persist_in_order Script Script.environment Shipping.registry .postgres .transaction
      (some Shipping.packed) (some Shipping.exchanged) .standard (fun _ _ => true) _ _ _
      Shipping.quiet rfl rfl rfl
  obtain ⟨met, _, hfinds⟩ := hcontainer 1 _ rfl rfl _ ⟨rfl, rfl, rfl, rfl, rfl⟩ _
    (@List.mem_of_getElem? _ _ 2 _ rfl) ⟨⟨0, 0⟩, rfl⟩ _ (@List.mem_of_getElem? _ _ 2 _ rfl)
    ⟨rfl, rfl, rfl, rfl, rfl⟩ rfl
  exact ⟨_, _, _, inserts, deletes, _, met, _, _, rfl, rfl, rfl, rfl, rfl, hwrites, rfl, rfl,
    hfinds⟩

end AggregateSync
