import AggregateSync.Proofs.Session.Commit
import AggregateSync.Proofs.Session.Order

/-!
# What a run may have written

However a run ends, and wherever it was stopped, the current graph has the entities that it
had, each of its class and in its place.  A field that shows something else afterwards was
written in the turn of its member, and there are two such fields: the one that shows the
foreign key, and the key that the database assigned when it answered the member's own INSERT.
The snapshot is given to a run and is no part of its state, so nothing can write there.
-/

namespace AggregateSync

open Entity (Relabels)

/-- The field of a member that shows the foreign key which the relation to its parent gives to
its class. -/
def Member.ShowsForeignKey (members : List Member) (member : Member) (field : Field) : Prop :=
  ∃ parent ∈ members, ∃ segment relation foreignKey name property,
    member.path = parent.path ++ [segment] ∧
    parent.mapping.relations[segment.relation]? = some relation ∧
    relation.foreignKey? member.mapping.type = some foreignKey ∧
    foreignKey.property = some name ∧ member.mapping.property? name = some property ∧
    field = property.field

section Footprint

variable {ω : Type} (environment : Environment ω) (registry : Registry) (channel : Channel)
  (options : PersistOptions)

/-- Why a turn may have written a field of its member. -/
inductive Turn.MayWrite (members : List Member) (turn : Turn (Option Entity) ω Change)
    (member : Member) (field : Field) : Prop
  | linked (hstate : turn.item.state = .added) (hfield : member.ShowsForeignKey members field)
  | relinked (hstate : turn.item.state = .modified) (honUpdate : options.onUpdate = true)
      (hfield : member.ShowsForeignKey members field)
  | assigned {key : Property} {statement : Statement} {number : Int} {later : ω}
      (hstate : turn.item.state = .added)
      (hkey : member.mapping.generatedKey? = some key) (hfield : field = key.field)
      (hrequests : turn.requests = [.insert channel statement])
      (hanswer : environment.answer (.insert channel statement) turn.world =
        (.ok number, later))

/-- What the turns of a run, all or the first ones, leave of a graph: the same shape, every
field of a member as it was unless the turn of the member may have written it, and all else as
it was. -/
structure Preserves (members : List Member) (turns : List (Turn (Option Entity) ω Change))
    (root final : Entity) : Prop where
  shape : root.SameShape final
  fields : ∀ member ∈ members, ∀ place e, registry.addressOf? member.path root = some place →
    final.at? place = some e → ∀ field, e.read field ≠ member.entity.read field →
      ∃ turn ∈ turns, turn.item.Describes .current member ∧
        turn.MayWrite environment channel options members member field
  elsewhere : ∀ place, (∀ turn ∈ turns, turn.item.state ≠ .removed →
    registry.addressOf? turn.item.path root ≠ some place) →
      (final.at? place).map Entity.label = (root.at? place).map Entity.label

/-- What a run leaves of a graph that may be absent. -/
def Leaves (changes : List Change) (turns : List (Turn (Option Entity) ω Change)) :
    Option Entity → Option Entity → Prop
  | none, after => after = none
  | some root, after => ∃ final members, after = some final ∧
      registry.traverse root = .ok members ∧
      Preserves environment registry channel options members turns root final ∧
      ∀ change ∈ changes, change.state = .unmodified → ∀ place,
        registry.addressOf? change.path root = some place →
          (final.at? place).map Entity.label = (root.at? place).map Entity.label

end Footprint

/-! ## One turn -/

section Turn

variable {ω : Type} {environment : Environment ω} {registry : Registry} {dialect : Dialect}
  {channel : Channel} {snapshot : Option Entity} {options : PersistOptions}
  {members : List Member} {root met e : Entity} {member : Member} {change : Change}

/-- Only the foreign key is written with a foreign key, and only if it is propagated. -/
theorem showsForeignKey_of_takes (htraversal : IsTraversal registry root members)
    (hmember : member ∈ members) (hdescribes : change.Describes .current member)
    (hshape : root.SameShape met) {propagate : Bool} {link : ParentLink} {shown : Entity}
    {extra : Option (String × Value)}
    (hlink : parentLink registry change snapshot (some met) propagate = .ok link)
    (htakes : TakesForeignKey member.mapping e link.foreignKey shown extra) {field : Field}
    (hdiffers : shown.read field ≠ e.read field) :
    propagate = true ∧ member.ShowsForeignKey members field := by
  cases hforeignKey : link.foreignKey with
  | none =>
      rw [hforeignKey] at htakes
      cases htakes
      exact absurd rfl hdiffers
  | some foreignKey =>
      rw [hforeignKey] at htakes
      cases htakes with
      | column column value => exact absurd rfl hdiffers
      | @property column name value property shown hproperty hread =>
          have hfield : field = property.field := by
            by_contra hother
            exact hdiffers (Entity.read_write_of_ne hother)
          have hbelow : change.path ≠ [] := by
            intro hroot
            rw [parentLink_root hroot] at hlink
            cases hlink
            cases hforeignKey
          rw [hdescribes.path] at hbelow
          obtain ⟨parent, hparent, _, hchild⟩ := htraversal.exists_parent hmember hbelow
          obtain ⟨_, _, habove, _⟩ := hchild
          have hgraph : Side.current.graph snapshot (some met) = some met := rfl
          obtain ⟨segment, relation, holder, hpath, hrelation, _, hlinks⟩ :=
            htraversal.exists_parentLink hmember hparent ⟨_, habove⟩ hdescribes hgraph hshape
          obtain ⟨_, hgives⟩ := hlinks propagate link hlink
          cases propagate with
          | false =>
              rw [if_neg Bool.false_ne_true, hforeignKey] at hgives
              cases hgives
          | true =>
              rw [if_pos rfl, hforeignKey] at hgives
              obtain ⟨_, ⟨⟩, given, _, hgiven, _, _, _, hvalue⟩ := hgives
              obtain ⟨_, hname, _⟩ := ForeignKeyValue.mk.inj hvalue
              exact ⟨rfl, parent, hparent, segment, relation, given, name, property, hpath,
                hrelation, hgiven, hname.symm, hproperty, hfield⟩

/-- What a turn leaves of the graph that it met: at most the fields of its member that it may
write are others. -/
theorem turn_writes (htraversal : IsTraversal registry root members)
    {turn : Turn (Option Entity) ω Change} (hmet : turn.state = some met)
    (hshape : root.SameShape met)
    (hexecution : turn.execution = (Task.writeMember registry dialect channel snapshot options
      turn.item).execution environment turn.state turn.world)
    (hmember : member ∈ members) (hdescribes : turn.item.Describes .current member)
    {address : Address} (hstands : turn.item.StandsIn registry met member.mapping e address) :
    ∃ after e', turn.execution.state = some after ∧ Relabels address met after ∧
      after.at? address = some e' ∧ ∀ field, e'.read field ≠ e.read field →
        turn.MayWrite environment channel options members member field := by
  rw [hmet, Task.writeMember] at hexecution
  have hsame : turn.execution.state = some met →
      ∃ after e', turn.execution.state = some after ∧ Relabels address met after ∧
        after.at? address = some e' ∧ ∀ field, e'.read field ≠ e.read field →
          turn.MayWrite environment channel options members member field := by
    intro hstate
    exact ⟨met, e, hstate, .refl address met, hstands.at?,
      fun field hdiffers => absurd rfl hdiffers⟩
  cases hkind : turn.item.state with
  | unmodified =>
      rw [hkind] at hexecution
      exact hsame (congrArg Execution.state hexecution)
  | removed =>
      rw [hkind] at hexecution
      exact hsame ((congrArg Execution.state hexecution).trans (deleteMember_state _ _))
  | modified =>
      rw [hkind] at hexecution
      rcases updateMember_leaves hstands turn.world with
        hstate | ⟨link, shown, extra, hlink, htakes, hstate⟩
      · exact hsame ((congrArg Execution.state hexecution).trans hstate)
      · refine ⟨_, shown, (congrArg Execution.state hexecution).trans hstate,
          hstands.relabels_putAt htakes, Entity.at?_putAt_self shown hstands.at?, ?_⟩
        intro field hdiffers
        obtain ⟨honUpdate, hfield⟩ := showsForeignKey_of_takes htraversal hmember hdescribes
          hshape hlink htakes hdiffers
        exact .relinked hkind honUpdate hfield
  | added =>
      rw [hkind] at hexecution
      have hleaves := @insertMember_leaves ω environment registry dialect channel snapshot
        turn.item met e member.mapping address hstands turn.world
      dsimp only at hexecution
      rw [← hexecution] at hleaves
      cases hleaves with
      | unchanged hstate => exact hsame hstate
      | linked hlink htakes hstate =>
          refine ⟨_, _, hstate, hstands.relabels_putAt htakes,
            Entity.at?_putAt_self _ hstands.at?, ?_⟩
          intro field hdiffers
          exact .linked hkind (showsForeignKey_of_takes htraversal hmember hdescribes hshape
            hlink htakes hdiffers).2
      | @assigned link shown saved extra statement number later hlink htakes hrequests hanswer
          hsaved hstate =>
          have hlinked := hstands.putAt htakes.type_eq htakes.members_eq
          have hrelabels : Relabels address met saved :=
            (hstands.relabels_putAt htakes).trans (writeBack_relabels hlinked hsaved)
          obtain ⟨e', hat, hwritten⟩ := writeBack_writes hlinked hsaved
          refine ⟨_, e', hstate, hrelabels, hat, ?_⟩
          intro field hdiffers
          by_cases hkept : e'.read field = shown.read field
          case pos =>
            rw [hkept] at hdiffers
            exact .linked hkind (showsForeignKey_of_takes htraversal hmember hdescribes hshape
              hlink htakes hdiffers).2
          case neg =>
            obtain ⟨key, hkey, hfield⟩ := hwritten field hkept
            exact .assigned hkind hkey hfield hrequests hanswer

end Turn

/-! ## The run -/

section Run

variable {ω : Type} {environment : Environment ω} {registry : Registry} {dialect : Dialect}
  {channel : Channel} {snapshot current : Option Entity} {options : PersistOptions}
  {filter : PropertyFilter} {changes : List Change} {before members : List Member}
  {turns : List (Turn (Option Entity) ω Change)} {root met : Entity}

theorem IsTraversal.at?_of_address (htraversal : IsTraversal registry root members)
    {member : Member} (hmember : member ∈ members) {place : Address}
    (hplace : registry.addressOf? member.path root = some place) :
    root.at? place = some member.entity := by
  obtain ⟨address, haddress, hat⟩ :=
    Registry.addressOf?_of_descend (htraversal.resolve hmember)
  obtain rfl := Option.some.inj (hplace.symm.trans haddress)
  exact hat

/-- Where no turn has been taken, nothing was written. -/
theorem Preserves.refl (htraversal : IsTraversal registry root members) :
    Preserves environment registry channel options members turns root root := by
  refine ⟨.refl root, ?_, fun _ _ => rfl⟩
  intro member hmember place e hplace he field hdiffers
  rw [htraversal.at?_of_address hmember hplace] at he
  cases he
  exact absurd rfl hdiffers

/-- A turn that writes one member at most keeps what the turns before it kept. -/
theorem Preserves.step (htraversal : IsTraversal registry root members)
    (hpreserves : Preserves environment registry channel options members turns root met)
    {turn : Turn (Option Entity) ω Change} (hturn : turn ∈ turns)
    (hstate : turn.item.state ≠ .removed) {member : Member} (hmember : member ∈ members)
    (hdescribes : turn.item.Describes .current member) {address : Address}
    (haddress : registry.addressOf? member.path root = some address) {e e' after : Entity}
    (he : met.at? address = some e) (hrelabels : Relabels address met after)
    (he' : after.at? address = some e')
    (hwrites : ∀ field, e'.read field ≠ e.read field →
      turn.MayWrite environment channel options members member field) :
    Preserves environment registry channel options members turns root after := by
  refine ⟨hpreserves.shape.trans hrelabels.shape, ?_, ?_⟩
  · intro other hother place found hplace hfound field hdiffers
    by_cases hhere : place = address
    case pos =>
      subst hhere
      obtain rfl := htraversal.eq_of_address_eq hmember hother (haddress.trans hplace.symm)
      obtain rfl : e' = found := Option.some.inj (he'.symm.trans hfound)
      by_cases hwritten : e'.read field = e.read field
      case pos =>
        rw [hwritten] at hdiffers
        exact hpreserves.fields member hmember place e haddress he field hdiffers
      case neg => exact ⟨turn, hturn, hdescribes, hwrites field hwritten⟩
    case neg =>
      have hsame := hrelabels.elsewhere place hhere
      rw [hfound, Option.map_some, eq_comm, Option.map_eq_some_iff] at hsame
      obtain ⟨earlier, hearlier, hlabel⟩ := hsame
      rw [← Entity.read_of_label hlabel] at hdiffers
      exact hpreserves.fields other hother place earlier hplace hearlier field hdiffers
  · intro place hplace
    have hother : place ≠ address := by
      rintro rfl
      apply hplace turn hturn hstate
      rw [hdescribes.path, haddress]
    rw [hrelabels.elsewhere place hother, hpreserves.elsewhere place hplace]

/-- Writing the difference of two graphs, whichever way it ends, writes what it may. -/
theorem persist_preserves (htraversal : IsTraversal registry root members)
    (hdifference : IsDifference filter before members changes) (world : ω) :
    ∃ final, ((persist registry dialect channel changes snapshot options).execution environment
        (some root) world).state = some final ∧
      Preserves environment registry channel options members
        (writeTurns environment registry dialect channel changes snapshot options (some root)
          world) root final := by
  let turns : List (Turn (Option Entity) ω Change) := writeTurns environment registry dialect
    channel changes snapshot options (some root) world
  apply state_persist (P := fun state => ∃ final, state = some final ∧
    Preserves environment registry channel options members turns root final)
  case hstart => exact ⟨root, rfl, .refl htraversal⟩
  rintro turn hturn ⟨met, hmet, hpreserves⟩
  obtain ⟨i, hi⟩ := List.mem_iff_getElem?.1 hturn
  obtain ⟨hitem, _, hexecution⟩ := Task.afterTurns_take hi
  by_cases hstate : turn.item.state = .removed
  case pos =>
    rw [Task.writeMember, hstate] at hexecution
    refine ⟨met, ?_, hpreserves⟩
    rw [hexecution, ← hmet]
    exact deleteMember_state _ _
  case neg =>
    obtain ⟨member, hmember, hdescribes⟩ :=
      exists_member_of_schedule hdifference (List.mem_of_getElem? hitem) hstate
    obtain ⟨address, hroot⟩ := htraversal.standsIn hmember hdescribes
    obtain ⟨e, hstands, _⟩ := hroot.of_sameShape hpreserves.shape
    obtain ⟨after, e', hafter, hrelabels, he', hwrites⟩ := turn_writes htraversal hmet
      hpreserves.shape hexecution hmember hdescribes hstands
    refine ⟨after, hafter, hpreserves.step htraversal hturn hstate hmember hdescribes ?_
      hstands.at? hrelabels he' hwrites⟩
    rw [← hdescribes.path, hroot.address]

/-- No turn writes where an unmodified member stands. -/
theorem Preserves.unmodified (htraversal : IsTraversal registry root members)
    (hbefore : (before.map Member.path).Nodup)
    (hdifference : IsDifference filter before members changes) {final : Entity}
    (hpreserves : Preserves environment registry channel options members turns root final)
    (hturns : ∀ turn ∈ turns, turn.item ∈ schedule changes) {change : Change}
    (hchange : change ∈ changes) (hunmodified : change.state = .unmodified) {place : Address}
    (hplace : registry.addressOf? change.path root = some place) :
    (final.at? place).map Entity.label = (root.at? place).map Entity.label := by
  obtain ⟨member, hmember, hdescribes⟩ : ∃ member ∈ members, change.Describes .current member := by
    rcases hdifference.mem_cases hchange with
      ⟨member, hmember, hclassifies⟩ | ⟨member, _, _, hremoves⟩
    · exact ⟨member, hmember, hclassifies.toDescribes⟩
    · rw [hremoves.removed] at hunmodified
      cases hunmodified
  apply hpreserves.elsewhere
  intro turn hturn hstate hsame
  have hitem := hturns turn hturn
  obtain ⟨other, hother, hdescribes'⟩ := exists_member_of_schedule hdifference hitem hstate
  obtain rfl : member = other := by
    apply htraversal.eq_of_address_eq hmember hother
    rw [← hdescribes.path, ← hdescribes'.path, hplace, hsame]
  obtain ⟨hlisted, hwritten⟩ := mem_schedule.1 hitem
  have hchanges : turn.item = change := by
    apply List.inj_on_of_nodup_map (hdifference.nodup_places hbefore htraversal.distinct)
      hlisted hchange
    rw [hdescribes'.side, hdescribes.side, hdescribes'.path, hdescribes.path]
  rw [hchanges] at hwritten
  exact hwritten hunmodified

/-- Writing what a comparison found leaves of the current graph what it may. -/
theorem persist_leaves (hcompare : registry.compare snapshot current filter = .ok changes)
    (world : ω) :
    Leaves environment registry channel options changes
      (writeTurns environment registry dialect channel changes snapshot options current world)
      current ((persist registry dialect channel changes snapshot options).execution environment
        current world).state := by
  obtain ⟨before, members, hbefore, hmembers, hdifference⟩ := Registry.compare_eq_ok hcompare
  have hturns : ∀ turn ∈ writeTurns environment registry dialect channel changes snapshot options
      current world, turn.item ∈ schedule changes ∧ turn.execution =
        (Task.writeMember registry dialect channel snapshot options turn.item).execution
          environment turn.state turn.world := by
    intro turn hturn
    obtain ⟨i, hi⟩ := List.mem_iff_getElem?.1 hturn
    obtain ⟨hitem, _, hexecution⟩ := Task.afterTurns_take hi
    exact ⟨List.mem_of_getElem? hitem, hexecution⟩
  cases current with
  | none =>
      cases hmembers
      apply state_persist (P := fun state => state = none) rfl
      intro turn hturn hnone
      obtain ⟨hitem, hexecution⟩ := hturns turn hturn
      -- where there is no current graph, all that can be written are removals
      have hremoved : turn.item.state = .removed := by
        by_contra hstate
        obtain ⟨_, hmember, _⟩ := exists_member_of_schedule hdifference hitem hstate
        exact List.not_mem_nil hmember
      rw [Task.writeMember, hremoved] at hexecution
      rw [hexecution, ← hnone]
      exact deleteMember_state _ _
  | some root =>
      have htraversal := traverse_isTraversal hmembers
      obtain ⟨final, hfinal, hpreserves⟩ := persist_preserves htraversal hdifference world
      refine ⟨final, members, hfinal, hmembers, hpreserves, ?_⟩
      intro change hchange hunmodified place hplace
      exact hpreserves.unmodified htraversal (Registry.nodup_paths hbefore) hdifference
        (fun turn hturn => (hturns turn hturn).1) hchange hunmodified hplace

/-- What is done with a result leaves the state as it is. -/
theorem state_andThen_ok {σ α β : Type} (run : Execution σ ω α) (summarize : α → β) :
    (run.andThen fun a after later => ⟨.ok (summarize a), after, later, []⟩).state =
      run.state := by
  obtain ⟨outcome, state, world, requests⟩ := run
  cases outcome <;> rfl

/-- A synchronization leaves of the current graph what its writing leaves, and all of it
unless it came to writing. -/
theorem synchronize_leaves (config : SyncConfig) (world : ω) :
    let run := (synchronize registry dialect config snapshot).execution environment current world
    match registry.compare snapshot current config.filter, environment.answer .begin world with
    | .ok changes, (.ok (), begun) =>
      Leaves environment registry .transaction config.persistOptions changes
        (writeTurns environment registry dialect .transaction changes snapshot
          config.persistOptions current begun) current run.state
    | _, _ => run.state = current := by
  intro run
  have hrun : run = _ := execution_synchronize environment registry dialect config snapshot
    current world
  cases hcompare : registry.compare snapshot current config.filter with
  | error e =>
      rw [hcompare] at hrun
      exact congrArg Execution.state hrun
  | ok changes =>
      rw [hcompare] at hrun
      replace hrun : run = Execution.andThen _ _ := hrun
      rw [Task.execution_inTransaction] at hrun
      cases hbegin : environment.answer .begin world with
      | mk answer begun =>
          rw [hbegin] at hrun
          cases answer with
          | ok =>
              replace hrun : run = Execution.andThen (Task.ending environment _) _ := hrun
              rw [hrun, state_andThen_ok, Task.state_ending]
              exact persist_leaves hcompare begun
          | _ => exact congrArg Execution.state hrun

end Run

/-- However a run ends, whether it succeeds, fails, is cancelled or panics at any statement: in
the current graph every entity is in its place and of its class, and a field of a member that
shows something else was written in the turn of that member, the foreign key if the member is
added, or modified while updates propagate, and the generated key if the member is added and
its own INSERT was answered with a number.  What belongs to unmodified members, or to no member
that was written, is as it was. -/
theorem run_stays_in_footprint (registry : Registry) (snapshot current : Option Entity)
    {ω : Type} (environment : Environment ω) (dialect : Dialect) (world : ω) :
    (∀ filter changes channel options,
      registry.compare snapshot current filter = .ok changes →
        Leaves environment registry channel options changes
          (writeTurns environment registry dialect channel changes snapshot options current world)
          current
          ((persist registry dialect channel changes snapshot options).execution environment
            current world).state) ∧
    ∀ config : SyncConfig,
      let run := (synchronize registry dialect config snapshot).execution environment current
        world
      match registry.compare snapshot current config.filter, environment.answer .begin world with
      | .ok changes, (.ok (), begun) =>
        Leaves environment registry .transaction config.persistOptions changes
          (writeTurns environment registry dialect .transaction changes snapshot
            config.persistOptions current begun) current run.state
      | _, _ => run.state = current :=
  ⟨fun _ _ _ _ hcompare => persist_leaves hcompare world,
    fun config => synchronize_leaves config world⟩

/-- The run stops at the INSERT of the item: the new parcel has its key and the key of the
order, and the item has that of the parcel and none of its own. -/
theorem halted_stays_in_footprint :
    ∃ changes, Shipping.registry.compare (some Shipping.packed) (some Shipping.exchanged)
        (fun _ _ => true) = .ok changes ∧
      let run := (persist Shipping.registry .postgres .connection changes (some Shipping.packed)
        .standard).execution Script.environment (some Shipping.exchanged) Shipping.refusing
      run.succeeds = false ∧
      run.state = some (Shipping.orderOf 1 [Shipping.parcelOf 2 1 [],
        Shipping.parcelOf 101 1 [Shipping.itemOf 0 101]]) ∧
      Leaves Script.environment Shipping.registry .connection .standard changes
        (writeTurns Script.environment Shipping.registry .postgres .connection changes
          (some Shipping.packed) .standard (some Shipping.exchanged) Shipping.refusing)
        (some Shipping.exchanged) run.state := by
  refine ⟨_, rfl, rfl, rfl, ?_⟩
  exact (run_stays_in_footprint Shipping.registry (some Shipping.packed)
    (some Shipping.exchanged) Script.environment .postgres Shipping.refusing).1
      (fun _ _ => true) _ .connection .standard rfl

end AggregateSync
