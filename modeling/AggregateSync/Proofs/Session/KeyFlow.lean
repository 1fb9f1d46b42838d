import AggregateSync.Proofs.Database.Links
import AggregateSync.Proofs.Session.Inserts

/-!
# Keys that flow down a new aggregate

Without a snapshot every member is added, from the root down.  When a member has its turn
its parent has had its own: the key that the parent awaited has been assigned, whatever the
parent refers to has been filled in, and no later turn changes it.  So the value that a
member takes over is the one that its parent shows in the end.
-/

namespace AggregateSync

section KeyFlow

variable {ω : Type} {environment : Environment ω} {registry : Registry} {dialect : Dialect}
  {channel : Channel} {options : PersistOptions} {filter : PropertyFilter}
  {changes : List Change} {members : List Member} {root : Entity} {world later : ω}
  {final : Option Entity}

/-- Without a snapshot every member is added. -/
theorem IsDifference.exists_addition (hdifference : IsDifference filter [] members changes)
    {member : Member} (hmember : member ∈ members) :
    ∃ change ∈ schedule changes, change.Describes .current member ∧ change.state = .added := by
  obtain ⟨change, hchange, hclassifies⟩ := hdifference.exists_classifies hmember
  have hadded : change.state = .added :=
    hclassifies.added.2 fun old hold => absurd hold List.not_mem_nil
  exact ⟨change, mem_schedule.2 ⟨hchange, by rw [hadded]; simp⟩, hclassifies.toDescribes, hadded⟩

/-- The turn of a new member, and what the member shows in the end. -/
theorem exists_settling (htraversal : IsTraversal registry root members)
    (hdifference : IsDifference filter [] members changes)
    (hafter : Task.afterTurns environment
      (Task.writeMember registry dialect channel none options) (schedule changes)
        (some root) world = some (final, later))
    {member : Member} (hmember : member ∈ members) :
    ∃ (i : Nat) (turn : Turn (Option Entity) ω Change) (met e : Entity) (link : ParentLink)
        (shown : Entity) (extra : Option (String × Value)) (settled last found : Entity),
      (writeTurns environment registry dialect channel changes none options (some root)
        world)[i]? = some turn ∧
      turn.item.Describes .current member ∧ turn.item.state = .added ∧
      IsSettled environment registry dialect channel none turn member met e link shown extra
        settled ∧
      root.SameShape met ∧ final = some last ∧
      registry.resolve last member.path = .ok found ∧ found.label = settled.label := by
  obtain ⟨change, hchange, hdescribes, hadded⟩ := hdifference.exists_addition hmember
  obtain ⟨i, turn, _, _, _, issued, left, between, requests, hturn, rfl, _, _, _, _, hexecution,
    _⟩ := exists_turn htraversal (by simp) hdifference hafter hmember hchange hdescribes
  obtain ⟨met, e, link, shown, extra, settled, hsettled, hshape, hkept⟩ :=
    isSettled_of_turn htraversal (by simp) hdifference hturn hmember hdescribes hadded hexecution
  obtain ⟨last, found, hlast, _, hfound, hlabel⟩ := hkept _ _ _ (fun _ hother => hother)
    (Task.afterTurns_behind hturn hexecution hafter)
  exact ⟨i, turn, met, e, link, shown, extra, settled, last, found, hturn, hdescribes, hadded,
    hsettled, hshape, hlast, hfound, hlabel⟩

/-- A member that has its turn finds everything above it as the final graph shows it. -/
theorem shown_above (htraversal : IsTraversal registry root members)
    (hdifference : IsDifference filter [] members changes)
    (hafter : Task.afterTurns environment
      (Task.writeMember registry dialect channel none options) (schedule changes)
        (some root) world = some (final, later))
    {i : Nat} {turn : Turn (Option Entity) ω Change}
    (hturn : (writeTurns environment registry dialect channel changes none options
      (some root) world)[i]? = some turn) (hadded : turn.item.state = .added)
    {parent : Member} (hparent : parent ∈ members)
    (habove : parent.path.length < turn.item.path.length) :
    registry.shown turn.state parent = registry.shown final parent := by
  obtain ⟨change, hchange, hdescribes, hnew⟩ := hdifference.exists_addition hparent
  have hdepth : change.depth < turn.item.depth := by
    rw [Change.depth, Change.depth, hdescribes.path]
    exact habove
  obtain ⟨j, earlier, issued, left, between, requests, hlt, hearlier, rfl, hexecution⟩ :=
    exists_earlier_turn hdifference hturn hchange
      (fun hsame => absurd (congrArg Change.depth hsame) (Nat.ne_of_gt hdepth))
      (not_mayPrecede_of_depth (hadded.trans hnew.symm) (by simpa [hadded] using hdepth))
  obtain ⟨_, _, _, _, _, settled, _, _, hkept⟩ :=
    isSettled_of_turn htraversal (by simp) hdifference hearlier hparent hdescribes hnew hexecution
  obtain ⟨met, found, hmet, _, hfound, hlabel⟩ := hkept _ _ _
    (fun _ hother => List.mem_of_mem_take hother)
    (Task.afterTurns_between hearlier hexecution hturn hlt)
  obtain ⟨last, found', hlast, _, hfound', hlabel'⟩ := hkept _ _ _ (fun _ hother => hother)
    (Task.afterTurns_behind hearlier hexecution hafter)
  rw [hmet, hlast, Registry.shown_of_resolve hfound, Registry.shown_of_resolve hfound']
  funext field
  exact Entity.read_of_label (hlabel.trans hlabel'.symm) field

/-- A key that a member awaits when its row is stored is assigned, and the member shows it
from then on. -/
theorem StoresRow.key_of_awaits {mapping : ClassMapping} {shown settled : Entity}
    {statement : Statement} {requests : List Request} {key : Property}
    (hstores : StoresRow environment channel mapping shown statement world requests settled)
    (hkey : mapping.generatedKey? = some key)
    (hunsaved : (shown.read key.field).isUnsaved = true) :
    requests = [.insert channel statement] ∧ ∃ id later,
      environment.answer (.insert channel statement) world = (.ok id, later) ∧
      key.field.type.read (.bigInt (Int64.ofInt id)) = .ok (settled.read key.field) := by
  cases hstores with
  | @assigned found id later value hawaits hfound hanswer hread =>
      obtain rfl := Option.some.inj (hfound.symm.trans hkey)
      refine ⟨rfl, id, later, hanswer, ?_⟩
      rw [Entity.read_write (FieldType.holds_of_read hread)]
      exact hread
  | given hpresent =>
      have hgenerated : key.generated = true := List.find?_some hkey
      refine absurd ?_ (List.any_eq_false.1 hpresent key (List.mem_of_find?_eq_some hkey))
      rw [ClassMapping.awaits, hgenerated, hunsaved]
      rfl

/-- Storing its row leaves a member as it is except for the key that the database
assigns. -/
theorem StoresRow.read_eq {mapping : ClassMapping} {shown settled : Entity}
    {statement : Statement} {requests : List Request} {field : Field}
    (hstores : StoresRow environment channel mapping shown statement world requests settled)
    (hother : ∀ key, mapping.generatedKey? = some key → key.field ≠ field) :
    settled.read field = shown.read field := by
  cases hstores with
  | assigned _ hkey _ _ => exact Entity.read_write_of_ne (hother _ hkey).symm
  | given _ => rfl

namespace IsSettled

variable {turn : Turn (Option Entity) ω Change} {member : Member} {met e : Entity}
  {link : ParentLink} {shown : Entity} {extra : Option (String × Value)} {settled : Entity}

/-- Its turn gives a member the key that it awaits. -/
theorem key_of_unsaved
    (hsettled : IsSettled environment registry dialect channel none turn member met e link shown
      extra settled)
    (hlinks : member.LinksTo (registry.shown (some met)) members true link) {key : Property}
    (hkey : member.mapping.generatedKey? = some key)
    (hunsaved : (member.entity.read key.field).isUnsaved = true)
    (hapart : ∀ parent property referenced, member.Refers members parent property referenced →
      property.field ≠ key.field) :
    ∃ statement id after, turn.requests = [.insert channel statement] ∧
      environment.answer (.insert channel statement) turn.world = (.ok id, after) ∧
      key.field.type.read (.bigInt (Int64.ofInt id)) = .ok (settled.read key.field) := by
  have hunfilled : shown.read key.field = member.entity.read key.field := by
    rcases hlinks.read_eq_or hsettled.takes key.field with
      hsame | ⟨parent, property, referenced, hrefers, hfield, _⟩
    · rw [hsame, Entity.read_of_label hsettled.unwritten]
    · exact absurd hfield (hapart parent property referenced hrefers)
  rw [← hunfilled] at hunsaved
  obtain ⟨hinsert, id, after, hanswer, hread⟩ := hsettled.stores.key_of_awaits hkey hunsaved
  exact ⟨_, id, after, hinsert, hanswer, hread⟩

/-- Its turn gives a member, in the property of its foreign key, what the graph then shows of
its parent. -/
theorem property_of_holder
    (hsettled : IsSettled environment registry dialect channel none turn member met e link shown
      extra settled)
    (hlinks : member.LinksTo (registry.shown (some met)) members true link) {parent : Member}
    {relation : Relation} {foreignKey : ForeignKey} {name : String} {property : Property}
    (hholder : member.holder? members = some (parent, relation))
    (hforeignKey : relation.foreignKey? member.mapping.type = some foreignKey)
    (hname : foreignKey.property = some name)
    (hproperty : member.mapping.property? name = some property)
    (hapart : ∀ key, member.mapping.generatedKey? = some key → key.field ≠ property.field) :
    ∃ referenced, parent.mapping.property? foreignKey.referenced = some referenced ∧
      property.field.type.read (registry.shown (some met) parent referenced.field) =
        .ok (settled.read property.field) := by
  have htakes := hsettled.takes
  cases hlinks with
  | root hnone =>
      rw [hholder] at hnone
      cases hnone
  | held _ hpropagate => cases hpropagate
  | @given parent' relation' foreignKey' referenced hholder' _ hforeignKey' hreferenced =>
      rw [hholder] at hholder'
      cases hholder'
      obtain rfl := Option.some.inj (hforeignKey.symm.trans hforeignKey')
      obtain ⟨column, property?, name'⟩ := foreignKey
      obtain rfl : property? = some name := hname
      refine ⟨referenced, hreferenced, ?_⟩
      cases htakes with
      | property _ _ _ hfound hread =>
          obtain rfl := Option.some.inj (hfound.symm.trans hproperty)
          rw [hsettled.stores.read_eq hapart, Entity.read_write (FieldType.holds_of_read hread)]
          exact hread

end IsSettled

/-- In a synchronization without a snapshot, a key that a new member awaits becomes what its
own INSERT returned, and a property that carries a foreign key becomes what the parent
shows in the end, each converted to the type of the field. -/
theorem synchronize_assigns_keys {config : SyncConfig} {summary : ChangeSummary}
    {requests : List Request}
    (hmembers : registry.members (some root) = .ok members)
    (hok : (synchronize registry dialect config none).execution environment (some root) world =
      ⟨.ok summary, final, later, requests⟩) :
    ∃ changes begun last,
      registry.compare none (some root) config.filter = .ok changes ∧ final = some last ∧
      let turns : List (Turn (Option Entity) ω Change) := writeTurns environment registry
        dialect .transaction changes none config.persistOptions (some root) begun
      requests = .begin :: (turns.flatMap Turn.requests ++ [.commit]) ∧
      ∀ member ∈ members, ∃ e, registry.resolve last member.path = .ok e ∧
        (∀ key, member.mapping.generatedKey? = some key →
          (member.entity.read key.field).isUnsaved = true →
          (∀ parent property referenced, member.Refers members parent property referenced →
            property.field ≠ key.field) →
          ∃ turn ∈ turns, ∃ statement id after, turn.item.Describes .current member ∧
            turn.requests = [.insert .transaction statement] ∧
            environment.answer (.insert .transaction statement) turn.world =
              (.ok id, after) ∧
            key.field.type.read (.bigInt (Int64.ofInt id)) = .ok (e.read key.field)) ∧
        ∀ parent relation foreignKey name property,
          member.holder? members = some (parent, relation) →
          relation.foreignKey? member.mapping.type = some foreignKey →
          foreignKey.property = some name → member.mapping.property? name = some property →
          (∀ key, member.mapping.generatedKey? = some key → key.field ≠ property.field) →
          ∃ holder referenced, registry.resolve last parent.path = .ok holder ∧
            parent.mapping.property? foreignKey.referenced = some referenced ∧
            property.field.type.read (holder.read referenced.field) =
              .ok (e.read property.field) := by
  obtain ⟨changes, begun, finished, asked, counts, hcompare, _, hpersist, _, hrequests⟩ :=
    synchronize_eq_ok hok
  obtain ⟨others, found, hothers, hfound, hdifference⟩ := Registry.compare_eq_ok hcompare
  obtain rfl : others = [] := (Except.ok.inj hothers).symm
  obtain rfl : members = found := Except.ok.inj (hmembers.symm.trans hfound)
  have htraversal := traverse_isTraversal hmembers
  have hafter := afterTurns_of_persist hpersist
  obtain ⟨self, _, hself, _⟩ := htraversal.root
  obtain ⟨_, _, _, _, _, _, _, _, last, _, _, _, _, _, _, rfl, _⟩ := exists_settling htraversal
    hdifference hafter (hself ▸ List.mem_cons_self : self ∈ members)
  have hasked := @persist_requests ω environment registry dialect .transaction none
    config.persistOptions changes (some root) begun
  rw [hpersist] at hasked
  refine ⟨changes, begun, last, hcompare, rfl, ?_, ?_⟩
  · rw [hrequests]
    exact congrArg _ (congrArg (· ++ _) hasked)
  intro member hmember
  obtain ⟨i, turn, met, e, link, shown, extra, settled, _, found, hturn, hdescribes, hadded,
    hsettled, hshape, hlast, hresolve, hlabel⟩ := exists_settling htraversal hdifference hafter
      hmember
  cases hlast
  have hlinks := htraversal.linksTo hmember hdescribes rfl hshape hsettled.linked
  refine ⟨found, hresolve, ?_, ?_⟩
  · intro key hkey hunsaved hapart
    obtain ⟨statement, id, after, hinsert, hanswer, hread⟩ :=
      hsettled.key_of_unsaved hlinks hkey hunsaved hapart
    rw [← Entity.read_of_label hlabel] at hread
    exact ⟨turn, List.mem_of_getElem? hturn, statement, id, after, hdescribes, hinsert, hanswer,
      hread⟩
  · intro parent relation foreignKey name property hholder hforeignKey hname hproperty hapart
    obtain ⟨referenced, hreferenced, hread⟩ :=
      hsettled.property_of_holder hlinks hholder hforeignKey hname hproperty hapart
    have hparent := htraversal.mem_of_holder? hmember hholder
    have habove := htraversal.path_lt hmember hholder
    rw [← hdescribes.path] at habove
    have hkept := shown_above htraversal hdifference hafter hturn hadded hparent habove
    obtain ⟨_, _, _, _, _, _, _, _, _, holder, _, _, _, _, _, hlast, hholds, _⟩ :=
      exists_settling htraversal hdifference hafter hparent
    cases hlast
    rw [hsettled.state, Registry.shown_of_resolve hholds] at hkept
    rw [hkept, ← Entity.read_of_label hlabel] at hread
    exact ⟨holder, referenced, hholds, hreferenced, hread⟩

end KeyFlow

/-- A new order with a new parcel that holds a new item. -/
def Shipping.fresh : Entity := orderOf 0 [parcelOf 0 0 [itemOf 0 0]]

theorem fresh_assigns_keys :
    ∃ members parcel item last holder e statement world id later,
      Shipping.registry.members (some Shipping.fresh) = .ok members ∧
      members[1]? = some parcel ∧ members[2]? = some item ∧
      (∃ summary later requests,
        (synchronize Shipping.registry .postgres .standard none).execution Script.environment
          (some Shipping.fresh) Shipping.quiet = ⟨.ok summary, some last, later, requests⟩) ∧
      Shipping.registry.resolve last parcel.path = .ok holder ∧
      Shipping.registry.resolve last item.path = .ok e ∧
      Script.environment.answer (.insert .transaction statement) world = (.ok id, later) ∧
      Shipping.idField.type.read (.bigInt (Int64.ofInt id)) = .ok (e.read Shipping.idField) ∧
      Shipping.parentField.type.read (holder.read Shipping.idField) =
        .ok (e.read Shipping.parentField) := by
  obtain ⟨_, _, last, _, hlast, _, hassigned⟩ := @synchronize_assigns_keys Script
    Script.environment Shipping.registry .postgres _ Shipping.fresh Shipping.quiet _ _
    .standard _ _ rfl rfl
  cases hlast
  obtain ⟨e, hresolve, hkey, hforeignKey⟩ :=
    hassigned _ (@List.mem_of_getElem? _ _ 2 _ rfl)
  obtain ⟨turn, _, statement, id, later, _, _, hanswer, hread⟩ := hkey _ rfl rfl (by
    rintro _ _ _ ⟨hholder, hrefers, hname, hproperty, _⟩
    cases hholder
    cases hrefers
    cases hname
    cases hproperty
    decide)
  obtain ⟨holder, referenced, hholds, hreferenced, htaken⟩ := hforeignKey _ _ _ _ _ rfl rfl rfl
    rfl (by
      rintro key hgenerated
      cases hgenerated
      decide)
  cases hreferenced
  exact ⟨_, _, _, _, holder, e, statement, turn.world, id, later, rfl, rfl, rfl, ⟨_, _, _, rfl⟩,
    hholds, hresolve, hanswer, hread, htaken⟩

end AggregateSync
