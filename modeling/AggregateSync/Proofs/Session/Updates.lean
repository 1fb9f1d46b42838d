import AggregateSync.Proofs.Database.Commands
import AggregateSync.Proofs.Graph.Identity
import AggregateSync.Proofs.Session.Run

/-!
# The foreign key of updated members

Members are compared by their own properties, so a member that only hangs somewhere else
is not written.  A member that is written refers to its present parent: its UPDATE takes
the foreign key from the parent as the final graph shows it, and is addressed by the key
and by the constant of the present relation.  The row of a member that came from a relation
with another constant is therefore not found.
-/

namespace AggregateSync

/-- The foreign key is no part of the key of a class. -/
def ForeignKey.IsApart (foreignKey : ForeignKey) (mapping : ClassMapping) : Prop :=
  ∀ name property, foreignKey.property = some name → mapping.property? name = some property →
    ∀ key ∈ mapping.keys, key.field ≠ property.field

/-- The row of a member of the snapshot in a database: it is found by the key of the member, and
it holds the constant of the relation that held the member there. -/
structure Member.IsStoredAs (engine : Engine) (old : Member) (held : Option SubsetColumn)
    (record : Record) : Prop where
  table : record.table = old.mapping.table
  keys : ∀ key ∈ old.mapping.keys, ∀ sought,
    (old.entity.read key.field).keyEqual sought = true →
      engine.compare .eq (record.cell key.column) sought = .yes
  constant : ∀ constant ∈ held, record.cell constant.column = constant.value.keyForm

/-- The UPDATE of a member under a relation, with the value that the parent gives: what the
member shows with this value, what is assigned to the foreign key, and which rows are changed.
The row that the member had in the snapshot is one of them exactly if it holds the constant of
the present relation.  After a move to a relation with another constant in the same column it is
not, and the UPDATE is lost. -/
structure Relocates (member old : Member) (relation : Relation) (foreignKey : ForeignKey)
    (value : Value) (shown : Entity) (update : Update) : Prop where
  table : update.table = member.mapping.table
  column : foreignKey.property = none → update.assignments.lookup foreignKey.column = some value
  property : ∀ name property, foreignKey.property = some name →
    member.mapping.property? name = some property →
    property ∈ member.mapping.writableProperties →
    (member.mapping.writableProperties.map Property.column).Nodup →
    ∃ shown, property.field.type.read value = .ok shown ∧
      update.assignments.lookup property.column = some shown
  assigned : update.assignments.lookup foreignKey.column =
    (⟨foreignKey.column, foreignKey.property, value⟩ : ForeignKeyValue).written? shown
      member.mapping.writableProperties
  converted : ∀ name, foreignKey.property = some name → ∃ property,
    member.mapping.property? name = some property ∧
      property.field.type.read value = .ok (shown.read property.field)
  kept : ∀ field, (∀ name property, foreignKey.property = some name →
    member.mapping.property? name = some property → property.field ≠ field) →
      shown.read field = member.entity.read field
  filter : update.filter = Expr.columnsAre?
    (ClassMapping.entries shown member.mapping.keys ++
      (relation.subset.map SubsetColumn.entry).toList)
  found : foreignKey.IsApart member.mapping → ∀ engine held record,
    old.IsStoredAs engine held record →
      (engine.selects update.table update.filter record = true ↔
        ∀ constant ∈ relation.subset, engine.compare .eq
          (((constantAt? held constant.column).map Value.keyForm).getD
            (record.cell constant.column)) constant.value = .yes)

/-- What the row of a member of the snapshot holds where a constant is stored. -/
theorem Member.IsStoredAs.cell_eq {engine : Engine} {old : Member} {held : Option SubsetColumn}
    {record : Record} (hstored : old.IsStoredAs engine held record) (column : String) :
    ((constantAt? held column).map Value.keyForm).getD (record.cell column) =
      record.cell column := by
  cases held with
  | none => rfl
  | some constant =>
      rw [constantAt?, Option.filter_some]
      by_cases hcolumn : constant.column = column
      · subst hcolumn
        rw [if_pos (decide_eq_true rfl), hstored.constant constant rfl]
        rfl
      · rw [if_neg (mt of_decide_eq_true hcolumn)]
        rfl

/-- What a column is assigned by the UPDATE of a member. -/
theorem lookup_memberUpdate (mapping : ClassMapping) (shown : Entity)
    (extra : Option (String × Value)) (subset : Option SubsetColumn) (column : String) :
    (memberUpdate mapping shown extra subset).assignments.lookup column =
      (extra.toList.lookup column).or
        (ClassMapping.lastShown? shown mapping.writableProperties column) := by
  rw [memberUpdate, lookup_assignAll, List.reverse_append, List.lookup_append,
    ClassMapping.lastShown?]
  cases extra <;> rfl

/-- An UPDATE that compares the keys of the snapshot finds the row exactly if that holds the
constant which the UPDATE compares too. -/
theorem Member.IsStoredAs.selects_iff {engine : Engine} {old : Member}
    {held : Option SubsetColumn} {record : Record} (hstored : old.IsStoredAs engine held record)
    {shown : Entity} (hkeys : ∀ key ∈ old.mapping.keys,
      (old.entity.read key.field).keyEqual (shown.read key.field) = true)
    (subset : Option SubsetColumn) :
    engine.selects old.mapping.table
        (Expr.columnsAre? (ClassMapping.entries shown old.mapping.keys ++
          (subset.map SubsetColumn.entry).toList)) record = true ↔
      ∀ constant ∈ subset,
        engine.compare .eq (record.cell constant.column) constant.value = .yes := by
  rw [Engine.selects_columnsAre?, List.forall_mem_append]
  constructor
  · rintro ⟨_, _, hconstants⟩ constant hconstant
    exact hconstants constant.entry (by simp [Option.mem_def.1 hconstant])
  · intro hconstants
    refine ⟨hstored.table, ?_, ?_⟩
    · intro entry hentry
      obtain ⟨key, hkey, rfl⟩ := List.mem_map.1 hentry
      exact hstored.keys key hkey _ (hkeys key hkey)
    · intro entry hentry
      obtain ⟨constant, hconstant, rfl⟩ :=
        Option.map_eq_some_iff.1 (Option.mem_toList.1 hentry)
      exact hconstants constant hconstant

/-- The UPDATE of a member with its foreign key relocates it. -/
theorem relocates_memberUpdate {registry : Registry} {member old : Member}
    (hsame : member.SameIdentity old) (hmember : member.IsKnown registry)
    (hold : old.IsKnown registry) {foreignKey : ForeignKey} {value : Value} {shown : Entity}
    {extra : Option (String × Value)}
    (htakes : TakesForeignKey member.mapping member.entity
      (some ⟨foreignKey.column, foreignKey.property, value⟩) shown extra)
    (relation : Relation) :
    Relocates member old relation foreignKey value shown
      (memberUpdate member.mapping shown extra relation.subset) := by
  have hassigned : (memberUpdate member.mapping shown extra
      relation.subset).assignments.lookup foreignKey.column =
        (⟨foreignKey.column, foreignKey.property, value⟩ : ForeignKeyValue).written? shown
          member.mapping.writableProperties := by
    rw [lookup_memberUpdate]
    exact htakes.lookup_eq_written _
  constructor
  case table => rfl
  case assigned => exact hassigned
  case converted =>
    intro name hname
    exact (htakes.exists_shows hname).2
  case kept => exact fun _ => htakes.read_eq
  case filter => rfl
  case column =>
    intro hcolumn
    rw [hassigned, ForeignKeyValue.written?, hcolumn, Option.isNone_none, if_pos rfl]
  case property =>
    intro name property hname hproperty hwritable hcolumns
    obtain ⟨rfl, found, hfound, hread⟩ := htakes.exists_shows hname
    obtain rfl := Option.some.inj (hproperty.symm.trans hfound)
    refine ⟨_, hread, ?_⟩
    rw [lookup_memberUpdate, ClassMapping.lastShown?_eq_some hwritable]
    · rfl
    · intro other hother hcolumn
      rw [List.inj_on_of_nodup_map hcolumns hother hwritable hcolumn]
  case found =>
    intro hapart engine held record hstored
    have hmapping := hsame.mapping_eq hmember hold
    have hkeys : ∀ key ∈ old.mapping.keys,
        (old.entity.read key.field).keyEqual (shown.read key.field) = true := by
      intro key hkey
      rw [hmapping] at hkey
      rw [htakes.read_eq fun _ _ hname hproperty hfield =>
        hapart _ _ hname hproperty key hkey hfield.symm]
      exact hsame.keyEqual hmember hold key hkey
    have hselects := hstored.selects_iff hkeys relation.subset
    rw [hmapping] at hselects
    refine hselects.trans (forall₂_congr fun constant _ => ?_)
    rw [hstored.cell_eq]

section Synchronize

variable {ω : Type} {environment : Environment ω} {registry : Registry} {dialect : Dialect}
  {config : SyncConfig} {snapshot current : Option Entity} {world later : ω}
  {summary : ChangeSummary} {final : Option Entity} {requests : List Request}
  {before after : List Member}

/-- The turn of a member whose compared properties differ relocates it under its present
parent, as the final graph shows it. -/
theorem exists_relocation {channel : Channel} {options : PersistOptions}
    {filter : PropertyFilter} {changes : List Change} {root : Entity}
    (hpropagate : options.onUpdate = true)
    (htraversal : IsTraversal registry root after)
    (hbefore : registry.members snapshot = .ok before)
    (hdifference : IsDifference filter before after changes)
    (hafter : Task.afterTurns environment
      (Task.writeMember registry dialect channel snapshot options) (schedule changes)
        (some root) world = some (final, later))
    {member old parent : Member} (hmember : member ∈ after) (hold : old ∈ before)
    (hsame : member.SameIdentity old)
    (hdiffer : differences filter member.mapping old.entity member.entity ≠ [])
    (hparent : parent ∈ after) (hbelow : member.IsDirectlyBelow parent) :
    ∃ turn ∈ writeTurns environment registry dialect channel changes snapshot options
        (some root) world,
      ∃ segment relation foreignKey referenced last holder shown update,
        turn.item.Describes .current member ∧ member.path = parent.path ++ [segment] ∧
        parent.mapping.relations[segment.relation]? = some relation ∧
        relation.foreignKey? member.mapping.type = some foreignKey ∧
        parent.mapping.property? foreignKey.referenced = some referenced ∧
        final = some last ∧ registry.resolve last parent.path = .ok holder ∧
        turn.requests = [.execute channel (update.build dialect)] ∧
        Relocates member old relation foreignKey (holder.read referenced.field) shown
          update := by
  obtain ⟨change, hchange, hdescribes, hmodified⟩ :=
    hdifference.exists_modification hmember hold hsame hdiffer
  obtain ⟨i, turn, met, e, address, issued, left, between, requests, hturn, hitem, hmet, hshape,
    hstands, hlabel, hexecution, hrun⟩ := exists_turn htraversal
      (Registry.nodup_paths hbefore) hdifference hafter hmember hchange hdescribes
  rw [Task.writeMember, hmodified] at hrun
  obtain ⟨link, shown, extra, hlink, htakes, _, _, hsent⟩ := updateMember_eq_ok hstands hrun
  rw [hpropagate] at hlink
  -- the parent, as the turn met it
  obtain ⟨segment, relation, before', hpath, hindex, hresolve, hfinds⟩ :=
    htraversal.exists_parentLink hmember hparent hbelow hdescribes
      (rfl : Side.current.graph snapshot (some met) = some met) hshape
  obtain ⟨hsubset, value, hvalue, foreignKey, referenced, hforeignKey, hreferenced, _, _, rfl⟩ :=
    hfinds _ _ hlink
  -- the parent, as the final graph shows it
  have habove : parent.path.length < turn.item.depth := by
    rw [hitem, Change.depth, hdescribes.path, hpath, List.length_append]
    exact Nat.lt_succ_self _
  obtain ⟨last, holder, hlast, hholder, hread⟩ := read_above_modified htraversal hdifference
    hafter hturn (by rw [hitem, hmodified]) hmet hshape hresolve habove
  rw [hvalue, hread] at htakes
  obtain ⟨shown', htakes', hshown⟩ := htakes.of_label hlabel
  rw [hsubset, memberUpdate_of_label hshown,
    memberUpdate_isEmpty_of_differences hdiffer, if_neg Bool.false_ne_true] at hsent
  refine ⟨turn, List.mem_of_getElem? hturn, segment, relation, foreignKey, referenced, last,
    holder, shown', _, ?_, hpath, hindex, hforeignKey, hreferenced, hlast, hholder, ?_,
    relocates_memberUpdate hsame (htraversal.known member hmember)
      (Registry.members_isKnown hbefore old hold) htakes' relation⟩
  · rw [hitem]
    exact hdescribes
  · rw [Turn.requests, hexecution]
    exact hsent.1

/-- A member of both graphs is written in a synchronization exactly if its compared
properties differ, and its UPDATE takes the foreign key from its present parent. -/
theorem synchronize_relocates (hpropagate : config.repropagateOnUpdate = true)
    (hbefore : registry.members snapshot = .ok before)
    (hafter : registry.members current = .ok after)
    (hok : (synchronize registry dialect config snapshot).execution environment current world =
      ⟨.ok summary, final, later, requests⟩) :
    ∃ changes begun,
      registry.compare snapshot current config.filter = .ok changes ∧
      let turns : List (Turn (Option Entity) ω Change) := writeTurns environment registry
        dialect .transaction changes snapshot config.persistOptions current begun
      requests = .begin :: (turns.flatMap Turn.requests ++ [.commit]) ∧
      ∀ member ∈ after, ∀ old ∈ before, member.SameIdentity old →
        (differences config.filter member.mapping old.entity member.entity = [] →
          ∀ turn ∈ turns, ¬ turn.item.Describes .current member ∧
            ¬ turn.item.Describes .snapshot old) ∧
        (differences config.filter member.mapping old.entity member.entity ≠ [] →
          ∀ parent ∈ after, member.IsDirectlyBelow parent →
            ∃ turn segment relation foreignKey referenced last holder shown update,
              turn ∈ turns ∧ turn.item.Describes .current member ∧
              member.path = parent.path ++ [segment] ∧
              parent.mapping.relations[segment.relation]? = some relation ∧
              relation.foreignKey? member.mapping.type = some foreignKey ∧
              parent.mapping.property? foreignKey.referenced = some referenced ∧
              final = some last ∧ registry.resolve last parent.path = .ok holder ∧
              turn.requests = [.execute .transaction (update.build dialect)] ∧
              Relocates member old relation foreignKey (holder.read referenced.field) shown
                update) := by
  obtain ⟨changes, begun, finished, asked, counts, hcompare, _, hpersist, _, hrequests⟩ :=
    synchronize_eq_ok hok
  obtain ⟨members, others, hmembers, hothers, hdifference⟩ := Registry.compare_eq_ok hcompare
  obtain rfl : before = members := Except.ok.inj (hbefore.symm.trans hmembers)
  obtain rfl : after = others := Except.ok.inj (hafter.symm.trans hothers)
  refine ⟨changes, begun, hcompare, ?_⟩
  intro turns
  have hasked := @persist_requests ω environment registry dialect .transaction snapshot
    config.persistOptions changes current begun
  rw [hpersist] at hasked
  refine ⟨by rw [hrequests]; exact congrArg _ (congrArg (· ++ _) hasked), ?_⟩
  intro member hmember old hold hsame
  constructor
  · intro hagree turn hturn
    obtain ⟨i, hi⟩ := List.mem_iff_getElem?.1 hturn
    have hscheduled := List.mem_of_getElem? (Task.afterTurns_take hi).1
    exact hdifference.not_describes_of_agree (Registry.nodup_paths hafter) hmember hold hsame
      hagree hscheduled
  · intro hdiffer parent hparent hbelow
    cases current with
    | none =>
        obtain rfl := Except.ok.inj hafter
        exact absurd hmember List.not_mem_nil
    | some root =>
        obtain ⟨turn, hturn, segment, relation, foreignKey, referenced, last, holder, shown,
          update, hdescribes, hrelocation⟩ := exists_relocation hpropagate
            (traverse_isTraversal hafter) hbefore hdifference (afterTurns_of_persist hpersist)
            hmember hold hsame hdiffer hparent hbelow
        exact ⟨turn, segment, relation, foreignKey, referenced, last, holder, shown, update,
          hturn, hdescribes, hrelocation⟩

end Synchronize

theorem repacked_relocates :
    ∃ before after member old update requests,
      Shipping.registry.members (some Shipping.packed) = .ok before ∧
      Shipping.registry.members (some Shipping.repacked) = .ok after ∧
      after[2]? = some member ∧ before[2]? = some old ∧
      (∃ summary final later,
        (synchronize Shipping.registry .postgres .standard (some Shipping.packed)).execution
          Script.environment (some Shipping.repacked) Shipping.quiet =
            ⟨.ok summary, final, later, requests⟩) ∧
      .execute .transaction (update.build .postgres) ∈ requests ∧
      ∃ relation foreignKey value shown,
        Relocates member old relation foreignKey value shown update := by
  obtain ⟨changes, begun, _, hrequests, hmembers⟩ := @synchronize_relocates Script
    Script.environment Shipping.registry .postgres .standard (some Shipping.packed)
    (some Shipping.repacked) Shipping.quiet _ _ _ _ _ _ rfl rfl rfl rfl
  obtain ⟨turn, _, relation, foreignKey, referenced, _, holder, shown, update, hturn, _, _, _, _,
    _, _, _, hasked, hrelocates⟩ := (hmembers _ (@List.mem_of_getElem? _ _ 2 _ rfl) _
      (@List.mem_of_getElem? _ _ 2 _ rfl) ⟨_, _, rfl, rfl, rfl⟩).2 (List.cons_ne_nil _ _) _
      (@List.mem_of_getElem? _ _ 1 _ rfl) ⟨⟨0, 0⟩, rfl⟩
  refine ⟨_, _, _, _, update, _, rfl, rfl, rfl, rfl, ⟨_, _, _, rfl⟩, ?_, relation, foreignKey,
    _, shown, hrelocates⟩
  rw [hrequests]
  apply List.mem_cons_of_mem
  apply List.mem_append_left
  apply List.mem_flatMap_of_mem hturn
  rw [hasked]
  exact List.mem_singleton_self _

namespace Shipping

/-- Parcels with a note, which do not know their order. -/
def sorted : ClassMapping where
  type := ⟨1, "Parcel", [idField, noteField]⟩
  table := "parcels"
  keys := [.generatedKey "id" idField]
  properties := [.plain "note" noteField]
  relations := []
  initialFields := []
  initialMembers := []
  sound := rfl

/-- The parcels of an order of one kind. -/
def ofKind (kind : String) (index : Nat) : Relation :=
  ⟨kind, order, index, .many sorted.type (some ⟨"parent_id", none, "id"⟩),
    some ⟨"kind", .text kind⟩, []⟩

/-- Orders that keep the parcels that are open apart from those that are done. -/
def sorting : ClassMapping where
  type := order
  table := "orders"
  keys := [.generatedKey "id" idField]
  properties := []
  relations := [ofKind "open" 0, ofKind "done" 1]
  initialFields := []
  initialMembers := []
  sound := rfl

def kinds : Registry := ⟨[sorting, sorted], rfl⟩

def sortedOf (note : String) : Entity :=
  .mk sorted.type [(idField, .bigInt 1), (noteField, .text note)] []

/-- An order with a parcel in one of the two places. -/
def orderWith (index : Nat) (note : String) : Entity :=
  .mk order [(idField, .bigInt 1)] [(.many 1 index, sortedOf note)]

/-- The row of the parcel while it is open. -/
def openRecord : Record :=
  .ofEntries "parcels" [("id", .bigInt 1), ("note", .text "x"), ("kind", .text "open"),
    ("parent_id", .bigInt 1)]

end Shipping

/-- The UPDATE of a parcel that is done now and has another note does not find the row that the
parcel had while it was open, in whatever database, and still counts as written. -/
theorem done_parcel_is_lost :
    ∃ before after member old summary final later, ∃ update : Update,
      Shipping.kinds.members (some (Shipping.orderWith 0 "x")) = .ok before ∧
      Shipping.kinds.members (some (Shipping.orderWith 1 "y")) = .ok after ∧
      before[1]? = some old ∧ old.path = [⟨0, 0⟩] ∧
      Shipping.sorting.relations[0]? = some (Shipping.ofKind "open" 0) ∧
      after[1]? = some member ∧ member.path = [⟨1, 0⟩] ∧ member.SameIdentity old ∧
      (synchronize Shipping.kinds .postgres .standard (some (Shipping.orderWith 0 "x"))).execution
        Script.environment (some (Shipping.orderWith 1 "y")) Shipping.quiet =
          ⟨.ok summary, final, later,
            [.begin, .execute .transaction (update.build .postgres), .commit]⟩ ∧
      summary.statements.updated = 1 ∧
      ∀ engine : Engine, engine.ComparesKeys Shipping.kinds →
        old.IsStoredAs engine (Shipping.ofKind "open" 0).subset Shipping.openRecord ∧
        engine.selects update.table update.filter Shipping.openRecord = false := by
  refine ⟨_, _, _, _, _, _, _, memberUpdate Shipping.sorted (Shipping.sortedOf "y")
    (some ("parent_id", .bigInt 1)) (Shipping.ofKind "done" 1).subset, rfl, rfl, rfl, rfl, rfl,
    rfl, rfl, ⟨_, _, rfl, rfl, rfl⟩, rfl, rfl, ?_⟩
  intro engine hengine
  constructor
  case left =>
    constructor
    case table => rfl
    case keys =>
      intro key hkey sought hequal
      obtain rfl := List.mem_singleton.1 hkey
      change (Value.bigInt 1).keyEqual sought = true at hequal
      have hplain : sought.isPlain = true ∧ sought.isNull = false := by
        cases sought <;> first | exact ⟨rfl, rfl⟩ | cases hequal
      exact (hengine.equal _ _ hplain.1 hplain.2).2 hequal
    case constant =>
      intro constant hconstant
      cases hconstant
      rfl
  case right =>
    rw [← Bool.not_eq_true]
    dsimp only [memberUpdate]
    rw [Engine.selects_columnsAre?]
    rintro ⟨_, hconditions⟩
    have hkind := hconditions ("kind", .text "done")
      (List.mem_append_right _ (List.mem_singleton_self _))
    have hequal := (hengine.equal _ _ rfl rfl).1 hkind
    cases hequal

/-- Every member that hangs under another parent than in the snapshot brings about a
statement. -/
def MovesAreWritten (before after : List Member) (requests : List Request) : Prop :=
  ∀ member ∈ after, ∀ old ∈ before, member.SameIdentity old →
    ∀ parent ∈ after, member.IsDirectlyBelow parent →
    ∀ former ∈ before, old.IsDirectlyBelow former → ¬ parent.SameIdentity former →
      ∃ channel statement, .execute channel statement ∈ requests

/-- The item that lies in another parcel, its own fields being as before, is not
written. -/
theorem moved_not_written :
    ∃ before after requests,
      Shipping.registry.members (some Shipping.packed) = .ok before ∧
      Shipping.registry.members (some Shipping.moved) = .ok after ∧
      (∃ summary final later,
        (synchronize Shipping.registry .postgres .standard (some Shipping.packed)).execution
          Script.environment (some Shipping.moved) Shipping.quiet =
            ⟨.ok summary, final, later, requests⟩) ∧
      ¬ MovesAreWritten before after requests := by
  refine ⟨_, _, [.begin, .commit], rfl, rfl, ⟨_, _, _, rfl⟩, ?_⟩
  intro hwritten
  obtain ⟨channel, statement, hstatement⟩ := hwritten _ (@List.mem_of_getElem? _ _ 3 _ rfl) _
    (@List.mem_of_getElem? _ _ 2 _ rfl) ⟨_, _, rfl, rfl, rfl⟩ _
    (@List.mem_of_getElem? _ _ 2 _ rfl) ⟨⟨0, 0⟩, rfl⟩ _ (@List.mem_of_getElem? _ _ 1 _ rfl)
    ⟨⟨0, 0⟩, rfl⟩ (mt Member.any_hasKey_iff.2 Bool.false_ne_true)
  simp at hstatement

end AggregateSync
