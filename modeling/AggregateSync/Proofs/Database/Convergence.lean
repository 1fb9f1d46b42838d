import AggregateSync.Proofs.Database.Insertion
import AggregateSync.Proofs.Database.Memory
import AggregateSync.Proofs.Database.Modification
import AggregateSync.Proofs.Database.Removal

/-!
# Convergence

Every turn of a run keeps `Progress`, so a run that succeeds ends with the rows that the
current graph shows then.  A member that needs no writing has its row already, because its
compared properties agree and it hangs where it hung.
-/

namespace AggregateSync

/-- The member stands where the other one stood and shows what that did, except for what a
run fills in. -/
structure Member.FillsIn (members : List Member) (member final : Member) : Prop
    extends member.Alike final where
  intact : ∀ field, ¬ member.IsFilledIn members field →
    final.entity.read field = member.entity.read field

section Run

variable {ω : Type} {environment : Environment ω} {registry : Registry} {dialect : Dialect}
  {channel : Channel} {snapshot current : Option Entity} {options : PersistOptions}
  {filter : PropertyFilter} {before after : List Member} {changes written rest : List Change}
  {change : Change} {rows : ω → Set Record} {state state' : Option Entity} {world later : ω}
  {held : Set Record} {final : Option Entity} {engine : Engine}

/-- Each turn that succeeds keeps `Progress`. -/
theorem Progress.writeMember
    (hedit : IsEdit registry snapshot current filter before after changes)
    (hengine : engine.ComparesKeys registry)
    (hstores : Stores environment registry dialect engine rows)
    (hschedule : schedule changes = written ++ change :: rest)
    (hprogress : Progress registry current before after written state (rows world))
    {issued : Bool} {requests : List Request}
    (hturn : (Task.writeMember registry dialect channel snapshot options change).execution
      environment state world = ⟨.ok issued, state', later, requests⟩) :
    Progress registry current before after (written ++ [change]) state' (rows later) := by
  have hchange : change ∈ schedule changes := by
    rw [hschedule]
    exact List.mem_append_right _ List.mem_cons_self
  rw [Task.writeMember] at hturn
  rcases hedit.scheduled_cases hchange with ⟨hstate, member, hmember, hdescribes, hnew⟩ |
    ⟨hstate, old, hold, hdescribes, _⟩ |
    ⟨hstate, member, hmember, old, hold, hdescribes, hsame, hdiffer⟩
  · rw [hstate] at hturn
    exact hprogress.insertMember hedit hengine hstores hschedule hmember hstate hdescribes hnew
      hturn
  · rw [hstate] at hturn
    exact hprogress.deleteMember hedit hengine hstores hschedule hold hdescribes hturn
  · rw [hstate] at hturn
    exact hprogress.updateMember hedit hengine hstores hschedule hmember hold hdescribes hsame
      hdiffer hturn

/-- A run that succeeds writes all changes. -/
theorem Progress.run (hedit : IsEdit registry snapshot current filter before after changes)
    (hengine : engine.ComparesKeys registry)
    (hstores : Stores environment registry dialect engine rows)
    (hstart : rows world = recordsOf before)
    (hafter : Task.afterTurns environment
      (Task.writeMember registry dialect channel snapshot options) (schedule changes) current
        world = some (final, later)) :
    Progress registry current before after (schedule changes) final (rows later) := by
  let kept (done : List Change) (state : Option Entity) (world : ω) : Prop :=
    Progress registry current before after done state (rows world)
  have hkept : kept (schedule changes) final later := by
    apply Task.afterTurns_invariant _ _ hafter
    · change Progress registry current before after [] current (rows world)
      rw [hstart]
      exact Progress.start hedit
    · intro done item rest hschedule state world hprogress issued middle between requests hturn
      exact Progress.writeMember hedit hengine hstores hschedule hprogress hturn
  exact hkept

/-! ## The rows at the end -/

theorem equal_of_differences_eq_nil (hfilter : ∀ mapping property, filter mapping property = true)
    {mapping : ClassMapping} {old e : Entity} (hagree : differences filter mapping old e = []) :
    ∀ property ∈ mapping.writableProperties,
      (old.read property.field).equal (e.read property.field) = true := by
  intro property hproperty
  have hnone := List.map_eq_nil_iff.1 hagree
  rw [List.filter_eq_nil_iff] at hnone
  have hequal := hnone property (List.mem_filter.2 ⟨hproperty, hfilter mapping property⟩)
  rwa [Bool.not_eq_true', Bool.not_eq_false] at hequal

/-- The row of a member that needs no writing is what the current graph shows. -/
theorem Progress.record_unmodified
    (hedit : IsEdit registry snapshot current filter before after changes)
    (hfilter : ∀ mapping property, filter mapping property = true)
    (hprogress : Progress registry current before after written state held)
    {member old : Member} (hmember : member ∈ after) (hold : old ∈ before)
    (hsame : member.SameIdentity old)
    (hagree : differences filter member.mapping old.entity member.entity = [])
    (huntouched : ∀ change ∈ written, ¬ change.Describes .current member) :
    old.record before = member.recordBy (registry.shown state) after := by
  have hknown := hedit.knownAfter hmember
  have hknown' := hedit.knownBefore hold
  have hmapping := hsame.mapping_eq hknown hknown'
  have hplain := hedit.plainAfter member hmember
  have hplain' := hedit.plainBefore old hold
  apply Member.recordBy_congr hmapping _ (hprogress.hangAlike hedit hmember hold hsame)
  intro property hproperty
  rw [hprogress.untouched member hmember huntouched]
  rcases List.mem_append.1 hproperty with hkey | hwritable
  · exact hsame.keyForm_eq hknown hknown' hplain hplain' hkey
  · have hcolumn := ClassMapping.mem_columns_of_own hproperty
    have hequal := equal_of_differences_eq_nil hfilter hagree property hwritable
    have hread : old.entity.read property.field = member.entity.read property.field := by
      apply (Value.equal_iff_eq (hplain' property _) (hplain property hcolumn)).1 hequal
      rwa [hmapping]
    exact congrArg Value.keyForm hread

/-- A row of the snapshot that no change concerns is that of a member which needs no
writing. -/
theorem IsEdit.exists_kept (hedit : IsEdit registry snapshot current filter before after changes)
    {old : Member} (hold : old ∈ before)
    (hpending : ∀ change ∈ schedule changes, ¬ change.Concerns after old) :
    ∃ member ∈ after, member.SameIdentity old ∧
      differences filter member.mapping old.entity member.entity = [] ∧
      ∀ change ∈ schedule changes, ¬ change.Describes .current member := by
  have hstays : ¬ old.IsGoneFrom after := by
    intro hgone
    obtain ⟨change, hchange, hremoves⟩ := hedit.exists_removes hold hgone
    have hscheduled : change ∈ schedule changes := by
      rw [mem_schedule, hremoves.removed]
      exact ⟨hchange, by simp⟩
    exact hpending change hscheduled (.inl hremoves.toDescribes)
  obtain ⟨member, hmember, hsame⟩ : ∃ member ∈ after, member.SameIdentity old := by
    by_contra hnone
    apply hstays
    refine ⟨hedit.saved old hold, ?_⟩
    intro member hmember hsame
    exact hnone ⟨member, hmember, hsame.symm⟩
  have huntouched : ∀ change ∈ schedule changes, ¬ change.Describes .current member := by
    intro change hchange hdescribes
    exact hpending change hchange (.inr ⟨member, hmember, hsame, hdescribes⟩)
  refine ⟨member, hmember, hsame, ?_, huntouched⟩
  by_contra hdiffer
  obtain ⟨change, hchange, hdescribes, _⟩ :=
    hedit.exists_modification hmember hold hsame hdiffer
  exact huntouched change hchange hdescribes

/-- A member of the current graph that is not written was in the snapshot, and no change
concerns its row. -/
theorem IsEdit.exists_former
    (hedit : IsEdit registry snapshot current filter before after changes) {member : Member}
    (hmember : member ∈ after)
    (huntouched : ∀ change ∈ schedule changes, ¬ change.Describes .current member) :
    ∃ old ∈ before, member.SameIdentity old ∧
      differences filter member.mapping old.entity member.entity = [] ∧
      ∀ change ∈ schedule changes, ¬ change.Concerns after old := by
  obtain ⟨change, hchange, hclassifies⟩ := hedit.exists_classifies hmember
  have hstate : change.state = .unmodified := by
    by_contra hstate
    exact huntouched change (mem_schedule.2 ⟨hchange, hstate⟩) hclassifies.toDescribes
  obtain ⟨old, hold, hsame⟩ : ∃ old ∈ before, member.SameIdentity old := by
    by_contra hnone
    have hadded := hclassifies.added.2 fun old hold hsame => hnone ⟨old, hold, hsame⟩
    rw [hstate] at hadded
    cases hadded
  obtain ⟨hchanged, _, hunmodified⟩ := hclassifies.kept old hold hsame
  have hagree : differences filter member.mapping old.entity member.entity = [] := by
    rw [← hchanged]
    exact hunmodified.1 hstate
  refine ⟨old, hold, hsame, hagree, ?_⟩
  intro other hother
  have hapart := hedit.not_describes_of_agree (Registry.nodup_paths hedit.membersAfter) hmember
    hold hsame hagree hother
  rintro (hdescribes | ⟨member', hmember', hsame', hdescribes⟩)
  · exact hapart.2 hdescribes
  · obtain rfl := hedit.distinctAfter.eq_of_sameIdentity hmember' hmember hsame'.symm hsame.symm
    exact hapart.1 hdescribes

/-- Once all changes are written, a database holds what the members of the current graph
show. -/
theorem Progress.mem_rows_iff
    (hedit : IsEdit registry snapshot current filter before after changes)
    (hfilter : ∀ mapping property, filter mapping property = true)
    (hprogress : Progress registry current before after (schedule changes) final held)
    {record : Record} :
    record ∈ held ↔ ∃ member ∈ after, member.recordBy (registry.shown final) after = record := by
  rw [hprogress.stored]
  constructor
  · rintro ⟨side, old, hheld, rfl⟩
    cases hheld with
    | written hmember _ _ => exact ⟨old, hmember, rfl⟩
    | pending hold hpending =>
        obtain ⟨member, hmember, hsame, hagree, huntouched⟩ := hedit.exists_kept hold hpending
        exact ⟨member, hmember, (hprogress.record_unmodified hedit hfilter hmember hold hsame
          hagree huntouched).symm⟩
  · rintro ⟨member, hmember, rfl⟩
    by_cases hwritten : ∃ change ∈ schedule changes, change.Describes .current member
    case pos =>
      obtain ⟨change, hchange, hdescribes⟩ := hwritten
      exact ⟨.current, member, .written hmember hchange hdescribes, rfl⟩
    case neg =>
      have huntouched : ∀ change ∈ schedule changes, ¬ change.Describes .current member :=
        fun change hchange hdescribes => hwritten ⟨change, hchange, hdescribes⟩
      obtain ⟨old, hold, hsame, hagree, hpending⟩ := hedit.exists_former hmember huntouched
      exact ⟨.snapshot, old, .pending hold hpending, hprogress.record_unmodified hedit hfilter
        hmember hold hsame hagree huntouched⟩

/-- Once all changes are written, the final graph is the current one, filled in, and a
database holds its rows. -/
theorem Progress.rows_eq (hedit : IsEdit registry snapshot current filter before after changes)
    (hfilter : ∀ mapping property, filter mapping property = true)
    (hprogress : Progress registry current before after (schedule changes) final held) :
    ∃ finals, registry.members final = .ok finals ∧
      List.Forall₂ (Member.FillsIn after) after finals ∧ held = recordsOf finals := by
  have hrows : held =
      {record | ∃ member ∈ after, member.recordBy (registry.shown final) after = record} := by
    ext record
    exact hprogress.mem_rows_iff hedit hfilter
  have hmembers := hedit.membersAfter
  cases hprogress.shape with
  | none =>
      cases hmembers
      refine ⟨[], rfl, .nil, ?_⟩
      rw [hrows]
      ext record
      constructor
      · rintro ⟨member, hmember, _⟩
        exact absurd hmember List.not_mem_nil
      · rintro ⟨member, hmember, _⟩
        exact absurd hmember List.not_mem_nil
  | some hshape =>
      obtain ⟨finals, hfinals, halike⟩ := traverse_of_sameShape hshape hmembers
      have htraversal := traverse_isTraversal hfinals
      refine ⟨finals, hfinals, ?_, ?_⟩
      · rw [List.forall₂_iff_zip] at halike ⊢
        refine ⟨halike.1, ?_⟩
        intro member other hpair
        have hlike := halike.2 hpair
        obtain ⟨hmember, hother⟩ := List.of_mem_zip hpair
        refine ⟨hlike, ?_⟩
        intro field hfield
        calc
          other.entity.read field = registry.shown _ member field := by
            rw [htraversal.shown_alike hlike hother]
          _ = member.entity.read field := hprogress.intact member hmember field hfield
      · rw [hrows, (traverse_isTraversal hmembers).recordsOf_alike htraversal halike]

end Run

/-- After a synchronization that succeeds, a database that held the rows of the snapshot
holds exactly the rows of the final graph, which is the current one with its generated keys
and foreign keys filled in. -/
theorem synchronize_converges {ω : Type} {environment : Environment ω} {registry : Registry}
    {dialect : Dialect} {config : SyncConfig} {snapshot current : Option Entity}
    {before after : List Member} {rows : ω → Set Record} {world later : ω}
    {summary : ChangeSummary} {final : Option Entity} {requests : List Request}
    (horderly : registry.IsOrderly) {engine : Engine} (hengine : engine.ComparesKeys registry)
    (hstores : Stores environment registry dialect engine rows)
    (hfilter : ∀ mapping property, config.filter mapping property = true)
    (hbefore : registry.members snapshot = .ok before)
    (hafter : registry.members current = .ok after) (hedited : IsEditInPlace before after)
    (hrows : rows world = recordsOf before)
    (hok : (synchronize registry dialect config snapshot).execution environment current world =
      ⟨.ok summary, final, later, requests⟩) :
    ∃ finals, registry.members final = .ok finals ∧
      List.Forall₂ (Member.FillsIn after) after finals ∧ rows later = recordsOf finals := by
  obtain ⟨changes, begun, finished, asked, counts, hcompare, hbegin, hpersist, hcommit, _⟩ :=
    synchronize_eq_ok hok
  obtain ⟨members, others, hmembers, hothers, hdifference⟩ := Registry.compare_eq_ok hcompare
  obtain rfl : before = members := Except.ok.inj (hbefore.symm.trans hmembers)
  obtain rfl : after = others := Except.ok.inj (hafter.symm.trans hothers)
  have hedit : IsEdit registry snapshot current config.filter before after changes :=
    ⟨hdifference, hedited, horderly, hbefore, hafter⟩
  have hstart : rows begun = recordsOf before := by
    rw [hstores.begin world begun hbegin, hrows]
  have hprogress := Progress.run hedit hengine hstores hstart (afterTurns_of_persist hpersist)
  rw [hstores.commit finished later hcommit]
  exact hprogress.rows_eq hedit hfilter

namespace Shipping

/-- The first parcel is gone with its item, the second one carries another number, and a
new item lies in it. -/
def restocked : Entity := orderOf 1 [parcelOf 2 7 [itemOf 0 0]]

/-- The members of `packed`. -/
def packedMembers : List Member :=
  [⟨some (.ofValues order [.bigInt 1]), packed, orders, [], none, none, [1, 3]⟩,
    ⟨some (.ofValues parcel [.bigInt 1]), parcelOf 1 1 [itemOf 1 1], parcels, [⟨0, 0⟩], some 0,
      some 0, [2]⟩,
    ⟨some (.ofValues item [.bigInt 1]), itemOf 1 1, items, [⟨0, 0⟩, ⟨0, 0⟩], some 1, some 0, []⟩,
    ⟨some (.ofValues parcel [.bigInt 2]), parcelOf 2 1 [], parcels, [⟨0, 1⟩], some 0, some 0,
      []⟩]

/-- The members of `restocked`. -/
def restockedMembers : List Member :=
  [⟨some (.ofValues order [.bigInt 1]), restocked, orders, [], none, none, [1]⟩,
    ⟨some (.ofValues parcel [.bigInt 2]), parcelOf 2 7 [itemOf 0 0], parcels, [⟨0, 0⟩], some 0,
      some 0, [2]⟩,
    ⟨none, itemOf 0 0, items, [⟨0, 0⟩, ⟨0, 0⟩], some 1, some 0, []⟩]

/-- The commands that lead from `packed` to `restocked`. -/
def restocking : List Command :=
  [.insert ⟨"items", [("parent_id", .bigInt 2)]⟩,
    .delete ⟨"items", Expr.columnsAre? [("id", .bigInt 1), ("parent_id", .bigInt 1)]⟩,
    .delete ⟨"parcels", Expr.columnsAre? [("id", .bigInt 1), ("parent_id", .bigInt 1)]⟩,
    .update ⟨"parcels", [("parent_id", .bigInt 1)], Expr.columnsAre? [("id", .bigInt 2)]⟩]

/-- A database that holds the rows of `packed`. -/
def stock : Memory := ⟨packedMembers.map (Member.record packedMembers), [], 100⟩

/-- The relations of the registry lead to parcels and to items, by the same foreign key. -/
theorem relation_cases {mapping : ClassMapping} (hmapping : mapping ∈ registry.mappings)
    {relation : Relation} (hrelation : relation ∈ mapping.relations) :
    ∃ child, (child = parcels ∨ child = items) ∧
      relation.form = .many child.type (some parentKey) ∧ relation.subset = none := by
  simp only [registry, List.mem_cons, List.not_mem_nil, or_false] at hmapping
  rcases hmapping with rfl | rfl | rfl
  · obtain rfl := List.mem_singleton.1 hrelation
    exact ⟨parcels, .inl rfl, rfl, rfl⟩
  · obtain rfl := List.mem_singleton.1 hrelation
    exact ⟨items, .inr rfl, rfl, rfl⟩
  · exact absurd hrelation List.not_mem_nil

theorem target?_eq {relation : Relation} {child : EntityType}
    (hform : relation.form = .many child (some parentKey)) (type : EntityType) :
    relation.target? type =
      if child.same type then some ⟨child, some parentKey, none⟩ else none := by
  simp only [Relation.target?, Relation.targets, hform, List.find?_singleton]

theorem foreignKey?_eq {relation : Relation} {child type : EntityType}
    (hform : relation.form = .many child (some parentKey)) {foreignKey : ForeignKey}
    (hforeignKey : relation.foreignKey? type = some foreignKey) : foreignKey = parentKey := by
  rw [Relation.foreignKey?, target?_eq hform] at hforeignKey
  split at hforeignKey
  · exact (Option.some.inj hforeignKey).symm
  · cases hforeignKey

theorem isOrderly : registry.IsOrderly := by
  constructor
  case tables => decide
  case columns => decide
  case integers => decide
  case unshared => decide
  case suits =>
    intro parent hparent relation hrelation found hfound htarget
    obtain ⟨child, hchild, hform, hsubset⟩ := relation_cases hparent hrelation
    rw [target?_eq hform] at htarget
    have hsame : child.type.same found.type = true := by
      by_contra hdiffer
      rw [if_neg hdiffer] at htarget
      cases htarget
    obtain rfl : found = child := by
      simp only [registry, List.mem_cons, List.not_mem_nil, or_false] at hfound
      rcases hchild with rfl | rfl <;> rcases hfound with rfl | rfl | rfl <;>
        first | rfl | exact absurd hsame (by decide)
    constructor
    case columns =>
      have hcolumns : relation.linkColumns found.type = [] := by
        rw [Relation.linkColumns, Relation.foreignKey?, target?_eq hform, if_pos hsame, hsubset]
        rfl
      rw [hcolumns]
      rcases hchild with rfl | rfl <;> decide
    case property =>
      intro foreignKey name hforeignKey hname
      obtain rfl := foreignKey?_eq hform hforeignKey
      obtain rfl := Option.some.inj hname
      rcases hchild with rfl | rfl <;>
        exact ⟨.plain "parent_id" parentField, List.mem_singleton_self _, rfl, rfl⟩

/-- Foreign keys refer to the number of the parent. -/
theorem referenced_eq {mapping : ClassMapping} (hmapping : mapping ∈ registry.mappings)
    {property : Property} (hreferenced : mapping.IsReferenced property) :
    property = .generatedKey "id" idField := by
  obtain ⟨relation, hrelation, child, foreignKey, hforeignKey, hproperty⟩ := hreferenced
  obtain ⟨_, _, hform, _⟩ := relation_cases hmapping hrelation
  obtain rfl := foreignKey?_eq hform hforeignKey
  simp only [registry, List.mem_cons, List.not_mem_nil, or_false] at hmapping
  rcases hmapping with rfl | rfl | rfl <;> exact (Option.some.inj hproperty).symm

/-- The member of the graph that was edited in place, given what of it does not depend on
the member. -/
theorem keepsPlace_of_same {before after : List Member} {member old : Member}
    (hmapping : member.mapping ∈ registry.mappings)
    (hsame : old.entity.read idField = member.entity.read idField)
    (hplain : (member.entity.read idField).isPlain = true)
    (hroot : member.holder? after = none → old.holder? before = none)
    (hbelow : ∀ parent relation, member.holder? after = some (parent, relation) →
      ∃ former, old.holder? before = some (former, relation) ∧ parent.SameIdentity former) :
    member.KeepsPlace before after old := by
  refine ⟨hroot, hbelow, ?_⟩
  intro property hproperty
  obtain rfl := referenced_eq hmapping hproperty
  change (old.entity.read idField).keyEqual (member.entity.read idField) = true
  rw [hsame]
  exact Value.keyEqual_self hplain

theorem isEditInPlace : IsEditInPlace packedMembers restockedMembers := by
  constructor
  case plainBefore =>
    unfold Member.IsPlain
    decide
  case plainAfter =>
    unfold Member.IsPlain
    decide
  case saved => decide
  case linked =>
    intro old hold parent property referenced hrefers
    simp only [packedMembers, List.mem_cons, List.not_mem_nil, or_false] at hold
    cases hrefers with
    | intro hholder hforeignKey hname hproperty hreferenced =>
        rcases hold with rfl | rfl | rfl | rfl
        · cases hholder
        all_goals
          obtain ⟨rfl, rfl⟩ := Prod.mk.inj (Option.some.inj hholder)
          obtain rfl := Option.some.inj hforeignKey
          obtain rfl := Option.some.inj hname
          obtain rfl := Option.some.inj hproperty
          obtain rfl := Option.some.inj hreferenced
          rfl
  case kept =>
    intro member hmember old hold hsame
    have hidentity := Member.any_hasKey_iff.2 hsame
    simp only [restockedMembers, List.mem_cons, List.not_mem_nil, or_false] at hmember
    simp only [packedMembers, List.mem_cons, List.not_mem_nil, or_false] at hold
    rcases hmember with rfl | rfl | rfl
    case inl =>
      rcases hold with rfl | rfl | rfl | rfl
      case inl =>
        refine keepsPlace_of_same (by simp [registry]) ?_ ?_ (fun _ => rfl) ?_
        · rfl
        · rfl
        · intro parent relation hholder
          cases hholder
      all_goals cases hidentity
    case inr.inl =>
      rcases hold with rfl | rfl | rfl | rfl
      case inr.inr.inr =>
        refine keepsPlace_of_same (by simp [registry]) ?_ ?_ (fun hnone => by cases hnone) ?_
        · rfl
        · rfl
        · intro parent relation hholder
          obtain ⟨rfl, rfl⟩ := Prod.mk.inj (Option.some.inj hholder)
          exact ⟨_, rfl, _, _, rfl, rfl, rfl⟩
      all_goals cases hidentity
    case inr.inr => cases hidentity

end Shipping

theorem restocked_converges :
    ∃ summary final later requests finals,
      (synchronize Shipping.registry .postgres .standard (some Shipping.packed)).execution
        (Memory.environment Shipping.registry .postgres Shipping.restocking)
          (some Shipping.restocked) Shipping.stock = ⟨.ok summary, final, later, requests⟩ ∧
      Shipping.registry.members final = .ok finals ∧
      List.Forall₂ (Member.FillsIn Shipping.restockedMembers) Shipping.restockedMembers finals ∧
      later.rows = recordsOf finals := by
  have hsucceeds : ((synchronize Shipping.registry .postgres .standard
      (some Shipping.packed)).execution (Memory.environment Shipping.registry .postgres
        Shipping.restocking) (some Shipping.restocked) Shipping.stock).succeeds = true := by
    decide +kernel
  obtain ⟨summary, final, later, requests, hrun⟩ := Execution.succeeds_iff.1 hsucceeds
  have hrows : Shipping.stock.rows = recordsOf Shipping.packedMembers := by
    ext record
    exact List.mem_map
  have hengine : Engine.byKeyForm.ComparesKeys Shipping.registry := by
    apply Engine.comparesKeys_byKeyForm
    intro mapping hmapping relation hrelation subset hsubset
    obtain ⟨_, _, _, hnone⟩ := Shipping.relation_cases hmapping hrelation
    rw [hnone] at hsubset
    cases hsubset
  obtain ⟨finals, hfinals, hfilled, hlater⟩ := synchronize_converges Shipping.isOrderly hengine
    (Memory.stores Shipping.registry .postgres Shipping.restocking) (fun _ _ => rfl) rfl rfl
    Shipping.isEditInPlace hrows hrun
  exact ⟨summary, final, later, requests, finals, hrun, hfinals, hfilled, hlater⟩

end AggregateSync
