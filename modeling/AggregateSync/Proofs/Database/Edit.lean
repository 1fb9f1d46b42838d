import AggregateSync.Proofs.Database.Rows
import AggregateSync.Proofs.Graph.Identity

/-!
# Edits in place

A graph is edited in place if what is in both graphs stays where it is and keeps what
foreign keys refer to.  `IsEdit` gathers this with the difference of the two graphs; here
are the rows that the snapshot has then, and what the order of writing says of the changes.
-/

namespace AggregateSync

/-- A foreign key that is a property of the member has the value that the parent gives. -/
def Member.IsLinked (members : List Member) (member : Member) : Prop :=
  ∀ parent property referenced, member.Refers members parent property referenced →
    (member.entity.read property.field).keyEqual (parent.entity.read referenced.field) = true

/-- A member of both graphs hangs where it hung, and what foreign keys refer to in it is
what it was. -/
structure Member.KeepsPlace (before after : List Member) (member old : Member) : Prop where
  root : member.holder? after = none → old.holder? before = none
  below : ∀ parent relation, member.holder? after = some (parent, relation) →
    ∃ former, old.holder? before = some (former, relation) ∧ parent.SameIdentity former
  references : ∀ property, member.mapping.IsReferenced property →
    (old.entity.read property.field).keyEqual (member.entity.read property.field) = true

/-- A graph was edited in place: its snapshot is saved and consistent, and what is in both
graphs stayed in its place. -/
structure IsEditInPlace (before after : List Member) : Prop where
  plainBefore : ∀ old ∈ before, old.IsPlain
  plainAfter : ∀ member ∈ after, member.IsPlain
  saved : ∀ old ∈ before, old.key.isSome
  linked : ∀ old ∈ before, old.IsLinked before
  kept : ∀ member ∈ after, ∀ old ∈ before, member.SameIdentity old →
    member.KeepsPlace before after old

/-- The difference of a snapshot and what became of it by an edit in place. -/
structure IsEdit (registry : Registry) (snapshot current : Option Entity)
    (filter : PropertyFilter) (before after : List Member) (changes : List Change) : Prop
    extends IsDifference filter before after changes, IsEditInPlace before after where
  orderly : registry.IsOrderly
  membersBefore : registry.members snapshot = .ok before
  membersAfter : registry.members current = .ok after

theorem ClassMapping.IsReferenced.mem_columns {mapping : ClassMapping} {property : Property}
    (hreferenced : mapping.IsReferenced property) : property ∈ mapping.columns := by
  obtain ⟨_, _, _, _, _, hproperty⟩ := hreferenced
  exact List.mem_of_find?_eq_some hproperty

/-- One change tells of one member of a side. -/
theorem Change.Describes.member_eq {change : Change} {side : Side} {member other : Member}
    (hdescribes : change.Describes side member) (hdescribes' : change.Describes side other)
    {members : List Member} (hpaths : (members.map Member.path).Nodup)
    (hmember : member ∈ members) (hother : other ∈ members) : member = other :=
  List.inj_on_of_nodup_map hpaths hmember hother
    (hdescribes.path.symm.trans hdescribes'.path)

namespace IsEdit

variable {registry : Registry} {snapshot current : Option Entity} {filter : PropertyFilter}
  {before after : List Member} {changes written rest : List Change} {change : Change}
  {member old : Member}

theorem knownBefore (hedit : IsEdit registry snapshot current filter before after changes)
    (hold : old ∈ before) : old.IsKnown registry :=
  Registry.members_isKnown hedit.membersBefore old hold

theorem knownAfter (hedit : IsEdit registry snapshot current filter before after changes)
    (hmember : member ∈ after) : member.IsKnown registry :=
  Registry.members_isKnown hedit.membersAfter member hmember

theorem traversalBefore (hedit : IsEdit registry snapshot current filter before after changes)
    (hold : old ∈ before) : ∃ root, snapshot = some root ∧ IsTraversal registry root before :=
  Registry.exists_traversal hedit.membersBefore hold

theorem traversalAfter (hedit : IsEdit registry snapshot current filter before after changes)
    (hmember : member ∈ after) :
    ∃ root, current = some root ∧ IsTraversal registry root after :=
  Registry.exists_traversal hedit.membersAfter hmember

/-- No earlier change tells of the same member. -/
theorem not_describes (hedit : IsEdit registry snapshot current filter before after changes)
    (hschedule : schedule changes = written ++ change :: rest) {side : Side}
    (hdescribes : change.Describes side member) :
    ∀ earlier ∈ written, ¬ earlier.Describes side member := by
  intro earlier hearlier hsame
  have hplaces := hedit.nodup_places (Registry.nodup_paths hedit.membersBefore)
    (Registry.nodup_paths hedit.membersAfter)
  have hscheduled : ∀ {other : Change}, other ∈ written ++ change :: rest →
      other ∈ changes := by
    intro other hother
    rw [← hschedule] at hother
    exact (mem_schedule.1 hother).1
  have honce := nodup_schedule hplaces.of_map
  rw [hschedule, List.nodup_append] at honce
  apply honce.2.2 earlier hearlier change List.mem_cons_self
  apply List.inj_on_of_nodup_map hplaces
  · exact hscheduled (List.mem_append_left _ hearlier)
  · exact hscheduled (List.mem_append_right _ List.mem_cons_self)
  · rw [hsame.side, hdescribes.side, hsame.path, hdescribes.path]

/-- An added member is written before the members under it. -/
theorem not_written_below (hedit : IsEdit registry snapshot current filter before after changes)
    (hschedule : schedule changes = written ++ change :: rest) (hadded : change.state = .added)
    (hdescribes : change.Describes .current member) {other : Member}
    (hdepth : member.path.length < other.path.length) {earlier : Change}
    (hearlier : earlier ∈ written) : ¬ earlier.Describes .current other := by
  intro hother
  have horder := schedule_pairwise hedit.sorted
  rw [hschedule, List.pairwise_append] at horder
  have hprecede := horder.2.2 earlier hearlier change List.mem_cons_self
  have hphase := hprecede.1
  rw [hadded] at hphase
  have hstate : earlier.state = .added := by
    cases hearlierState : earlier.state <;> rw [hearlierState] at hphase <;>
      simp [ChangeState.phase] at hphase
  have hshallow := hprecede.2.2 (hstate.trans hadded.symm) (by rw [hstate]; simp)
  rw [Change.depth, Change.depth, hother.path, hdescribes.path] at hshallow
  exact absurd hdepth (Nat.not_lt_of_le hshallow)

/-! ## What was kept -/

/-- What foreign keys refer to in a kept member is what it was in the snapshot. -/
theorem references (hedit : IsEdit registry snapshot current filter before after changes)
    (hmember : member ∈ after) (hold : old ∈ before) (hsame : member.SameIdentity old)
    {property : Property} (hproperty : member.mapping.IsReferenced property) :
    (member.entity.read property.field).keyForm = (old.entity.read property.field).keyForm := by
  have hmapping := hsame.mapping_eq (hedit.knownAfter hmember) (hedit.knownBefore hold)
  have hkept := (hedit.kept member hmember old hold hsame).references property hproperty
  apply ((Value.keyEqual_iff _ _).1 hkept).symm
  · apply hedit.plainBefore old hold
    rw [hmapping]
    exact hproperty.mem_columns
  · exact hedit.plainAfter member hmember property hproperty.mem_columns

/-- A member of both graphs referred to what was the parent, by the same property. -/
theorem refers_before (hedit : IsEdit registry snapshot current filter before after changes)
    (hmember : member ∈ after) (hold : old ∈ before) (hsame : member.SameIdentity old)
    {parent : Member} (hparent : parent ∈ after) {property referenced : Property}
    (hrefers : member.Refers after parent property referenced) :
    ∃ former ∈ before, parent.SameIdentity former ∧ former.mapping = parent.mapping ∧
      old.Refers before former property referenced := by
  have hmapping := hsame.mapping_eq (hedit.knownAfter hmember) (hedit.knownBefore hold)
  obtain ⟨root, _, htraversal⟩ := hedit.traversalBefore hold
  cases hrefers with
  | intro hholder hforeignKey hname hproperty hreferenced =>
      obtain ⟨former, hformer, hparents⟩ :=
        (hedit.kept member hmember old hold hsame).below _ _ hholder
      have hmem := (htraversal.suits hedit.orderly hold hformer).1
      have hformerMapping :=
        hparents.mapping_eq (hedit.knownAfter hparent) (hedit.knownBefore hmem)
      rw [← hmapping] at hforeignKey hproperty
      rw [← hformerMapping] at hreferenced
      exact ⟨former, hmem, hparents, hformerMapping,
        .intro hformer hforeignKey hname hproperty hreferenced⟩

/-! ## Rows of the snapshot -/

/-- The row of a member of the snapshot has the keys of the member. -/
theorem cell_key (hedit : IsEdit registry snapshot current filter before after changes)
    (hold : old ∈ before) {key : Property} (hkey : key ∈ old.mapping.keys) :
    (old.record before).cell key.column = (old.entity.read key.field).keyForm := by
  obtain ⟨root, _, htraversal⟩ := hedit.traversalBefore hold
  exact htraversal.cell_own hedit.orderly hold _ (List.mem_append_left _ hkey)

/-- No key of a member of the snapshot is NULL. -/
theorem present_key (hedit : IsEdit registry snapshot current filter before after changes)
    (hold : old ∈ before) {key : Property} (hkey : key ∈ old.mapping.keys) :
    (old.entity.read key.field).isNull = false :=
  ((hedit.knownBefore hold).keyReadings_of_isSome (hedit.saved old hold)).1 _
    (List.mem_map_of_mem hkey)

/-- The constant of the relation that holds a member of the snapshot is found in its row. -/
theorem finds_constant (hedit : IsEdit registry snapshot current filter before after changes)
    {engine : Engine} (hengine : engine.ComparesKeys registry) (hold : old ∈ before)
    {parent : Member} {relation : Relation}
    (hholder : old.holder? before = some (parent, relation)) :
    ∀ entry ∈ (relation.subset.map SubsetColumn.entry).toList,
      engine.compare .eq ((old.record before).cell entry.1) entry.2 = .yes := by
  obtain ⟨root, _, htraversal⟩ := hedit.traversalBefore hold
  obtain ⟨hparent, hrelation, _⟩ := htraversal.suits hedit.orderly hold hholder
  intro entry hentry
  have hcell : (old.record before).cell entry.1 = entry.2.keyForm :=
    htraversal.cell_link hedit.orderly hold _ hholder (List.mem_append_right _ hentry)
  obtain ⟨subset, hsubset, rfl⟩ := Option.map_eq_some_iff.1 (Option.mem_toList.1 hentry)
  rw [hcell]
  exact (hengine.constants _ (htraversal.known _ hparent).mem_mappings _ hrelation _ hsubset).2

/-- The row of a member of the snapshot refers to the member that holds it. -/
theorem cell_foreignKey (hedit : IsEdit registry snapshot current filter before after changes)
    (hold : old ∈ before) {parent : Member} {relation : Relation} {foreignKey : ForeignKey}
    {referenced : Property} (hholder : old.holder? before = some (parent, relation))
    (hforeignKey : relation.foreignKey? old.mapping.type = some foreignKey)
    (hreferenced : parent.mapping.property? foreignKey.referenced = some referenced) :
    (old.record before).cell foreignKey.column =
        (parent.entity.read referenced.field).keyForm ∧
      (parent.entity.read referenced.field).isPlain = true := by
  obtain ⟨root, _, htraversal⟩ := hedit.traversalBefore hold
  obtain ⟨hparent, hrelation, hsuits⟩ := htraversal.suits hedit.orderly hold hholder
  have hplain : (parent.entity.read referenced.field).isPlain = true :=
    hedit.plainBefore _ hparent _ (List.mem_of_find?_eq_some hreferenced)
  refine ⟨?_, hplain⟩
  cases hname : foreignKey.property with
  | none =>
      obtain ⟨column, property?, name⟩ := foreignKey
      obtain rfl : property? = none := hname
      apply htraversal.cell_link hedit.orderly hold _ hholder
        (List.mem_append_left _ (_ : (column, parent.entity.read referenced.field) ∈ _))
      simp [hforeignKey, hreferenced]
  | some name =>
      obtain ⟨property, hwritable, hproperty, hcolumn⟩ := hsuits.property _ _ hforeignKey hname
      have hlinked := hedit.linked old hold parent property referenced
        (.intro hholder hforeignKey hname hproperty hreferenced)
      have hform := (Value.keyEqual_iff (hedit.plainBefore old hold _
        (ClassMapping.mem_columns_of_own (List.mem_append_right _ hwritable))) hplain).1 hlinked
      rw [← hcolumn, ← hform]
      exact htraversal.cell_own hedit.orderly hold _ (List.mem_append_right _ hwritable)

end IsEdit

end AggregateSync
