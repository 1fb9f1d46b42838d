import AggregateSync.Proofs.Database.Commands
import AggregateSync.Proofs.Database.Edit
import AggregateSync.Proofs.Database.Links

/-!
# The rows in the course of a run

While changes are written, a database holds the rows of the snapshot whose changes are
still to come, as the snapshot has them, and the rows of the members that were written,
as the current graph shows them at that moment.  `Progress` is this invariant; each of the
three kinds of writes keeps it.  No two of these rows have one key, which is why a
statement that is addressed by a key concerns the row of one member.
-/

namespace AggregateSync

/-- The change is about a member of the snapshot, or about what became of it. -/
def Change.Concerns (after : List Member) (change : Change) (old : Member) : Prop :=
  change.Describes .snapshot old ∨
    ∃ member ∈ after, member.SameIdentity old ∧ change.Describes .current member

/-- The members whose rows are held once some changes are written: those of the snapshot
that no such change concerns, and those of the current graph that were written. -/
inductive IsHeld (before after : List Member) (written : List Change) : Side → Member → Prop
  | pending {old : Member} (hold : old ∈ before)
      (hpending : ∀ change ∈ written, ¬ change.Concerns after old) :
      IsHeld before after written .snapshot old
  | written {member : Member} {change : Change} (hmember : member ∈ after)
      (hchange : change ∈ written) (hdescribes : change.Describes .current member) :
      IsHeld before after written .current member

/-- The row of a member that is held: that of the snapshot, or what the current graph
shows by now. -/
def heldRecord (registry : Registry) (before after : List Member) (state : Option Entity) :
    Side → Member → Record
  | .snapshot, old => old.record before
  | .current, member => member.recordBy (registry.shown state) after

/-- How far a run has come that has written some changes. -/
structure Progress (registry : Registry) (current : Option Entity)
    (before after : List Member) (written : List Change) (state : Option Entity)
    (rows : Set Record) : Prop where
  shape : Option.Rel Entity.SameShape current state
  untouched : ∀ member ∈ after, (∀ change ∈ written, ¬ change.Describes .current member) →
    registry.shown state member = member.entity.read
  intact : ∀ member ∈ after, ∀ field, ¬ member.IsFilledIn after field →
    registry.shown state member field = member.entity.read field
  bound : ∀ member ∈ after, member.IsBound (registry.shown state)
  references : ∀ member ∈ after, ∀ old ∈ before, member.SameIdentity old →
    ∀ property, member.mapping.IsReferenced property →
      (registry.shown state member property.field).keyForm =
        (old.entity.read property.field).keyForm
  stored : ∀ record, record ∈ rows ↔ ∃ side member, IsHeld before after written side member ∧
    heldRecord registry before after state side member = record
  apart : ∀ side member side' member', IsHeld before after written side member →
    IsHeld before after written side' member' →
    registry.sameKey (heldRecord registry before after state side member)
      (heldRecord registry before after state side' member') = true →
    side = side' ∧ member = member'

section Steps

variable {registry : Registry} {snapshot current : Option Entity} {filter : PropertyFilter}
  {before after : List Member} {changes written rest : List Change} {change : Change}
  {member old : Member} {state : Option Entity} {rows : Set Record}

/-- Before anything is written, a database holds the rows of the snapshot. -/
theorem Progress.start (hedit : IsEdit registry snapshot current filter before after changes) :
    Progress registry current before after [] current (recordsOf before) := by
  have hheld : ∀ {side : Side} {member : Member}, IsHeld before after [] side member →
      side = .snapshot ∧ member ∈ before := by
    intro side member hheld
    cases hheld with
    | pending hold _ => exact ⟨rfl, hold⟩
    | written _ hchange _ => exact absurd hchange List.not_mem_nil
  have hshown : ∀ member ∈ after, registry.shown current member = member.entity.read := by
    intro member hmember
    obtain ⟨root, rfl, htraversal⟩ := Registry.exists_traversal hedit.membersAfter hmember
    exact htraversal.shown hmember
  constructor
  case shape =>
    cases current with
    | none => exact .none
    | some root => exact .some (.refl root)
  case untouched =>
    intro member hmember _
    exact hshown member hmember
  case intact =>
    intro member hmember field _
    rw [hshown member hmember]
  case bound =>
    intro member hmember property hproperty
    rw [hshown member hmember]
    exact Value.isBound_of_isPlain (hedit.plainAfter member hmember property hproperty)
  case references =>
    intro member hmember old hold hsame property hproperty
    rw [hshown member hmember]
    exact hedit.references hmember hold hsame hproperty
  case stored =>
    intro record
    constructor
    · rintro ⟨old, hold, rfl⟩
      refine ⟨.snapshot, old, .pending hold ?_, rfl⟩
      intro change hchange
      exact absurd hchange List.not_mem_nil
    · rintro ⟨side, member, hmember, rfl⟩
      obtain ⟨rfl, hold⟩ := hheld hmember
      exact ⟨member, hold, rfl⟩
  case apart =>
    intro side member side' member' hmember hmember' hsame
    obtain ⟨rfl, hold⟩ := hheld hmember
    obtain ⟨rfl, hold'⟩ := hheld hmember'
    refine ⟨rfl, ?_⟩
    obtain ⟨root, _, htraversal⟩ := Registry.exists_traversal hedit.membersBefore hold
    obtain ⟨hmapping, hkeys⟩ := (htraversal.sameKey_recordBy hedit.orderly hold htraversal hold'
      _ _).1 hsame
    have hidentity : member.SameIdentity member' := by
      apply Member.sameIdentity_of_keys (hedit.knownBefore hold) (hedit.knownBefore hold')
        (hedit.plainBefore _ hold) (hedit.saved _ hold) (hedit.saved _ hold') hmapping
      intro key hkey
      have hcolumn : key ∈ member.mapping.columns := List.mem_append_left _ hkey
      apply (Value.keyEqual_iff (hedit.plainBefore _ hold key hcolumn) _).1 (hkeys key hkey).2
      apply hedit.plainBefore _ hold'
      rwa [hmapping]
    exact hedit.distinctBefore.eq_of_sameIdentity hold hold'
      (hidentity.trans hidentity.symm) hidentity

/-! ## Held rows -/

/-- The row of the snapshot that a change concerns is still there when its turn comes. -/
theorem IsEdit.isPending (hedit : IsEdit registry snapshot current filter before after changes)
    (hschedule : schedule changes = written ++ change :: rest) (hold : old ∈ before)
    (hconcerns : change.Concerns after old) :
    IsHeld before after written .snapshot old := by
  apply IsHeld.pending hold
  intro earlier hearlier hother
  have hgone : ∀ {other : Change}, other ∈ written ++ change :: rest →
      other.Describes .snapshot old → ∀ member ∈ after, ¬ member.SameIdentity old := by
    intro other hmem hdescribes member hmember hsame
    rw [← hschedule] at hmem
    exact (hedit.isGone_of_describes hmem hdescribes).2 member hmember hsame.symm
  have hearlierMem : earlier ∈ written ++ change :: rest := List.mem_append_left _ hearlier
  have hchangeMem : change ∈ written ++ change :: rest :=
    List.mem_append_right _ List.mem_cons_self
  rcases hconcerns with hdescribes | ⟨member, hmember, hsame, hdescribes⟩
  · rcases hother with hdescribes' | ⟨member', hmember', hsame', _⟩
    · exact hedit.not_describes hschedule hdescribes earlier hearlier hdescribes'
    · exact hgone hchangeMem hdescribes member' hmember' hsame'
  · rcases hother with hdescribes' | ⟨member', hmember', hsame', hdescribes'⟩
    · exact hgone hearlierMem hdescribes' member hmember hsame
    · obtain rfl := hedit.distinctAfter.eq_of_sameIdentity hmember' hmember hsame'.symm
        hsame.symm
      exact hedit.not_describes hschedule hdescribes earlier hearlier hdescribes'

/-- A turn that changes what one member shows leaves the other held rows as they are, if
what foreign keys refer to stays the same. -/
theorem heldRecord_frame
    (hedit : IsEdit registry snapshot current filter before after changes)
    {state' : Option Entity}
    (hframe : ∀ other ∈ after, other ≠ member →
      registry.shown state' other = registry.shown state other)
    (hreferences : ∀ other, IsHeld before after written .current other →
      ∀ relation, other.holder? after = some (member, relation) →
      ∀ property, member.mapping.IsReferenced property →
        (registry.shown state' member property.field).keyForm =
          (registry.shown state member property.field).keyForm)
    (hnew : ∀ earlier ∈ written, ¬ earlier.Describes .current member) {side : Side}
    {other : Member} (hheld : IsHeld before after written side other) :
    heldRecord registry before after state' side other =
      heldRecord registry before after state side other := by
  cases hheld with
  | pending _ _ => rfl
  | written hmem hchange hdescribes =>
      have hdiffer : other ≠ member := by
        rintro rfl
        exact hnew _ hchange hdescribes
      rw [heldRecord, heldRecord]
      apply Member.recordBy_congr rfl
      · intro property _
        rw [hframe other hmem hdiffer]
      · obtain ⟨root, _, htraversal⟩ := Registry.exists_traversal hedit.membersAfter hmem
        cases htraversal.hangs hmem with
        | root _ hholder => exact .roots hholder hholder
        | below parent number segment relation _ hparent _ _ hrelation hholder _ =>
            refine .below parent parent relation hholder hholder rfl
              (List.mem_of_getElem? hrelation) ?_
            intro property hproperty
            by_cases hsame : parent = member
            · subst hsame
              exact hreferences other (.written hmem hchange hdescribes) relation hholder
                property hproperty
            · rw [hframe parent (List.mem_of_getElem? hparent) hsame]

/-- What is held after one more change. -/
theorem isHeld_concat {side : Side} :
    IsHeld before after (written ++ [change]) side member ↔
      (IsHeld before after written side member ∧
        (side = .snapshot → ¬ change.Concerns after member)) ∨
      (side = .current ∧ member ∈ after ∧ change.Describes .current member) := by
  have hlast : change ∈ written ++ [change] :=
    List.mem_append_right _ (List.mem_singleton_self _)
  constructor
  · intro hheld
    cases hheld with
    | pending hold hpending =>
        left
        refine ⟨.pending hold ?_, fun _ => hpending change hlast⟩
        intro earlier hearlier
        exact hpending earlier (List.mem_append_left _ hearlier)
    | written hmember hchange hdescribes =>
        rcases List.mem_append.1 hchange with hearlier | hnow
        · left
          refine ⟨.written hmember hearlier hdescribes, ?_⟩
          intro hside
          cases hside
        · obtain rfl := List.mem_singleton.1 hnow
          exact .inr ⟨rfl, hmember, hdescribes⟩
  · rintro (⟨hheld, hconcerns⟩ | ⟨rfl, hmember, hdescribes⟩)
    · cases hheld with
      | pending hold hpending =>
          apply IsHeld.pending hold
          intro earlier hearlier
          rcases List.mem_append.1 hearlier with hearlier | hnow
          · exact hpending earlier hearlier
          · obtain rfl := List.mem_singleton.1 hnow
            exact hconcerns rfl
      | written hmember hchange hdescribes =>
          exact .written hmember (List.mem_append_left _ hchange) hdescribes
    · exact .written hmember hlast hdescribes

/-- What is held after a change of a member of the current graph: all that was held but the
row of the snapshot that the member had, and the member. -/
theorem IsEdit.isHeld_concat_current
    (hedit : IsEdit registry snapshot current filter before after changes)
    (hmember : member ∈ after) (hdescribes : change.Describes .current member) {side : Side}
    {other : Member} :
    IsHeld before after (written ++ [change]) side other ↔
      (IsHeld before after written side other ∧
        (side = .snapshot → ¬ member.SameIdentity other)) ∨
      (side = .current ∧ other = member) := by
  have hunique : ∀ {found : Member}, found ∈ after → change.Describes .current found →
      found = member := by
    intro found hfound hfoundDescribes
    exact hfoundDescribes.member_eq hdescribes (Registry.nodup_paths hedit.membersAfter) hfound
      hmember
  have hconcerns : change.Concerns after other ↔ member.SameIdentity other := by
    constructor
    · rintro (hside | ⟨found, hfound, hsame, hfoundDescribes⟩)
      · have hsides := hdescribes.side.symm.trans hside.side
        cases hsides
      · rwa [← hunique hfound hfoundDescribes]
    · intro hsame
      exact .inr ⟨member, hmember, hsame, hdescribes⟩
  rw [isHeld_concat, hconcerns]
  apply or_congr_right
  apply and_congr_right
  intro _
  constructor
  · rintro ⟨hother, hotherDescribes⟩
    exact hunique hother hotherDescribes
  · rintro rfl
    exact ⟨hmember, hdescribes⟩

/-- What is held after an added member: all that was held, and the member. -/
theorem IsEdit.isHeld_concat_added
    (hedit : IsEdit registry snapshot current filter before after changes)
    (hmember : member ∈ after) (hdescribes : change.Describes .current member)
    (hadded : ∀ old ∈ before, ¬ member.SameIdentity old) {side : Side} {other : Member} :
    IsHeld before after (written ++ [change]) side other ↔
      IsHeld before after written side other ∨ (side = .current ∧ other = member) := by
  rw [hedit.isHeld_concat_current hmember hdescribes]
  apply or_congr_left
  rw [and_iff_left_iff_imp]
  rintro hheld rfl
  cases hheld with
  | pending hold _ => exact hadded _ hold

/-- What is held after a modified member: the member in the place of its former self. -/
theorem IsEdit.isHeld_concat_modified
    (hedit : IsEdit registry snapshot current filter before after changes)
    (hmember : member ∈ after) (hold : old ∈ before) (hidentity : member.SameIdentity old)
    (hdescribes : change.Describes .current member) {side : Side} {other : Member} :
    IsHeld before after (written ++ [change]) side other ↔
      (IsHeld before after written side other ∧ ¬ (side = .snapshot ∧ other = old)) ∨
        (side = .current ∧ other = member) := by
  rw [hedit.isHeld_concat_current hmember hdescribes]
  apply or_congr_left
  apply and_congr_right
  intro hheld
  constructor
  · rintro hapart ⟨rfl, rfl⟩
    exact hapart rfl hidentity
  · rintro hother rfl hsame
    cases hheld with
    | pending hmem _ =>
        exact hother ⟨rfl, hedit.distinctBefore.eq_of_sameIdentity hmem hold hsame hidentity⟩

/-- What is held after a removed member: all that was held but the member. -/
theorem IsEdit.isHeld_concat_removed
    (hedit : IsEdit registry snapshot current filter before after changes)
    (hold : old ∈ before) (hdescribes : change.Describes .snapshot old) {side : Side}
    {other : Member} :
    IsHeld before after (written ++ [change]) side other ↔
      IsHeld before after written side other ∧ ¬ (side = .snapshot ∧ other = old) := by
  have hpast : ∀ {found : Member}, ¬ change.Describes .current found := by
    intro found hfound
    have hsides := hdescribes.side.symm.trans hfound.side
    cases hsides
  rw [isHeld_concat]
  constructor
  · rintro (⟨hheld, hconcerns⟩ | ⟨_, _, hcurrent⟩)
    · refine ⟨hheld, ?_⟩
      rintro ⟨rfl, rfl⟩
      exact hconcerns rfl (.inl hdescribes)
    · exact absurd hcurrent hpast
  · rintro ⟨hheld, hother⟩
    refine .inl ⟨hheld, ?_⟩
    rintro rfl
    cases hheld with
    | pending hmem _ =>
        rintro (hdescribes' | ⟨_, _, _, hcurrent⟩)
        · exact hother ⟨rfl, hdescribes'.member_eq hdescribes
            (Registry.nodup_paths hedit.membersBefore) hmem hold⟩
        · exact absurd hcurrent hpast

/-- Until its turn a member shows what it showed in the graph that was given. -/
theorem Progress.read_eq
    (hedit : IsEdit registry snapshot current filter before after changes)
    (hschedule : schedule changes = written ++ change :: rest) {met : Entity}
    (hprogress : Progress registry current before after written (some met) rows)
    (hmember : member ∈ after) (hdescribes : change.Describes .current member)
    {mapping : ClassMapping} {e : Entity} {address : Address}
    (hstands : change.StandsIn registry met mapping e address) (field : Field) :
    e.read field = member.entity.read field := by
  have huntouched := hprogress.untouched member hmember (hedit.not_describes hschedule hdescribes)
  rw [hstands.shown hdescribes] at huntouched
  exact congrFun huntouched field

/-- When its turn comes, a present member stands in the graph and shows what it did. -/
theorem Progress.exists_stands
    (hedit : IsEdit registry snapshot current filter before after changes)
    (hschedule : schedule changes = written ++ change :: rest)
    (hprogress : Progress registry current before after written state rows)
    (hmember : member ∈ after) (hdescribes : change.Describes .current member) :
    ∃ root met e address, state = some met ∧ IsTraversal registry root after ∧
      root.SameShape met ∧ change.StandsIn registry met member.mapping e address ∧
      current = some root ∧ ∀ field, e.read field = member.entity.read field := by
  obtain ⟨root, rfl, htraversal⟩ := hedit.traversalAfter hmember
  obtain ⟨met, rfl, hshape⟩ : ∃ met, state = some met ∧ root.SameShape met := by
    cases hprogress.shape with
    | some hshape => exact ⟨_, rfl, hshape⟩
  obtain ⟨address, hroot⟩ := htraversal.standsIn hmember hdescribes
  obtain ⟨e, hstands, _⟩ := hroot.of_sameShape hshape
  exact ⟨root, met, e, address, rfl, htraversal, hshape, hstands, rfl,
    hprogress.read_eq hedit hschedule hmember hdescribes hstands⟩

/-- Nothing that a member shows with its foreign key is DEFAULT. -/
theorem Progress.isBound_taken
    (hedit : IsEdit registry snapshot current filter before after changes)
    (hprogress : Progress registry current before after written state rows)
    (hmember : member ∈ after) {propagate : Bool} {link : ParentLink}
    (hlinks : member.LinksTo (registry.shown state) after propagate link) {e shown : Entity}
    {extra : Option (String × Value)}
    (htakes : TakesForeignKey member.mapping e link.foreignKey shown extra)
    (hread : ∀ field, e.read field = member.entity.read field) :
    ∀ property ∈ member.mapping.columns, (shown.read property.field).isBound = true := by
  intro property hproperty
  obtain ⟨root, _, htraversal⟩ := hedit.traversalAfter hmember
  apply hlinks.isBound_read htakes htraversal hmember hprogress.bound
  rw [hread]
  exact Value.isBound_of_isPlain (hedit.plainAfter member hmember property hproperty)

/-- A member of both graphs hangs where it hung. -/
theorem Progress.hangAlike (hedit : IsEdit registry snapshot current filter before after changes)
    (hprogress : Progress registry current before after written state rows)
    (hmember : member ∈ after) (hold : old ∈ before) (hsame : member.SameIdentity old) :
    member.HangAlike (registry.shown state) (fun other => other.entity.read) after before old := by
  have hplace := hedit.kept member hmember old hold hsame
  cases hholder : member.holder? after with
  | none => exact .roots hholder (hplace.root hholder)
  | some found =>
      obtain ⟨parent, relation⟩ := found
      obtain ⟨former, hformer, hparents⟩ := hplace.below parent relation hholder
      obtain ⟨root, _, htraversal⟩ := hedit.traversalAfter hmember
      obtain ⟨root', _, htraversal'⟩ := hedit.traversalBefore hold
      obtain ⟨hparent, hrelation, _⟩ := htraversal.suits hedit.orderly hmember hholder
      obtain ⟨hformerMem, _, _⟩ := htraversal'.suits hedit.orderly hold hformer
      refine .below parent former relation hholder hformer
        (hparents.mapping_eq (hedit.knownAfter hparent) (hedit.knownBefore hformerMem))
        hrelation ?_
      intro property hproperty
      exact (hprogress.references parent hparent former hformerMem hparents property
        hproperty).symm

/-- Conditions that name the keys of a row and are satisfied by it select no other row. -/
theorem Progress.selects_iff
    (hedit : IsEdit registry snapshot current filter before after changes)
    {engine : Engine} (hengine : engine.ComparesKeys registry)
    (hprogress : Progress registry current before after written state rows)
    (hpending : IsHeld before after written .snapshot old) (hold : old ∈ before)
    {mapping : ClassMapping} (hmapping : old.mapping = mapping)
    {conditions : List (String × Value)}
    (hkeys : ∀ key ∈ mapping.keys, ∃ value, (key.column, value) ∈ conditions ∧
      value.keyForm = (old.entity.read key.field).keyForm)
    (hfinds : ∀ condition ∈ conditions,
      engine.compare .eq ((old.record before).cell condition.1) condition.2 = .yes)
    {side : Side} {member : Member} (hheld : IsHeld before after written side member) :
    engine.selects mapping.table (Expr.columnsAre? conditions)
        (heldRecord registry before after state side member) = true ↔
      side = .snapshot ∧ member = old := by
  subst hmapping
  rw [Engine.selects_columnsAre?]
  constructor
  · rintro ⟨htable, hfound⟩
    have hsame : registry.sameKey (old.record before)
        (heldRecord registry before after state side member) = true := by
      rw [Registry.sameKey_iff hedit.orderly (hedit.knownBefore hold).mem_mappings rfl]
      refine ⟨htable, ?_⟩
      intro key hkey
      obtain ⟨value, hcondition, hform⟩ := hkeys key hkey
      have hplain := Value.isPlain_of_keyForm_eq hform
        (hedit.plainBefore old hold key (List.mem_append_left _ hkey))
      have hpresent : value.isNull = false := by
        rw [← value.isNull_keyForm, hform, Value.isNull_keyForm, hedit.present_key hold hkey]
      have hequal := (hengine.equal _ _ hplain hpresent).1 (hfound _ hcondition)
      rw [Value.keyEqual, hform] at hequal
      rw [hedit.cell_key hold hkey, Value.isNull_keyForm, Value.keyEqual, Value.keyForm_keyForm,
        Value.equal_comm]
      exact ⟨hedit.present_key hold hkey, hequal⟩
    obtain ⟨rfl, rfl⟩ := hprogress.apart _ _ _ _ hpending hheld hsame
    exact ⟨rfl, rfl⟩
  · rintro ⟨rfl, rfl⟩
    exact ⟨rfl, hfinds⟩

/-! ## Steps -/

/-- What was not written after one more change was not written before. -/
theorem Progress.untouched_concat
    (hprogress : Progress registry current before after written state rows)
    (hdescribes : change.Describes .current member) {state' : Option Entity}
    (hframe : ∀ other ∈ after, other ≠ member →
      registry.shown state' other = registry.shown state other) :
    ∀ other ∈ after, (∀ earlier ∈ written ++ [change], ¬ earlier.Describes .current other) →
      registry.shown state' other = other.entity.read := by
  intro other hother huntouched
  have hdiffer : other ≠ member := by
    rintro rfl
    exact huntouched change (List.mem_append_right _ (List.mem_singleton_self _)) hdescribes
  rw [hframe other hother hdiffer]
  apply hprogress.untouched other hother
  intro earlier hearlier
  exact huntouched earlier (List.mem_append_left _ hearlier)

/-- What one more change leaves intact, given what it leaves of its own member. -/
theorem Progress.intact_concat
    (hprogress : Progress registry current before after written state rows)
    {state' : Option Entity}
    (hframe : ∀ other ∈ after, other ≠ member →
      registry.shown state' other = registry.shown state other)
    (hintact : ∀ field, ¬ member.IsFilledIn after field →
      registry.shown state' member field = member.entity.read field) :
    ∀ other ∈ after, ∀ field, ¬ other.IsFilledIn after field →
      registry.shown state' other field = other.entity.read field := by
  intro other hother field hfield
  by_cases hsame : other = member
  case pos =>
    subst hsame
    exact hintact field hfield
  case neg =>
    rw [hframe other hother hsame]
    exact hprogress.intact other hother field hfield

/-- One more change leaves no DEFAULT, if it leaves none to its own member. -/
theorem Progress.bound_concat
    (hprogress : Progress registry current before after written state rows)
    {state' : Option Entity}
    (hframe : ∀ other ∈ after, other ≠ member →
      registry.shown state' other = registry.shown state other)
    (hbound : member.IsBound (registry.shown state')) :
    ∀ other ∈ after, other.IsBound (registry.shown state') := by
  intro other hother
  by_cases hsame : other = member
  case pos =>
    subst hsame
    exact hbound
  case neg =>
    rw [Member.IsBound, hframe other hother hsame]
    exact hprogress.bound other hother

/-- Rows stay apart when one is added that has the key of none. -/
theorem apart_of_new {kept now : Side → Member → Prop} {record : Side → Member → Record}
    {newSide : Side} {new : Member}
    (hnow : ∀ {side : Side} {member : Member}, now side member ↔
      kept side member ∨ (side = newSide ∧ member = new))
    (hkept : ∀ side member side' member', kept side member → kept side' member' →
      registry.sameKey (record side member) (record side' member') = true →
      side = side' ∧ member = member')
    (hnew : ∀ {side : Side} {member : Member}, kept side member →
      ¬ registry.sameKey (record newSide new) (record side member) = true) :
    ∀ side member side' member', now side member → now side' member' →
      registry.sameKey (record side member) (record side' member') = true →
      side = side' ∧ member = member' := by
  intro side member side' member' hheld hheld' hsame
  rcases hnow.1 hheld with hearlier | ⟨rfl, rfl⟩
  · rcases hnow.1 hheld' with hearlier' | ⟨rfl, rfl⟩
    · exact hkept side member side' member' hearlier hearlier' hsame
    · exact absurd (Registry.sameKey_symm hsame) (hnew hearlier)
  · rcases hnow.1 hheld' with hearlier' | ⟨rfl, rfl⟩
    · exact absurd hsame (hnew hearlier')
    · exact ⟨rfl, rfl⟩

/-- Rows are those of what is held when the row of one that is held no longer was assigned that
of its successor. -/
theorem stored_of_replaced {kept now : Side → Member → Prop}
    {record record' : Side → Member → Record} {rows : Set Record} {oldSide newSide : Side}
    {old new : Member}
    (hstored : ∀ found, found ∈ rows ↔ ∃ side member, kept side member ∧
      record side member = found)
    (hnow : ∀ {side : Side} {member : Member}, now side member ↔
      (kept side member ∧ ¬ (side = oldSide ∧ member = old)) ∨ (side = newSide ∧ member = new))
    (hkeep : ∀ {side : Side} {member : Member}, kept side member →
      record' side member = record side member)
    (hold : kept oldSide old) {selects : Record → Bool} {assigned : List (String × Value)}
    (hselects : ∀ side member, kept side member →
      (selects (record side member) = true ↔ side = oldSide ∧ member = old))
    (hassigned : (record oldSide old).assign assigned = record' newSide new) (found : Record) :
    found ∈ (fun record : Record =>
        if selects record then record.assign assigned else record) '' rows ↔
      ∃ side member, now side member ∧ record' side member = found := by
  constructor
  · rintro ⟨stored, hmem, rfl⟩
    obtain ⟨side, member, hheld, rfl⟩ := (hstored stored).1 hmem
    dsimp only
    split
    case isTrue htrue =>
      obtain ⟨rfl, rfl⟩ := (hselects side member hheld).1 htrue
      exact ⟨newSide, new, hnow.2 (.inr ⟨rfl, rfl⟩), hassigned.symm⟩
    case isFalse hfalse =>
      refine ⟨side, member, hnow.2 (.inl ⟨hheld, ?_⟩), hkeep hheld⟩
      rwa [← hselects side member hheld]
  · rintro ⟨side, member, hheld, rfl⟩
    rcases hnow.1 hheld with ⟨hheld, hother⟩ | ⟨rfl, rfl⟩
    · refine ⟨record side member, (hstored _).2 ⟨side, member, hheld, rfl⟩, ?_⟩
      rw [← hselects side member hheld] at hother
      dsimp only
      rw [if_neg hother, hkeep hheld]
    · refine ⟨record oldSide old, (hstored _).2 ⟨oldSide, old, hold, rfl⟩, ?_⟩
      dsimp only
      rw [if_pos ((hselects _ _ hold).2 ⟨rfl, rfl⟩)]
      exact hassigned

/-- Writing an added member adds its row. -/
theorem Progress.insert
    (hedit : IsEdit registry snapshot current filter before after changes)
    (hprogress : Progress registry current before after written state rows)
    (hmember : member ∈ after) (hdescribes : change.Describes .current member)
    (hnew : ∀ other ∈ written, ¬ other.Describes .current member)
    (hadded : ∀ old ∈ before, ¬ member.SameIdentity old) {state' : Option Entity}
    (hshape : Option.Rel Entity.SameShape current state')
    (hframe : ∀ other ∈ after, other ≠ member →
      registry.shown state' other = registry.shown state other)
    (hintact : ∀ field, ¬ member.IsFilledIn after field →
      registry.shown state' member field = member.entity.read field)
    (hbound : member.IsBound (registry.shown state'))
    (htop : ∀ other relation, IsHeld before after written .current other →
      other.holder? after ≠ some (member, relation)) {record : Record}
    (hrecord : record = member.recordBy (registry.shown state') after)
    (hfresh : ∀ other ∈ rows, registry.sameKey record other = false) :
    Progress registry current before after (written ++ [change]) state'
      {other | other = record ∨ other ∈ rows} := by
  have hkeep : ∀ {side : Side} {other : Member}, IsHeld before after written side other →
      heldRecord registry before after state' side other =
        heldRecord registry before after state side other := by
    intro side other hheld
    apply heldRecord_frame hedit hframe _ hnew hheld
    intro below hbelow relation hholder
    exact absurd hholder (htop below relation hbelow)
  have hnow : ∀ {side : Side} {other : Member},
      IsHeld before after (written ++ [change]) side other ↔
        IsHeld before after written side other ∨ (side = .current ∧ other = member) :=
    hedit.isHeld_concat_added hmember hdescribes hadded
  constructor
  case shape => exact hshape
  case untouched => exact hprogress.untouched_concat hdescribes hframe
  case intact => exact hprogress.intact_concat hframe hintact
  case bound => exact hprogress.bound_concat hframe hbound
  case references =>
    intro other hother old hold hsame property hproperty
    have hdiffer : other ≠ member := by
      rintro rfl
      exact hadded old hold hsame
    rw [hframe other hother hdiffer]
    exact hprogress.references other hother old hold hsame property hproperty
  case stored =>
    intro found
    constructor
    · rintro (rfl | hfound)
      · exact ⟨.current, member, hnow.2 (.inr ⟨rfl, rfl⟩), hrecord.symm⟩
      · obtain ⟨side, other, hheld, rfl⟩ := (hprogress.stored found).1 hfound
        exact ⟨side, other, hnow.2 (.inl hheld), hkeep hheld⟩
    · rintro ⟨side, other, hheld, rfl⟩
      rcases hnow.1 hheld with hheld | ⟨rfl, rfl⟩
      · right
        rw [hkeep hheld]
        exact (hprogress.stored _).2 ⟨side, other, hheld, rfl⟩
      · exact .inl hrecord.symm
  case apart =>
    apply apart_of_new hnow
    · intro side other side' other' hheld hheld' hsame
      rw [hkeep hheld, hkeep hheld'] at hsame
      exact hprogress.apart side other side' other' hheld hheld' hsame
    · intro side other hheld
      rw [hkeep hheld, Bool.not_eq_true]
      rw [hrecord] at hfresh
      exact hfresh _ ((hprogress.stored _).2 ⟨side, other, hheld, rfl⟩)

/-- Writing a removed member takes its row away. -/
theorem Progress.delete
    (hedit : IsEdit registry snapshot current filter before after changes)
    (hprogress : Progress registry current before after written state rows)
    (hold : old ∈ before) (hdescribes : change.Describes .snapshot old)
    {selects : Record → Bool}
    (hselects : ∀ side member, IsHeld before after written side member →
      (selects (heldRecord registry before after state side member) = true ↔
        side = .snapshot ∧ member = old)) :
    Progress registry current before after (written ++ [change]) state
      {record ∈ rows | selects record = false} := by
  have hnow : ∀ {side : Side} {other : Member},
      IsHeld before after (written ++ [change]) side other ↔
        IsHeld before after written side other ∧ ¬ (side = .snapshot ∧ other = old) :=
    hedit.isHeld_concat_removed hold hdescribes
  constructor
  case shape => exact hprogress.shape
  case untouched =>
    intro member hmember huntouched
    apply hprogress.untouched member hmember
    intro earlier hearlier
    exact huntouched earlier (List.mem_append_left _ hearlier)
  case intact => exact hprogress.intact
  case bound => exact hprogress.bound
  case references => exact hprogress.references
  case stored =>
    intro record
    constructor
    · rintro ⟨hrecord, hkept⟩
      obtain ⟨side, member, hheld, rfl⟩ := (hprogress.stored record).1 hrecord
      refine ⟨side, member, hnow.2 ⟨hheld, ?_⟩, rfl⟩
      intro hsame
      rw [(hselects side member hheld).2 hsame] at hkept
      cases hkept
    · rintro ⟨side, member, hheld, rfl⟩
      obtain ⟨hheld, hother⟩ := hnow.1 hheld
      refine ⟨(hprogress.stored _).2 ⟨side, member, hheld, rfl⟩, ?_⟩
      rw [← Bool.not_eq_true, hselects side member hheld]
      exact hother
  case apart =>
    intro side member side' member' hheld hheld' hsame
    exact hprogress.apart side member side' member' (hnow.1 hheld).1 (hnow.1 hheld').1 hsame

/-- Writing a modified member puts its present row in the place of the former one. -/
theorem Progress.update
    (hedit : IsEdit registry snapshot current filter before after changes)
    (hprogress : Progress registry current before after written state rows)
    (hmember : member ∈ after) (hold : old ∈ before)
    (hidentity : member.SameIdentity old) (hdescribes : change.Describes .current member)
    (hnew : ∀ other ∈ written, ¬ other.Describes .current member)
    (hpending : IsHeld before after written .snapshot old) {state' : Option Entity}
    (hshape : Option.Rel Entity.SameShape current state')
    (hframe : ∀ other ∈ after, other ≠ member →
      registry.shown state' other = registry.shown state other)
    (hintact : ∀ field, ¬ member.IsFilledIn after field →
      registry.shown state' member field = member.entity.read field)
    (hbound : member.IsBound (registry.shown state'))
    (hreferences : ∀ property, member.mapping.IsReferenced property →
      (registry.shown state' member property.field).keyForm =
        (old.entity.read property.field).keyForm)
    {selects : Record → Bool} {assigned : List (String × Value)}
    (hselects : ∀ side member, IsHeld before after written side member →
      (selects (heldRecord registry before after state side member) = true ↔
        side = .snapshot ∧ member = old))
    (hassigned : (old.record before).assign assigned =
      member.recordBy (registry.shown state') after)
    (hkey : ∀ record, registry.sameKey (member.recordBy (registry.shown state') after) record =
      registry.sameKey (old.record before) record) :
    Progress registry current before after (written ++ [change]) state'
      ((fun record : Record =>
        if selects record then record.assign assigned else record) '' rows) := by
  have hkeep : ∀ {side : Side} {other : Member}, IsHeld before after written side other →
      heldRecord registry before after state' side other =
        heldRecord registry before after state side other := by
    intro side other hheld
    apply heldRecord_frame hedit hframe _ hnew hheld
    intro _ _ _ _ property hproperty
    rw [hreferences property hproperty]
    exact (hprogress.references member hmember old hold hidentity property hproperty).symm
  have hnow : ∀ {side : Side} {other : Member},
      IsHeld before after (written ++ [change]) side other ↔
        (IsHeld before after written side other ∧ ¬ (side = .snapshot ∧ other = old)) ∨
          (side = .current ∧ other = member) :=
    hedit.isHeld_concat_modified hmember hold hidentity hdescribes
  constructor
  case shape => exact hshape
  case untouched => exact hprogress.untouched_concat hdescribes hframe
  case intact => exact hprogress.intact_concat hframe hintact
  case bound => exact hprogress.bound_concat hframe hbound
  case references =>
    intro other hother old' hold' hsame property hproperty
    by_cases hdiffer : other = member
    · subst hdiffer
      obtain rfl := hedit.distinctBefore.eq_of_sameIdentity hold' hold hsame hidentity
      exact hreferences property hproperty
    · rw [hframe other hother hdiffer]
      exact hprogress.references other hother old' hold' hsame property hproperty
  case stored =>
    exact stored_of_replaced hprogress.stored hnow hkeep hpending hselects hassigned
  case apart =>
    apply apart_of_new hnow
    · rintro side other side' other' ⟨hheld, _⟩ ⟨hheld', _⟩ hsame
      rw [hkeep hheld, hkeep hheld'] at hsame
      exact hprogress.apart side other side' other' hheld hheld' hsame
    · -- the new row has the key of the old one, so no other held row shares it
      rintro side other ⟨hheld, hother⟩ hsame
      rw [hkeep hheld, heldRecord, hkey] at hsame
      obtain ⟨rfl, rfl⟩ := hprogress.apart _ _ _ _ hpending hheld hsame
      exact hother ⟨rfl, rfl⟩

end Steps

end AggregateSync
