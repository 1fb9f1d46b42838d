import AggregateSync.Proofs.Database.Cells
import AggregateSync.Proofs.Database.Links
import AggregateSync.Proofs.Database.Progress

/-!
# Updated rows

A modified member takes its foreign key anew, which changes nothing in key form because the
member hangs where it hung.  Its UPDATE therefore finds the row of the snapshot by keys that
are the same, and makes it the present row.
-/

namespace AggregateSync

section Kept

variable {registry : Registry} {snapshot current : Option Entity} {filter : PropertyFilter}
  {before after : List Member} {changes written : List Change} {state : Option Entity}
  {held : Set Record} {member old : Member} {propagate : Bool} {link : ParentLink}
  {e shown : Entity} {extra : Option (String × Value)} {engine : Engine}

/-- What is the same in a member of both graphs, in key form, stays the same when it takes
its own foreign key. -/
theorem Progress.kept_taken
    (hedit : IsEdit registry snapshot current filter before after changes)
    (hprogress : Progress registry current before after written state held)
    (hmember : member ∈ after) (hold : old ∈ before) (hsame : member.SameIdentity old)
    (hlinks : member.LinksTo (registry.shown state) after propagate link)
    (htakes : TakesForeignKey member.mapping e link.foreignKey shown extra)
    (hread : ∀ field, e.read field = member.entity.read field) {field : Field}
    (hkept : (member.entity.read field).keyForm = (old.entity.read field).keyForm) :
    (shown.read field).keyForm = (old.entity.read field).keyForm := by
  rcases hlinks.read_eq_or htakes field with
    huntaken | ⟨parent, found, referenced, hrefers, rfl, hconverted⟩
  · rw [huntaken, hread, hkept]
  -- the field is the foreign key, and the parent shows what it did
  obtain ⟨root, _, htraversal⟩ := hedit.traversalAfter hmember
  obtain ⟨hwritable, hparent, hreferenced⟩ := htraversal.refers hedit.orderly hmember hrefers
  obtain ⟨former, hformer, hparents, hmapping, hrefersBefore⟩ :=
    hedit.refers_before hmember hold hsame hparent hrefers
  have hform : (old.entity.read found.field).keyForm =
      (registry.shown state parent referenced.field).keyForm := by
    rw [hprogress.references parent hparent former hformer hparents referenced hreferenced]
    apply (Value.keyEqual_iff _ _).1 (hedit.linked old hold former found referenced hrefersBefore)
    · apply hedit.plainBefore old hold
      rw [hsame.mapping_eq (hedit.knownAfter hmember) (hedit.knownBefore hold)]
      exact ClassMapping.mem_columns_of_own (List.mem_append_right _ hwritable)
    · apply hedit.plainBefore former hformer
      rw [hmapping]
      exact hreferenced.mem_columns
  rw [hform]
  exact FieldType.keyForm_of_read (Entity.holds_read found.field old.entity) hform hconverted

/-- So the keys of a member of both graphs stay the same. -/
theorem Progress.keys_taken
    (hedit : IsEdit registry snapshot current filter before after changes)
    (hprogress : Progress registry current before after written state held)
    (hmember : member ∈ after) (hold : old ∈ before) (hsame : member.SameIdentity old)
    (hlinks : member.LinksTo (registry.shown state) after propagate link)
    (htakes : TakesForeignKey member.mapping e link.foreignKey shown extra)
    (hread : ∀ field, e.read field = member.entity.read field) :
    ∀ key ∈ member.mapping.keys,
      (shown.read key.field).keyForm = (old.entity.read key.field).keyForm := by
  intro key hkey
  apply hprogress.kept_taken hedit hmember hold hsame hlinks htakes hread
  exact (hsame.keyForm_eq (hedit.knownAfter hmember) (hedit.knownBefore hold)
    (hedit.plainAfter member hmember) (hedit.plainBefore old hold) hkey).symm

/-- The constant that an UPDATE names is found in the row of the snapshot. -/
theorem IsEdit.finds_subset
    (hedit : IsEdit registry snapshot current filter before after changes)
    (hengine : engine.ComparesKeys registry) (hmember : member ∈ after) (hold : old ∈ before)
    (hsame : member.SameIdentity old) {values : Member → Field → Value}
    (hlinks : member.LinksTo values after propagate link) :
    ∀ entry ∈ (link.subset.map SubsetColumn.entry).toList,
      engine.compare .eq ((old.record before).cell entry.1) entry.2 = .yes := by
  have hplace := hedit.kept member hmember old hold hsame
  cases hlinks with
  | root =>
      intro entry hentry
      exact absurd hentry List.not_mem_nil
  | held hholder =>
      obtain ⟨former, hformer, _⟩ := hplace.below _ _ hholder
      exact hedit.finds_constant hengine hold hformer
  | given hholder =>
      obtain ⟨former, hformer, _⟩ := hplace.below _ _ hholder
      exact hedit.finds_constant hengine hold hformer

/-- The row of the snapshot satisfies all conditions of an UPDATE that names the keys. -/
theorem IsEdit.finds_update
    (hedit : IsEdit registry snapshot current filter before after changes)
    (hengine : engine.ComparesKeys registry) (hmember : member ∈ after) (hold : old ∈ before)
    (hsame : member.SameIdentity old) {values : Member → Field → Value}
    (hlinks : member.LinksTo values after propagate link)
    (hkeys : ∀ key ∈ member.mapping.keys,
      (shown.read key.field).keyForm = (old.entity.read key.field).keyForm) :
    ∀ condition ∈ ClassMapping.entries shown member.mapping.keys ++
        (link.subset.map SubsetColumn.entry).toList,
      engine.compare .eq ((old.record before).cell condition.1) condition.2 = .yes := by
  have hmapping := hsame.mapping_eq (hedit.knownAfter hmember) (hedit.knownBefore hold)
  intro condition hcondition
  rcases List.mem_append.1 hcondition with hentry | hconstant
  · obtain ⟨key, hkey, rfl⟩ := List.mem_map.1 hentry
    have hformer : key ∈ old.mapping.keys := by rwa [hmapping]
    have hform := hkeys key hkey
    apply hengine.finds
    · exact Value.isPlain_of_keyForm_eq hform
        (hedit.plainBefore old hold key (List.mem_append_left _ hformer))
    · rw [← Value.isNull_keyForm, hform, Value.isNull_keyForm, hedit.present_key hold hformer]
    · rw [hform, hedit.cell_key hold hformer]
  · exact hedit.finds_subset hengine hmember hold hsame hlinks condition hconstant

/-- What the row of the snapshot holds, said with what the UPDATE of its member shows. -/
theorem Progress.entriesBefore_eq
    (hedit : IsEdit registry snapshot current filter before after changes)
    (hprogress : Progress registry current before after written state held)
    (hmember : member ∈ after) (hold : old ∈ before) (hsame : member.SameIdentity old)
    (hkeys : ∀ key ∈ member.mapping.keys,
      (shown.read key.field).keyForm = (old.entity.read key.field).keyForm) :
    inKeyForm (old.entriesBy (fun other => other.entity.read) before) =
      inKeyForm (ClassMapping.entries shown member.mapping.keys) ++
        inKeyForm (ClassMapping.entries old.entity member.mapping.writableProperties) ++
        inKeyForm (member.linkBy (registry.shown state) after) := by
  have hmapping := hsame.mapping_eq (hedit.knownAfter hmember) (hedit.knownBefore hold)
  have hkeyForms : inKeyForm (ClassMapping.entries old.entity member.mapping.keys) =
      inKeyForm (ClassMapping.entries shown member.mapping.keys) := by
    rw [ClassMapping.inKeyForm_entries, ClassMapping.inKeyForm_entries]
    apply List.map_congr_left
    intro key hkey
    rw [ClassMapping.storedEntry, ClassMapping.storedEntry, hkeys key hkey]
  rw [Member.entriesBy, inKeyForm_append,
    (hprogress.hangAlike hedit hmember hold hsame).linkBy_eq hmapping, hmapping]
  change inKeyForm (ClassMapping.entries old.entity (_ ++ _)) ++ _ = _
  rw [ClassMapping.entries_append, inKeyForm_append, hkeyForms]

/-- The columns that an UPDATE assigns are different. -/
theorem IsEdit.nodup_assigned
    (hedit : IsEdit registry snapshot current filter before after changes)
    (hmember : member ∈ after) {values : Member → Field → Value}
    (hlinks : member.LinksTo values after propagate link)
    (htakes : TakesForeignKey member.mapping e link.foreignKey shown extra) :
    ((ClassMapping.entries shown member.mapping.writableProperties ++
      extra.toList).map Prod.fst).Nodup := by
  obtain ⟨root, _, htraversal⟩ := hedit.traversalAfter hmember
  have hcolumns := htraversal.nodup_entriesBy hedit.orderly hmember values
  rw [Member.entriesBy, List.map_append, Member.map_fst_own] at hcolumns
  apply List.Sublist.nodup _ hcolumns
  rw [List.map_append, ClassMapping.ownColumns, List.map_append, ClassMapping.entries,
    List.map_map]
  exact (List.sublist_append_right _ _).append ((hlinks.extra_sublist htakes).map _)

/-- An UPDATE leaves no value and no condition to the database. -/
theorem Progress.isClear_update
    (hedit : IsEdit registry snapshot current filter before after changes)
    (hengine : engine.ComparesKeys registry)
    (hprogress : Progress registry current before after written state held)
    (hmember : member ∈ after)
    (hlinks : member.LinksTo (registry.shown state) after propagate link)
    (htakes : TakesForeignKey member.mapping e link.foreignKey shown extra)
    (hread : ∀ field, e.read field = member.entity.read field) :
    (Command.update (memberUpdate member.mapping shown extra link.subset)).isClear = true := by
  obtain ⟨root, _, htraversal⟩ := hedit.traversalAfter hmember
  have hcarried := hlinks.isBound_entries htakes hedit.orderly hengine htraversal hmember
    hprogress.bound
  rw [Command.isClear, memberUpdate,
    assignAll_of_nodup (hedit.nodup_assigned hmember hlinks htakes), Bool.and_eq_true,
    List.all_eq_true]
  refine ⟨List.forall_mem_append.2 ⟨?_, (List.forall_mem_append.1 hcarried).1⟩,
    Expr.isClear_columnsAre? _⟩
  apply ClassMapping.isBound_entries (hprogress.isBound_taken hedit hmember hlinks htakes hread)
  intro property hproperty
  exact ClassMapping.mem_columns_of_own (List.mem_append_right _ hproperty)

/-- What an UPDATE assigns makes the row of the snapshot the present one. -/
theorem Progress.assign_eq
    (hedit : IsEdit registry snapshot current filter before after changes)
    (hprogress : Progress registry current before after written state held)
    (hmember : member ∈ after) (hold : old ∈ before) (hsame : member.SameIdentity old)
    (hlinks : member.LinksTo (registry.shown state) after propagate link)
    (htakes : TakesForeignKey member.mapping e link.foreignKey shown extra)
    (hkeys : ∀ key ∈ member.mapping.keys,
      (shown.read key.field).keyForm = (old.entity.read key.field).keyForm)
    {values : Member → Field → Value} (hvalues : values member = fun field => shown.read field)
    (hframe : ∀ other ∈ after, other ≠ member → values other = registry.shown state other) :
    (old.record before).assign (assignAll
        (ClassMapping.entries shown member.mapping.writableProperties ++ extra.toList)) =
      member.recordBy values after := by
  obtain ⟨root, _, htraversal⟩ := hedit.traversalAfter hmember
  have hentries : member.entriesBy values after =
      ClassMapping.entries shown member.mapping.keys ++
        ClassMapping.entries shown member.mapping.writableProperties ++
        member.linkBy (registry.shown state) after := by
    rw [Member.entriesBy, htraversal.linkBy_frame hmember hframe, hvalues,
      ← ClassMapping.entries_append]
    rfl
  have hcolumns := htraversal.nodup_entriesBy hedit.orderly hmember values
  rw [hentries] at hcolumns
  have hbefore := hprogress.entriesBefore_eq hedit hmember hold hsame hkeys
  rw [assignAll_of_nodup (hedit.nodup_assigned hmember hlinks htakes), Record.assign,
    Member.recordBy, Record.ofEntries, Record.mk.injEq, hentries]
  refine ⟨?_, ?_⟩
  · rw [Member.record, Member.recordBy, Record.table_ofEntries,
      hsame.mapping_eq (hedit.knownAfter hmember) (hedit.knownBefore hold)]
  · funext column
    change (_ : Option Value).getD (((inKeyForm (old.entriesBy _ before)).lookup column).getD _) = _
    rw [← Option.getD_or, hbefore, inKeyForm_append, inKeyForm_append, inKeyForm_append]
    congr 1
    apply lookup_overwrite
    · rw [← inKeyForm_append, ← inKeyForm_append, map_fst_inKeyForm]
      exact hcolumns
    · rw [map_fst_inKeyForm, map_fst_inKeyForm, ClassMapping.entries, ClassMapping.entries,
        List.map_map, List.map_map]
      rfl
    · intro entry hentry
      exact ((hlinks.extra_sublist htakes).map _).subset hentry

end Kept

section Turns

variable {ω : Type} {environment : Environment ω} {registry : Registry} {dialect : Dialect}
  {channel : Channel} {snapshot current : Option Entity} {options : PersistOptions}
  {filter : PropertyFilter} {before after : List Member} {changes written rest : List Change}
  {change : Change} {rows : ω → Set Record} {state state' : Option Entity} {world later : ω}
  {issued : Bool} {requests : List Request} {engine : Engine}

/-- Updating a member puts its present row in the place of the former one. -/
theorem Progress.updateMember
    (hedit : IsEdit registry snapshot current filter before after changes)
    (hengine : engine.ComparesKeys registry)
    (hstores : Stores environment registry dialect engine rows)
    (hschedule : schedule changes = written ++ change :: rest)
    (hprogress : Progress registry current before after written state (rows world))
    {member old : Member} (hmember : member ∈ after) (hold : old ∈ before)
    (hdescribes : change.Describes .current member) (hsame : member.SameIdentity old)
    (hdiffer : differences filter member.mapping old.entity member.entity ≠ [])
    (hturn : (Task.updateMember registry dialect channel snapshot options change).execution
      environment state world = ⟨.ok issued, state', later, requests⟩) :
    Progress registry current before after (written ++ [change]) state' (rows later) := by
  obtain ⟨root, met, e, address, rfl, htraversal, hshape, hstands, rfl, hread⟩ :=
    hprogress.exists_stands hedit hschedule hmember hdescribes
  obtain ⟨link, shown, extra, hlink, htakes, rfl, _, hsent⟩ := updateMember_eq_ok hstands hturn
  rw [memberUpdate_isEmpty_of_differences hdiffer, if_neg Bool.false_ne_true] at hsent
  obtain ⟨_, count, hanswer⟩ := hsent
  have hknown := hedit.knownAfter hmember
  have hknown' := hedit.knownBefore hold
  have hmapping := hsame.mapping_eq hknown hknown'
  have hlinks := htraversal.linksTo hmember hdescribes rfl hshape hlink
  have hlast := hstands.putAt htakes.type_eq htakes.members_eq
  have hrelabels := hstands.relabels_putAt htakes
  have hnew := hedit.not_describes hschedule hdescribes
  have hkeys := hprogress.keys_taken hedit hmember hold hsame hlinks htakes hread
  have hfinds := hedit.finds_update hengine hmember hold hsame hlinks hkeys
  have hframe : ∀ other ∈ after, other ≠ member →
      registry.shown (some (met.putAt address shown)) other =
        registry.shown (some met) other := by
    intro other hother hdiffer
    exact htraversal.shown_of_relabels hshape hmember hdescribes hstands hrelabels hother hdiffer
  obtain ⟨id, haffects⟩ := hstores.execute _ (.update _) _ _ _
    (hprogress.isClear_update hedit hengine hmember hlinks htakes hread) hanswer
  have hrows : rows later = _ := haffects
  have hpending : IsHeld before after written .snapshot old :=
    hedit.isPending hschedule hold (.inr ⟨member, hmember, hsame, hdescribes⟩)
  rw [hrows]
  apply hprogress.update hedit hmember hold hsame hdescribes hnew hpending
    (.some (hshape.trans hrelabels.shape)) hframe
  · intro field hfield
    rw [hlast.shown hdescribes, ← hread]
    exact hlinks.read_eq htakes hfield
  · intro property hproperty
    rw [hlast.shown hdescribes]
    exact hprogress.isBound_taken hedit hmember hlinks htakes hread property hproperty
  · intro property hproperty
    rw [hlast.shown hdescribes]
    exact hprogress.kept_taken hedit hmember hold hsame hlinks htakes hread
      (hedit.references hmember hold hsame hproperty)
  · intro side other hheld
    apply hprogress.selects_iff hedit hengine hpending hold hmapping _ hfinds hheld
    intro key hkey
    exact ⟨_, List.mem_append_left _ (List.mem_map_of_mem hkey), hkeys key hkey⟩
  · exact hprogress.assign_eq hedit hmember hold hsame hlinks htakes hkeys
      (hlast.shown hdescribes) hframe
  · apply Registry.sameKey_congr hedit.orderly hknown.mem_mappings
    · rw [Member.record, Member.recordBy, Record.table_ofEntries, hmapping]
    · rfl
    · intro key hkey
      rw [htraversal.cell_own hedit.orderly hmember _ (List.mem_append_left _ hkey),
        hlast.shown hdescribes, hkeys key hkey,
        hedit.cell_key hold (show key ∈ old.mapping.keys by rwa [hmapping])]

end Turns

end AggregateSync
