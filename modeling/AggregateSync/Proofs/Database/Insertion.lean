import AggregateSync.Proofs.Database.Cells
import AggregateSync.Proofs.Database.Links
import AggregateSync.Proofs.Database.Progress

/-!
# Inserted rows

An added member takes its foreign key from its parent and, if it awaits one, its key from
the database.  Both are written into the graph, which then shows the new row.
-/

namespace AggregateSync

/-- What an INSERT leaves behind: `saved` is the member with its foreign key and with the
key that the database assigned. -/
structure IsSaved (mapping : ClassMapping) (shown saved : Entity) (id : Int64) : Prop where
  keys : ∀ key ∈ mapping.keys, (saved.read key.field).keyForm =
    if ClassMapping.awaits shown key then .bigInt id else (shown.read key.field).keyForm
  writable : ∀ property ∈ mapping.writableProperties,
    saved.read property.field = shown.read property.field
  others : ∀ field, (∀ key ∈ mapping.keys, ClassMapping.awaits shown key = true →
    key.field ≠ field) → saved.read field = shown.read field

section Turns

variable {ω : Type} {environment : Environment ω} {registry : Registry} {dialect : Dialect}
  {channel : Channel} {snapshot current : Option Entity} {options : PersistOptions}
  {filter : PropertyFilter} {before after : List Member} {changes written rest : List Change}
  {change : Change} {rows : ω → Set Record} {state state' : Option Entity} {world later : ω}
  {issued : Bool} {requests : List Request} {engine : Engine}

/-- The key that the database assigned shows in the member, and nothing else changes. -/
theorem isSaved_of_assigned {mapping : ClassMapping} (horderly : registry.IsOrderly)
    (hmapping : mapping ∈ registry.mappings) {shown : Entity} {assigned : Property} {id : Int64}
    {value : Value} (hassigned : mapping.generatedKey? = some assigned)
    (hawaits : mapping.keys.any (ClassMapping.awaits shown) = true)
    (hread : assigned.field.type.read (.bigInt id) = .ok value) :
    IsSaved mapping shown (shown.write assigned.field value) id := by
  have hmem : assigned ∈ mapping.keys := List.mem_of_find?_eq_some hassigned
  have hgenerated : assigned.generated = true := List.find?_some hassigned
  have hawaiting : ∀ key ∈ mapping.keys, ClassMapping.awaits shown key = true →
      key = assigned := by
    intro key hkey hawaits
    rw [ClassMapping.awaits, Bool.and_eq_true] at hawaits
    exact ClassMapping.eq_of_generated hkey hawaits.1 hassigned
  have hunshared := horderly.unshared mapping hmapping assigned hmem hgenerated
  constructor
  case keys =>
    intro key hkey
    split
    case isTrue htrue =>
      obtain rfl := hawaiting key hkey htrue
      rw [Entity.read_write (FieldType.holds_of_read hread)]
      exact FieldType.keyForm_of_read_integer (horderly.integers mapping hmapping key hkey
        hgenerated) rfl hread
    case isFalse hfalse =>
      rw [Entity.read_write_of_ne]
      intro hfield
      obtain rfl := hunshared key (List.mem_append_left _ hkey) hfield
      obtain ⟨other, hother, htrue⟩ := List.any_eq_true.1 hawaits
      obtain rfl := hawaiting other hother htrue
      exact hfalse htrue
  case writable =>
    intro property hproperty
    rw [Entity.read_write_of_ne]
    intro hfield
    obtain rfl := hunshared property (List.mem_append_right _ hproperty) hfield
    exact absurd hproperty (horderly.not_writable hmapping hmem)
  case others =>
    intro field hothers
    obtain ⟨key, hkey, htrue⟩ := List.any_eq_true.1 hawaits
    obtain rfl := hawaiting key hkey htrue
    exact Entity.read_write_of_ne fun hfield => hothers key hkey htrue hfield.symm

/-- A member that awaits no key is saved as it is. -/
theorem isSaved_self {mapping : ClassMapping} {shown : Entity}
    (hawaits : mapping.keys.any (ClassMapping.awaits shown) = false) (id : Int64) :
    IsSaved mapping shown shown id where
  keys := by
    intro key hkey
    rw [if_neg (List.any_eq_false.1 hawaits key hkey)]
  writable := fun _ _ => rfl
  others := fun _ _ => rfl

/-- A turn that inserts a member and succeeds adds the row of an INSERT to the database and
shows the new row in the graph, if the INSERT leaves out the keys that are awaited and no value. -/
theorem insertMember_affects (hstores : Stores environment registry dialect engine rows)
    (horderly : registry.IsOrderly) {mapping : ClassMapping}
    (hmapping : mapping ∈ registry.mappings) {met e : Entity} {address : Address}
    (hstands : change.StandsIn registry met mapping e address)
    (hsends : ∀ link shown extra,
      parentLink registry change snapshot (some met) true = .ok link →
      TakesForeignKey mapping e link.foreignKey shown extra →
      (Command.insert (memberInsert mapping shown extra link.subset)).isClear = true ∧
        (mapping.keys.any (ClassMapping.awaits shown) = true →
          registry.assignsKey (memberInsert mapping shown extra link.subset) = true))
    (hturn : (Task.insertMember registry dialect channel snapshot change).execution environment
      (some met) world = ⟨.ok issued, state', later, requests⟩) :
    ∃ link shown extra last saved id,
      parentLink registry change snapshot (some met) true = .ok link ∧
      TakesForeignKey mapping e link.foreignKey shown extra ∧
      state' = some last ∧ Entity.Relabels address met last ∧
      change.StandsIn registry last mapping saved address ∧ IsSaved mapping shown saved id ∧
      (Command.insert (memberInsert mapping shown extra link.subset)).Affects engine registry id
        (rows world) (rows later) := by
  obtain ⟨link, shown, extra, hlink, htakes, _, hsent⟩ := insertMember_eq_ok hstands hturn
  have hlinked := hstands.putAt htakes.type_eq htakes.members_eq
  have hrelabels := hstands.relabels_putAt htakes
  obtain ⟨hclear, hassigns⟩ := hsends link shown extra hlink htakes
  cases hawaits : mapping.keys.any (ClassMapping.awaits shown) with
  | true =>
      simp only [hawaits, if_true] at hsent
      obtain ⟨_, number, root, hanswer, hback, hafter⟩ := hsent
      obtain ⟨id, hgiven, haffects⟩ := hstores.insert _ _ _ _ _ hclear hanswer
      obtain rfl : number = id.toInt := (hgiven (hassigns hawaits)).2
      obtain ⟨key, hkey⟩ := ClassMapping.exists_generatedKey hawaits
      have hwritten := (writeBack_eq_ok hlinked).1 hback
      rw [hkey] at hwritten
      obtain ⟨value, hread, rfl⟩ := hwritten
      rw [Int64.ofInt_toInt] at hread
      have htype := Entity.type_write shown key.field value
      have hmembers := Entity.members_write shown key.field value
      exact ⟨link, shown, extra, _, _, id, hlink, htakes, hafter,
        hrelabels.trans (.putAt hlinked.at? htype hmembers), hlinked.putAt htype hmembers,
        isSaved_of_assigned horderly hmapping hkey hawaits hread, haffects⟩
  | false =>
      simp only [hawaits, Bool.false_eq_true, if_false] at hsent
      obtain ⟨_, hafter, count, hanswer⟩ := hsent
      obtain ⟨id, haffects⟩ := hstores.execute _ (.insert _) _ _ _ hclear hanswer
      exact ⟨link, shown, extra, _, shown, id, hlink, htakes, hafter, hrelabels, hlinked,
        isSaved_self hawaits id, haffects⟩

/-- What was saved shows DEFAULT only where the member did. -/
theorem IsSaved.isBound {mapping : ClassMapping} {shown saved : Entity} {id : Int64}
    (hsaved : IsSaved mapping shown saved id) {field : Field}
    (hbound : (shown.read field).isBound = true) : (saved.read field).isBound = true := by
  by_cases hassigned : ∃ key ∈ mapping.keys,
      ClassMapping.awaits shown key = true ∧ key.field = field
  case pos =>
    obtain ⟨key, hkey, hawaits, rfl⟩ := hassigned
    have hform := hsaved.keys key hkey
    rw [if_pos hawaits] at hform
    rw [← Value.isBound_keyForm, hform]
    rfl
  case neg =>
    rw [hsaved.others field]
    · exact hbound
    · intro key hkey hawaits hfield
      exact hassigned ⟨key, hkey, hawaits, hfield⟩

/-- What was saved shows what the member did, except for what a run fills in. -/
theorem IsSaved.intact {member : Member} {shown saved : Entity} {id : Int64}
    (hsaved : IsSaved member.mapping shown saved id)
    (htaken : ∀ field, ¬ member.IsFilledIn after field →
      shown.read field = member.entity.read field) {field : Field}
    (hfield : ¬ member.IsFilledIn after field) :
    saved.read field = member.entity.read field := by
  rw [← htaken field hfield]
  apply hsaved.others
  rintro key hkey hawaits rfl
  apply hfield
  apply Member.IsFilledIn.key hkey _ rfl
  rwa [ClassMapping.awaits, ← htaken key.field hfield]

/-- An INSERT leaves to the database the key that the member awaits, and no value. -/
theorem Progress.isClear_insert
    (hedit : IsEdit registry snapshot current filter before after changes)
    (hengine : engine.ComparesKeys registry)
    (hprogress : Progress registry current before after written state (rows world))
    {member : Member} (hmember : member ∈ after) {link : ParentLink}
    (hlinks : member.LinksTo (registry.shown state) after true link) {e shown : Entity}
    {extra : Option (String × Value)}
    (htakes : TakesForeignKey member.mapping e link.foreignKey shown extra)
    (hread : ∀ field, e.read field = member.entity.read field) :
    (Command.insert (memberInsert member.mapping shown extra link.subset)).isClear = true ∧
      (member.mapping.keys.any (ClassMapping.awaits shown) = true →
        registry.assignsKey (memberInsert member.mapping shown extra link.subset) = true) := by
  obtain ⟨root, _, htraversal⟩ := hedit.traversalAfter hmember
  have hcolumns := htraversal.nodup_entriesBy hedit.orderly hmember (registry.shown state)
  rw [Member.entriesBy, List.map_append, Member.map_fst_own, ← hlinks.entries_eq htakes]
    at hcolumns
  constructor
  · exact ClassMapping.isClear_memberInsert hcolumns
      (hprogress.isBound_taken hedit hmember hlinks htakes hread)
      (hlinks.isBound_entries htakes hedit.orderly hengine htraversal hmember hprogress.bound)
  · exact ClassMapping.assignsKey_memberInsert (hedit.knownAfter hmember).mem_mappings hcolumns

/-- Inserting a member adds its row. -/
theorem Progress.insertMember
    (hedit : IsEdit registry snapshot current filter before after changes)
    (hengine : engine.ComparesKeys registry)
    (hstores : Stores environment registry dialect engine rows)
    (hschedule : schedule changes = written ++ change :: rest)
    (hprogress : Progress registry current before after written state (rows world))
    {member : Member} (hmember : member ∈ after) (hadded : change.state = .added)
    (hdescribes : change.Describes .current member)
    (hnew : ∀ old ∈ before, ¬ member.SameIdentity old)
    (hturn : (Task.insertMember registry dialect channel snapshot change).execution environment
      state world = ⟨.ok issued, state', later, requests⟩) :
    Progress registry current before after (written ++ [change]) state' (rows later) := by
  obtain ⟨root, met, e, address, rfl, htraversal, hshape, hstands, rfl, hread⟩ :=
    hprogress.exists_stands hedit hschedule hmember hdescribes
  have hmapping := (hedit.knownAfter hmember).mem_mappings
  have hlinksTo : ∀ {link : ParentLink},
      parentLink registry change snapshot (some met) true = .ok link →
        member.LinksTo (registry.shown (some met)) after true link :=
    fun hlink => htraversal.linksTo hmember hdescribes rfl hshape hlink
  obtain ⟨link, shown, extra, last, saved, id, hlink, htakes, rfl, hrelabels, hlast, hsaved,
    haffects⟩ := insertMember_affects hstores hedit.orderly hmapping hstands
      (fun _ _ _ hlink htakes =>
        hprogress.isClear_insert hedit hengine hmember (hlinksTo hlink) htakes hread) hturn
  have hlinks := hlinksTo hlink
  obtain ⟨hfresh, hrows⟩ := haffects member.mapping hmapping rfl
  have hframe : ∀ other ∈ after, other ≠ member →
      registry.shown (some last) other = registry.shown (some met) other := by
    intro other hother hdiffer
    exact htraversal.shown_of_relabels hshape hmember hdescribes hstands hrelabels hother hdiffer
  have hrecord : member.mapping.newRecord
      (memberInsert member.mapping shown extra link.subset).assignments id =
        member.recordBy (registry.shown (some last)) after := by
    have hcolumns := htraversal.nodup_entriesBy hedit.orderly hmember (registry.shown (some met))
    rw [Member.entriesBy, List.map_append, Member.map_fst_own] at hcolumns
    rw [ClassMapping.memberInsert_eq, hlinks.entries_eq htakes,
      ClassMapping.newRecord_eq hcolumns hsaved.keys hsaved.writable, Member.recordBy,
      Member.entriesBy, htraversal.linkBy_frame hmember hframe, hlast.shown hdescribes]
    rfl
  have hintact : ∀ field, ¬ member.IsFilledIn after field →
      registry.shown (some last) member field = member.entity.read field := by
    intro field hfield
    rw [hlast.shown hdescribes]
    refine hsaved.intact (fun other hother => ?_) hfield
    rw [← hread other]
    exact hlinks.read_eq htakes hother
  have hbound : member.IsBound (registry.shown (some last)) := by
    intro property hproperty
    rw [hlast.shown hdescribes]
    exact hsaved.isBound
      (hprogress.isBound_taken hedit hmember hlinks htakes hread property hproperty)
  have htop : ∀ other relation, IsHeld before after written .current other →
      other.holder? after ≠ some (member, relation) := by
    intro other relation hheld hholder
    cases hheld with
    | written hother hearlier hdescribes' =>
        exact hedit.not_written_below hschedule hadded hdescribes
          (htraversal.path_lt hother hholder) hearlier hdescribes'
  rw [hrows]
  exact hprogress.insert hedit hmember hdescribes (hedit.not_describes hschedule hdescribes) hnew
    (.some (hshape.trans hrelabels.shape)) hframe hintact hbound htop hrecord hfresh

end Turns

end AggregateSync
