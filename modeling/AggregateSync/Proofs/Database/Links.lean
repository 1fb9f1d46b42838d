import AggregateSync.Proofs.Database.Rows
import AggregateSync.Proofs.Session.Frame

/-!
# Where a written member hangs

Before a member is written, the row of its parent is consulted: `Member.LinksTo` says what
comes of this, and the statement then carries what `Member.linkBy` puts into the row.  A
turn changes what one member shows, so the parent shows the same before and after.
-/

namespace AggregateSync

open Entity (Relabels)

/-! ## What members show in the course of a run -/

section Shown

variable {registry : Registry} {root met : Entity} {members : List Member} {member : Member}
  {change : Change} {side : Side} {mapping : ClassMapping} {e : Entity} {address : Address}

theorem Change.StandsIn.shown (hstands : change.StandsIn registry met mapping e address)
    (hdescribes : change.Describes side member) :
    registry.shown (some met) member = e.read := by
  apply Registry.shown_of_resolve
  rw [← hdescribes.path]
  exact hstands.resolve

/-- A turn leaves what every other member shows as it is. -/
theorem IsTraversal.shown_of_relabels (htraversal : IsTraversal registry root members)
    (hshape : root.SameShape met) (hmember : member ∈ members)
    (hdescribes : change.Describes side member)
    (hstands : change.StandsIn registry met mapping e address) {after : Entity}
    (hrelabels : Relabels address met after) {other : Member} (hother : other ∈ members)
    (hdiffer : other ≠ member) :
    registry.shown (some after) other = registry.shown (some met) other := by
  obtain ⟨found, hfound, _⟩ :=
    Registry.descend_of_sameShape hshape (htraversal.resolve hother)
  obtain ⟨found', hfound', _⟩ := Registry.descend_of_sameShape hrelabels.shape hfound
  obtain ⟨place, hplace, hat⟩ := Registry.addressOf?_of_descend hfound
  obtain ⟨place', hplace', hat'⟩ := Registry.addressOf?_of_descend hfound'
  rw [← Registry.addressOf?_of_sameShape hrelabels.shape, hplace, Option.some.injEq] at hplace'
  subst hplace'
  have helsewhere : place ≠ address := by
    rintro rfl
    apply hdiffer
    apply htraversal.eq_of_address_eq hother hmember
    rw [Registry.addressOf?_of_sameShape hshape, Registry.addressOf?_of_sameShape hshape, hplace,
      ← hdescribes.path, hstands.address]
  have hlabel := hrelabels.elsewhere place helsewhere
  rw [hat, hat', Option.map_some, Option.map_some, Option.some.injEq] at hlabel
  rw [Registry.shown_of_resolve hfound, Registry.shown_of_resolve hfound']
  funext field
  exact Entity.read_of_label hlabel field

end Shown

/-! ## Links -/

/-- What holds a member is a member. -/
theorem IsTraversal.mem_of_holder? {registry : Registry} {root : Entity}
    {members : List Member} (htraversal : IsTraversal registry root members)
    {member parent : Member} (hmember : member ∈ members) {relation : Relation}
    (hholder : member.holder? members = some (parent, relation)) : parent ∈ members := by
  cases htraversal.hangs hmember with
  | root _ hnone =>
      rw [hholder] at hnone
      cases hnone
  | below found number segment found' _ hfound _ _ _ hsome _ =>
      rw [hholder] at hsome
      cases hsome
      exact List.mem_of_getElem? hfound

/-- Where a member hangs is above it. -/
theorem IsTraversal.path_lt {registry : Registry} {root : Entity} {members : List Member}
    (htraversal : IsTraversal registry root members) {member parent : Member}
    (hmember : member ∈ members) {relation : Relation}
    (hholder : member.holder? members = some (parent, relation)) :
    parent.path.length < member.path.length := by
  cases htraversal.hangs hmember with
  | root _ hnone =>
      rw [hholder] at hnone
      cases hnone
  | below found number segment found' _ _ hpath _ _ hsome _ =>
      rw [hholder] at hsome
      cases hsome
      rw [hpath, List.length_append]
      exact Nat.lt_succ_self _

/-- What a row says about where its member hangs does not depend on the member itself. -/
theorem IsTraversal.linkBy_frame {registry : Registry} {root : Entity} {members : List Member}
    (htraversal : IsTraversal registry root members) {member : Member}
    (hmember : member ∈ members) {shown shown' : Member → Field → Value}
    (hframe : ∀ other ∈ members, other ≠ member → shown' other = shown other) :
    member.linkBy shown' members = member.linkBy shown members := by
  rw [Member.linkBy, Member.linkBy]
  cases htraversal.hangs hmember with
  | root _ hholder => rw [hholder]
  | below parent number segment relation _ hparent _ _ _ hholder _ =>
      have hdiffer : parent ≠ member := by
        rintro rfl
        exact Nat.lt_irrefl _ (htraversal.path_lt hmember hholder)
      rw [hholder]
      simp only [hframe parent (List.mem_of_getElem? hparent) hdiffer]

/-- What a row is to say about the parent of a member: nothing if the member is a root, and
otherwise the constant of the relation and, if the foreign key is propagated, the value that
the parent shows for it, which is not NULL. -/
inductive Member.LinksTo (shown : Member → Field → Value) (members : List Member)
    (member : Member) (propagate : Bool) : ParentLink → Prop
  | root (hholder : member.holder? members = none) :
      member.LinksTo shown members propagate ⟨none, none⟩
  | held {parent : Member} {relation : Relation}
      (hholder : member.holder? members = some (parent, relation))
      (hpropagate : propagate = false) :
      member.LinksTo shown members propagate ⟨none, relation.subset⟩
  | given {parent : Member} {relation : Relation} {foreignKey : ForeignKey}
      {referenced : Property} (hholder : member.holder? members = some (parent, relation))
      (hpropagate : propagate = true)
      (hforeignKey : relation.foreignKey? member.mapping.type = some foreignKey)
      (hreferenced : parent.mapping.property? foreignKey.referenced = some referenced)
      (hpresent : (shown parent referenced.field).isNull = false) :
      member.LinksTo shown members propagate
        ⟨some ⟨foreignKey.column, foreignKey.property, shown parent referenced.field⟩,
          relation.subset⟩

/-- A link that is found is one of `Member.LinksTo`. -/
theorem IsTraversal.linksTo {registry : Registry} {root met : Entity} {members : List Member}
    (htraversal : IsTraversal registry root members) {member : Member}
    (hmember : member ∈ members) {change : Change} {side : Side}
    (hdescribes : change.Describes side member) {snapshot current : Option Entity}
    (hgraph : side.graph snapshot current = some met) (hshape : root.SameShape met)
    {propagate : Bool} {link : ParentLink}
    (hlink : parentLink registry change snapshot current propagate = .ok link) :
    member.LinksTo (registry.shown (some met)) members propagate link := by
  cases htraversal.hangs hmember with
  | root hpath hholder =>
      rw [parentLink_root (hdescribes.path.trans hpath)] at hlink
      cases hlink
      exact .root hholder
  | below parent number segment relation _ hparent hpath hindex hrelation hholder _ =>
      have hparent := List.mem_of_getElem? hparent
      obtain ⟨holder, hresolve, hsame⟩ :=
        Registry.descend_of_sameShape hshape (htraversal.resolve hparent)
      have hmapping : registry.mappingFor holder = .ok parent.mapping := by
        rw [← Registry.mappingFor_congr hsame.type_eq]
        exact (htraversal.known parent hparent).1
      have hgraph : change.side.graph snapshot current = some met := by
        rw [hdescribes.side, hgraph]
      obtain ⟨hsubset, hgives⟩ := (parentLink_eq_ok (hdescribes.path.trans hpath)
        (hdescribes.relation.trans hindex) hgraph hresolve hmapping hrelation).1 hlink
      obtain ⟨value?, subset⟩ := link
      obtain rfl : subset = relation.subset := hsubset
      cases propagate with
      | false =>
          obtain rfl : value? = none := hgives
          exact .held hholder rfl
      | true =>
          obtain ⟨value, hvalue, foreignKey, referenced, hforeignKey, hreferenced, hpresent, _,
            rfl⟩ := hgives
          obtain rfl : value? = some _ := hvalue
          have hshown : registry.shown (some met) parent referenced.field =
              holder.read referenced.field := by
            rw [Registry.shown_of_resolve hresolve]
          rw [hdescribes.type] at hforeignKey
          rw [← hshown] at hpresent ⊢
          exact .given hholder rfl hforeignKey hreferenced hpresent

/-- No column of the member is to hold DEFAULT. -/
def Member.IsBound (shown : Member → Field → Value) (member : Member) : Prop :=
  ∀ property ∈ member.mapping.columns, (shown member property.field).isBound = true

theorem Value.isBound_keyForm (value : Value) : value.keyForm.isBound = value.isBound := by
  cases value <;> rfl

theorem FieldType.isBound_of_read {type : FieldType} {value shown : Value}
    (hread : type.read value = .ok shown) (hvalue : value.isBound = true) :
    shown.isBound = true := by
  induction type with
  | optional inner ih =>
      rw [read] at hread
      split at hread
      · cases hread
        rfl
      · exact ih hread
  | dynamic =>
      cases hread
      exact hvalue
  | _ =>
      simp only [read, Except.map] at hread
      split at hread
      · cases hread
      · cases hread
        rfl

namespace Member.LinksTo

variable {registry : Registry} {root : Entity} {members : List Member} {member : Member}
  {shown : Member → Field → Value} {propagate : Bool} {link : ParentLink} {e after : Entity}
  {extra : Option (String × Value)}

/-- What a statement carries beside the own columns of the member is what the row says about
where the member hangs. -/
theorem entries_eq (hlinks : member.LinksTo shown members true link)
    (htakes : TakesForeignKey member.mapping e link.foreignKey after extra) :
    extra.toList ++ (link.subset.map SubsetColumn.entry).toList =
      member.linkBy shown members := by
  cases hlinks with
  | root hholder =>
      cases htakes
      rw [linkBy, hholder]
      rfl
  | held _ hpropagate => cases hpropagate
  | @given parent relation foreignKey referenced hholder _ hforeignKey hreferenced _ =>
      obtain ⟨column, property?, name⟩ := foreignKey
      rw [linkBy, hholder]
      simp only [Relation.linkEntries, hforeignKey]
      cases htakes with
      | column =>
          simp only [hreferenced]
          rfl
      | property => rfl

/-- The column that a statement assigns beside those of the member itself stands in the
row. -/
theorem extra_sublist (hlinks : member.LinksTo shown members propagate link)
    (htakes : TakesForeignKey member.mapping e link.foreignKey after extra) :
    extra.toList.Sublist (member.linkBy shown members) := by
  cases hlinks with
  | root hholder =>
      cases htakes
      exact List.nil_sublist _
  | held hholder hpropagate =>
      cases htakes
      exact List.nil_sublist _
  | given hholder hpropagate hforeignKey hreferenced hpresent =>
      rw [← (LinksTo.given hholder rfl hforeignKey hreferenced hpresent).entries_eq htakes]
      exact List.sublist_append_left _ _

/-- With its foreign key a member shows what it showed, except in a property that is the
foreign key; this shows what the parent does, converted to its type. -/
theorem read_eq_or (hlinks : member.LinksTo shown members propagate link)
    (htakes : TakesForeignKey member.mapping e link.foreignKey after extra) (field : Field) :
    after.read field = e.read field ∨
      ∃ parent property referenced, member.Refers members parent property referenced ∧
        property.field = field ∧
        property.field.type.read (shown parent referenced.field) = .ok (after.read field) := by
  cases hlinks with
  | root hholder =>
      cases htakes
      exact .inl rfl
  | held hholder hpropagate =>
      cases htakes
      exact .inl rfl
  | @given parent relation foreignKey referenced hholder hpropagate hforeignKey hreferenced _ =>
      obtain ⟨column, property?, name⟩ := foreignKey
      cases htakes with
      | column => exact .inl rfl
      | @property column name value property found hproperty hread =>
          by_cases hsame : property.field = field
          · right
            subst hsame
            refine ⟨parent, property, referenced,
              .intro hholder hforeignKey rfl hproperty hreferenced, rfl, ?_⟩
            rw [Entity.read_write (FieldType.holds_of_read hread), hread]
          · left
            exact Entity.read_write_of_ne fun hfield => hsame hfield.symm

/-- With its foreign key a member shows what it showed wherever nothing is filled in. -/
theorem read_eq (hlinks : member.LinksTo shown members propagate link)
    (htakes : TakesForeignKey member.mapping e link.foreignKey after extra) {field : Field}
    (hfield : ¬ member.IsFilledIn members field) : after.read field = e.read field := by
  rcases hlinks.read_eq_or htakes field with
    hunchanged | ⟨parent, property, referenced, hrefers, hsame, _⟩
  · exact hunchanged
  · exact absurd (.foreignKey hrefers hsame) hfield

/-- With its foreign key a member shows DEFAULT only where it did, if no parent shows it. -/
theorem isBound_read (hlinks : member.LinksTo shown members propagate link)
    (htakes : TakesForeignKey member.mapping e link.foreignKey after extra)
    (htraversal : IsTraversal registry root members) (hmember : member ∈ members)
    (hbound : ∀ other ∈ members, other.IsBound shown) {field : Field}
    (hfield : (e.read field).isBound = true) : (after.read field).isBound = true := by
  rcases hlinks.read_eq_or htakes field with
    hunchanged | ⟨parent, property, referenced, hrefers, rfl, hread⟩
  · rwa [hunchanged]
  · apply FieldType.isBound_of_read hread
    cases hrefers with
    | intro hholder _ _ _ hreferenced =>
        exact hbound parent (htraversal.mem_of_holder? hmember hholder) _
          (List.mem_of_find?_eq_some hreferenced)

/-- Nothing that a statement carries beside the own columns of the member is DEFAULT. -/
theorem isBound_entries (hlinks : member.LinksTo shown members propagate link)
    (htakes : TakesForeignKey member.mapping e link.foreignKey after extra)
    (horderly : registry.IsOrderly) {engine : Engine} (hengine : engine.ComparesKeys registry)
    (htraversal : IsTraversal registry root members) (hmember : member ∈ members)
    (hbound : ∀ other ∈ members, other.IsBound shown) :
    ∀ entry ∈ extra.toList ++ (link.subset.map SubsetColumn.entry).toList,
      entry.2.isBound = true := by
  have hconstant : ∀ {parent : Member} {relation : Relation},
      member.holder? members = some (parent, relation) →
      ∀ entry ∈ (relation.subset.map SubsetColumn.entry).toList, entry.2.isBound = true := by
    intro parent relation hholder entry hentry
    obtain ⟨hparent, hrelation, _⟩ := htraversal.suits horderly hmember hholder
    obtain ⟨subset, hsubset, rfl⟩ := Option.map_eq_some_iff.1 (Option.mem_toList.1 hentry)
    exact (hengine.constants _ (htraversal.known _ hparent).mem_mappings _ hrelation _
      hsubset).1
  intro entry hentry
  cases hlinks with
  | root =>
      cases htakes
      exact absurd hentry List.not_mem_nil
  | held hholder =>
      cases htakes
      exact hconstant hholder entry hentry
  | @given parent relation foreignKey referenced hholder _ _ hreferenced _ =>
      rcases List.mem_append.1 hentry with hextra | hsubset
      · obtain ⟨column, property?, name⟩ := foreignKey
        cases htakes with
        | column =>
            obtain rfl := List.mem_singleton.1 hextra
            exact hbound parent (htraversal.mem_of_holder? hmember hholder) _
              (List.mem_of_find?_eq_some hreferenced)
        | property => exact absurd hextra List.not_mem_nil
      · exact hconstant hholder entry hsubset

end Member.LinksTo

end AggregateSync
