import AggregateSync.Proofs.Graph.Tree
import AggregateSync.Proofs.Session.Statements

/-!
# Reading and writing along a path

Reading along a path checks the children of every slot that it passes, and opening a place for
writing does not.  In a graph that a traversal accepts the checks succeed in every slot, so the
two walks agree on every path, in what they reach and in how they fail.  What is written at the
place is then read at the path, and nothing else in the graph changes.
-/

namespace AggregateSync

/-- The subtree can be traversed, from some path on. -/
def Visit.Succeeds (visit : Visit) : Prop :=
  ∃ path parent relation next members, visit path parent relation next = .ok members

theorem visitChildren_succeeds {path : Path} {number index : Nat} {visits : List Visit} :
    ∀ {position next : Nat} {numbers : List Nat} {block : List Member},
      visitChildren path number index position next visits = .ok (numbers, block) →
      ∀ visit ∈ visits, Visit.Succeeds visit := by
  induction visits with
  | nil => exact fun _ => nofun
  | cons first rest ih =>
      intro position next numbers block hvisit
      obtain ⟨subtree, hsubtree, hvisit⟩ := Result.bind_eq_ok.1 hvisit
      obtain ⟨⟨numbers', others⟩, hothers, _⟩ := Result.bind_eq_ok.1 hvisit
      exact List.forall_mem_cons.2 ⟨⟨_, _, _, _, subtree, hsubtree⟩, ih hothers⟩

/-- Each relation shows its children, and they can be traversed unless their slot was visited
before. -/
theorem visitRelations_succeeds {e : Entity} {visits : Slot → List Visit} {path : Path}
    {number : Nat} {relations : List Relation} :
    ∀ {index next : Nat} {visited : List Slot} {numbers : List Nat} {block : List Member},
      visitRelations e visits path number index next visited relations = .ok (numbers, block) →
      ∀ relation ∈ relations, relation.children e = .ok (e.children relation.slot) ∧
        (relation.slot ∉ visited → ∀ visit ∈ visits relation.slot, Visit.Succeeds visit) := by
  induction relations with
  | nil => exact fun _ => nofun
  | cons first rest ih =>
      intro index next visited numbers block hvisit
      obtain ⟨found, hfound, hvisit⟩ := Result.bind_eq_ok.1 hvisit
      have hchildren : first.children e = .ok (e.children first.slot) := by
        rw [hfound, Relation.children_eq hfound]
      split at hvisit
      case isTrue hseen =>
        have hmember : first.slot ∈ visited := List.contains_iff_mem.1 hseen
        exact List.forall_mem_cons.2
          ⟨⟨hchildren, fun hfresh => absurd hmember hfresh⟩, ih hvisit⟩
      case isFalse =>
        obtain ⟨⟨numbers', below⟩, hbelow, hvisit⟩ := Result.bind_eq_ok.1 hvisit
        obtain ⟨⟨others, beyond⟩, hbeyond, _⟩ := Result.bind_eq_ok.1 hvisit
        have hfirst := visitChildren_succeeds hbelow
        refine List.forall_mem_cons.2 ⟨⟨hchildren, fun _ => hfirst⟩, fun relation hrelation => ?_⟩
        obtain ⟨hshown, hrest⟩ := ih hbeyond relation hrelation
        -- A later relation of the slot that was just visited adds nothing.
        refine ⟨hshown, fun hfresh => ?_⟩
        by_cases hslot : relation.slot = first.slot
        · rwa [hslot]
        · exact hrest (by simp [hslot, hfresh])

namespace Registry

variable {registry : Registry} {root e : Entity} {members : List Member}

/-- The class of the entity is mapped, each of its relations shows its children, and so it is
with everything below. -/
inductive Navigable (registry : Registry) : Entity → Prop
  | intro {e : Entity} {mapping : ClassMapping} (hmapping : registry.mappingFor e = .ok mapping)
      (hchildren : ∀ relation ∈ mapping.relations,
        relation.children e = .ok (e.children relation.slot))
      (hbelow : ∀ relation ∈ mapping.relations, ∀ child ∈ e.children relation.slot,
        registry.Navigable child) : registry.Navigable e

theorem navigable_of_visit (registry : Registry) :
    ∀ e, Visit.Succeeds (visitEntity registry e) → registry.Navigable e := by
  refine Entity.treeInduction fun type fields members ih => ?_
  rintro ⟨path, parent, relation, next, block, hvisit⟩
  rw [visitEntity_eq] at hvisit
  obtain ⟨mapping, hmapping, hvisit⟩ := Result.bind_eq_ok.1 hvisit
  obtain ⟨key, _, hvisit⟩ := Result.bind_eq_ok.1 hvisit
  obtain ⟨⟨children, below⟩, hbelow, _⟩ := Result.bind_eq_ok.1 hvisit
  have hrelations := visitRelations_succeeds hbelow
  refine .intro hmapping (fun relation hrelation => (hrelations relation hrelation).1) ?_
  intro relation hrelation child hchild
  exact ih _ (Entity.mem_of_mem_inSlot hchild)
    ((hrelations relation hrelation).2 List.not_mem_nil _ (List.mem_map_of_mem hchild))

theorem navigable_of_traverse (htraverse : registry.traverse root = .ok members) :
    registry.Navigable root :=
  navigable_of_visit registry root ⟨_, _, _, _, members, htraverse⟩

/-- Both walks along a path reach the same entity or fail with the same error. -/
theorem Navigable.descendToPlace {whole path : Path} : ∀ {e : Entity}, registry.Navigable e →
    (registry.descendToPlace whole path e).map Place.entity =
      registry.descend whole path e := by
  induction path with
  | nil => exact fun _ => rfl
  | cons segment rest ih =>
      intro e hnavigable
      obtain ⟨hmapping, hchildren, hbelow⟩ := hnavigable
      rw [Registry.descendToPlace, descend, hmapping, Result.ok_bind, Result.ok_bind]
      cases hrelation : ClassMapping.relationAt _ segment.relation with
      | error fault => rfl
      | ok relation =>
          have hmember := List.mem_of_getElem? (ClassMapping.relationAt_eq_ok.1 hrelation)
          rw [Result.ok_bind, Result.ok_bind, hchildren relation hmember,
            Relation.held_eq_ok_of_children (hchildren relation hmember), Result.ok_bind,
            Result.ok_bind]
          cases hchild : (e.children relation.slot)[segment.index]? with
          | none => rfl
          | some child =>
              have hrest := ih (hbelow relation hmember child (List.mem_of_getElem? hchild))
              simp only [← hrest]
              cases registry.descendToPlace whole rest child <;> rfl

/-- The place that a path leads to for writing holds what is read there. -/
theorem locate_of_traverse (htraverse : registry.traverse root = .ok members) (path : Path) :
    (registry.locate root path).map Place.entity = registry.resolve root path :=
  (navigable_of_traverse htraverse).descendToPlace

theorem Navigable.mappingFor (hnavigable : registry.Navigable e) :
    ∃ mapping, registry.mappingFor e = .ok mapping := by
  obtain ⟨hmapping, _, _⟩ := hnavigable
  exact ⟨_, hmapping⟩

/-- What a path leads to can be walked on from. -/
theorem Navigable.of_descend {whole path : Path} : ∀ {e found : Entity}, registry.Navigable e →
    registry.descend whole path e = .ok found → registry.Navigable found := by
  induction path with
  | nil =>
      intro e found hnavigable hfound
      cases hfound
      exact hnavigable
  | cons segment rest ih =>
      intro e found hnavigable hfound
      obtain ⟨mapping, relation, child, hmapping, hrelation, _, hchild, hrest⟩ :=
        descend_cons_eq_ok.1 hfound
      obtain ⟨hmapping', _, hbelow⟩ := hnavigable
      obtain rfl := Except.ok.inj (hmapping.symm.trans hmapping')
      exact ih (hbelow relation (List.mem_of_getElem? hrelation) child
        (List.mem_of_getElem? hchild)) hrest

/-- Where fields change at one address only, every path leads where it led, and reads what it
read unless it leads to that address. -/
theorem resolve_of_relabels {address : Address} {before after : Entity}
    (hrelabels : Entity.Relabels address before after) {path : Path}
    (hresolve : registry.resolve before path = .ok e) :
    ∃ place e', registry.addressOf? path before = some place ∧
      registry.addressOf? path after = some place ∧ registry.resolve after path = .ok e' ∧
      after.at? place = some e' ∧ (place ≠ address → e'.label = e.label) := by
  obtain ⟨place, hplace, hat⟩ := addressOf?_of_descend hresolve
  obtain ⟨e', hresolve', _⟩ := descend_of_sameShape hrelabels.shape hresolve
  obtain ⟨place', hplace', hat'⟩ := addressOf?_of_descend hresolve'
  have hsame := hplace'.symm.trans ((addressOf?_of_sameShape hrelabels.shape).symm.trans hplace)
  obtain rfl := Option.some.inj hsame
  refine ⟨place', e', hplace, hplace', hresolve', hat', fun helsewhere => ?_⟩
  have hlabel := hrelabels.elsewhere place' helsewhere
  rw [hat, hat'] at hlabel
  exact Option.some.inj hlabel

/-- A path is read and opened for writing alike, in every graph that a traversal accepts.  When
a property is set at the place, reading along the path gives the new value; the properties of
other fields of the entity, and the classes and fields of all other entities, are as before, and
each path that led to an entity leads to the one at the same place. -/
theorem resolutions_agree (htraverse : registry.traverse root = .ok members) (path : Path) :
    (registry.locate root path).map Place.entity = registry.resolve root path ∧
    ∀ found, registry.resolve root path = .ok found →
      ∃ address mapping, registry.addressOf? path root = some address ∧
        registry.mappingFor found = .ok mapping ∧
        ∀ (property : Property) (value shown : Value),
          property.field.type.read value = .ok shown →
          ∃ after changed,
            registry.update root path (fun mapping e => mapping.set property value e) =
              .ok after ∧
            registry.resolve after path = .ok changed ∧
            mapping.get property changed = .ok shown ∧
            (∀ other : Property, other.field ≠ property.field →
              mapping.get other changed = mapping.get other found) ∧
            Entity.Relabels address root after ∧
            ∀ other e, registry.resolve root other = .ok e →
              ∃ place e', registry.addressOf? other root = some place ∧
                registry.addressOf? other after = some place ∧
                registry.resolve after other = .ok e' ∧ after.at? place = some e' ∧
                (place ≠ address → e'.label = e.label) := by
  refine ⟨locate_of_traverse htraverse path, fun found hfound => ?_⟩
  obtain ⟨mapping, hmapping⟩ := ((navigable_of_traverse htraverse).of_descend hfound).mappingFor
  obtain ⟨address, haddress, hplace⟩ := descendToPlace_of_descend hfound
  obtain ⟨_, haddress', hat⟩ := addressOf?_of_descend hfound
  obtain rfl := Option.some.inj (haddress.symm.trans haddress')
  refine ⟨address, mapping, haddress, hmapping, fun property value shown hread => ?_⟩
  have hsame : found.type.same mapping.type = true := same_of_mappingFor hmapping
  have htype := Entity.type_write found property.field shown
  have hrelabels : Entity.Relabels address root
      (root.putAt address (found.write property.field shown)) :=
    .putAt hat htype (Entity.members_write found property.field shown)
  have hupdate : registry.update root path (fun mapping e => mapping.set property value e) =
      .ok (root.putAt address (found.write property.field shown)) := by
    have hset := (ClassMapping.set_eq_ok hsame).2 ⟨shown, hread, rfl⟩
    rw [update, locate, hplace, Result.ok_bind, hmapping, Result.ok_bind, hset, Result.ok_bind]
    rfl
  obtain ⟨_, changed, hplace', _, hresolve, hchanged, _⟩ := resolve_of_relabels hrelabels hfound
  obtain rfl := Option.some.inj (haddress.symm.trans hplace')
  obtain rfl : found.write property.field shown = changed :=
    Option.some.inj ((Entity.at?_putAt_self _ hat).symm.trans hchanged)
  have hsame' : (found.write property.field shown).type.same mapping.type = true := by
    rwa [htype]
  refine ⟨_, _, hupdate, hresolve, ?_, fun other hother => ?_, hrelabels,
    fun other e => resolve_of_relabels hrelabels⟩
  · rw [ClassMapping.get_of_same hsame', Entity.read_write (FieldType.holds_of_read hread)]
  · rw [ClassMapping.get_of_same hsame', ClassMapping.get_of_same hsame,
      Entity.read_write_of_ne hother]

end Registry

/-- Two relations lead to the second parcel.  What is set through the one is read through the
other, and the item in the first parcel is where it was. -/
theorem regifted_resolutions_agree :
    ∃ members after changed, Shipping.giving.traverse Shipping.packed = .ok members ∧
      Shipping.giving.update Shipping.packed [⟨1, 1⟩]
        (fun mapping e => mapping.set (.plain "parent_id" Shipping.parentField) (.int 5) e) =
          .ok after ∧
      Shipping.giving.resolve after [⟨1, 1⟩] = .ok changed ∧
      Shipping.parcels.get (.plain "parent_id" Shipping.parentField) changed =
        .ok (.bigInt 5) ∧
      (∃ place e', Shipping.giving.addressOf? [⟨0, 1⟩] Shipping.packed = some place ∧
        Shipping.giving.resolve after [⟨0, 1⟩] = .ok e' ∧ after.at? place = some e') ∧
      ∃ place e', Shipping.giving.addressOf? [⟨0, 0⟩, ⟨0, 0⟩] Shipping.packed = some place ∧
        Shipping.giving.resolve after [⟨0, 0⟩, ⟨0, 0⟩] = .ok e' ∧
        e'.label = (Shipping.itemOf 1 1).label := by
  have hread : Shipping.parentField.type.read (.int 5) = .ok (.bigInt 5) := rfl
  have hparcel : Shipping.giving.mappingFor (Shipping.parcelOf 2 1 []) = .ok Shipping.parcels :=
    rfl
  have hgiftPlace : Shipping.giving.addressOf? [⟨1, 1⟩] Shipping.packed =
      some [(.many 1 0, 1)] := rfl
  have hitemPlace : Shipping.giving.addressOf? [⟨0, 0⟩, ⟨0, 0⟩] Shipping.packed =
      some [(.many 1 0, 0), (.many 2 0, 0)] := rfl
  obtain ⟨address, mapping, haddress, hmapping, hset⟩ := (Registry.resolutions_agree
    (rfl : Shipping.giving.traverse Shipping.packed = .ok _) [⟨1, 1⟩]).2
      (Shipping.parcelOf 2 1 []) rfl
  obtain rfl := Except.ok.inj (hparcel.symm.trans hmapping)
  obtain rfl := Option.some.inj (hgiftPlace.symm.trans haddress)
  obtain ⟨after, changed, hupdate, hresolve, hget, _, _, hpaths⟩ :=
    hset (.plain "parent_id" Shipping.parentField) _ _ hread
  obtain ⟨place, gift, hplace, _, hgift, hat, _⟩ := hpaths [⟨0, 1⟩] _ rfl
  obtain ⟨place', item, hplace', _, hitem, _, hkept⟩ :=
    hpaths [⟨0, 0⟩, ⟨0, 0⟩] (Shipping.itemOf 1 1) rfl
  obtain rfl := Option.some.inj (hitemPlace.symm.trans hplace')
  exact ⟨_, after, changed, rfl, hupdate, hresolve, hget, ⟨place, gift, hplace, hgift, hat⟩,
    _, item, hplace', hitem, hkept (by decide)⟩

end AggregateSync
