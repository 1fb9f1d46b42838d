import AggregateSync.Graph.Path
import AggregateSync.Proofs.Graph.Address
import AggregateSync.Proofs.Graph.Members
import AggregateSync.Proofs.Mapping.Identity
import Mathlib.Data.List.Induction

/-!
# Paths and the places they lead to

A path that can be read leads to an address, and what it reads stands there.  Trees of
one shape are read alike, so a path keeps its address while only fields change, and
the place that is opened for writing is the one that is read.  Members of a traversal
have different addresses, although two relations may share a slot: a traversal goes
through the first relation of a slot only.
-/

namespace AggregateSync

namespace Relation

theorem children_eq_ok_iff {relation : Relation} {e : Entity} {found : List Entity} :
    relation.children e = .ok found ↔ e.type.same relation.parent = true ∧
      (∀ child ∈ e.children relation.slot, (relation.target? child.type).isSome) ∧
      found = e.children relation.slot := by
  constructor
  · intro hfound
    obtain ⟨held, hheld, hrest⟩ := Result.bind_eq_ok.1 hfound
    obtain ⟨_, hparent, rfl⟩ := Result.map_eq_ok.1 hheld
    split at hrest
    case h_1 => cases hrest
    case h_2 hnone =>
      cases hrest
      refine ⟨?_, ?_, rfl⟩
      · rw [checkParent] at hparent
        by_contra hdiffer
        rw [if_neg hdiffer] at hparent
        cases hparent
      · intro child hchild
        have hdeclared := List.find?_eq_none.1 hnone child hchild
        rwa [Bool.not_eq_true, Option.isNone_eq_false_iff] at hdeclared
  · rintro ⟨hsame, hdeclared, rfl⟩
    have hnone : (e.children relation.slot).find?
        (fun child => (relation.target? child.type).isNone) = none := by
      apply List.find?_eq_none.2
      intro child hchild
      rw [Bool.not_eq_true, Option.isNone_eq_false_iff]
      exact hdeclared child hchild
    rw [children, held, checkParent, if_pos hsame]
    simp only [Except.map, Result.ok_bind, hnone]

/-- Children are found in a tree exactly if they are found in another of its shape. -/
theorem children_of_sameShape {relation : Relation} {e other : Entity}
    (hshape : e.SameShape other)
    (hfound : relation.children e = .ok (e.children relation.slot)) :
    relation.children other = .ok (other.children relation.slot) := by
  obtain ⟨hsame, hdeclared, _⟩ := children_eq_ok_iff.1 hfound
  refine children_eq_ok_iff.2 ⟨by rwa [← hshape.type_eq], ?_, rfl⟩
  intro child hchild
  have htype : child.type ∈ (e.children relation.slot).map Entity.type := by
    rw [hshape.children_types]
    exact List.mem_map_of_mem hchild
  obtain ⟨before, hbefore, hbeforeType⟩ := List.mem_map.1 htype
  rw [← hbeforeType]
  exact hdeclared before hbefore

theorem held_eq_ok_of_children {relation : Relation} {e : Entity} {found : List Entity}
    (hfound : relation.children e = .ok found) : relation.held e = .ok found := by
  obtain ⟨hsame, _, rfl⟩ := children_eq_ok_iff.1 hfound
  rw [held, checkParent, if_pos hsame]
  rfl

end Relation

namespace ClassMapping

theorem relationAt_eq_ok {mapping : ClassMapping} {index : Nat} {relation : Relation} :
    mapping.relationAt index = .ok relation ↔ mapping.relations[index]? = some relation := by
  rw [relationAt]
  cases mapping.relations[index]? <;> simp

end ClassMapping

namespace Registry

variable {registry : Registry}

theorem mappingFor_congr {e other : Entity} (htype : e.type = other.type) :
    registry.mappingFor e = registry.mappingFor other := by
  rw [mappingFor, mappingFor, htype]

/-- The address that a path leads to. -/
def addressOf? (registry : Registry) : Path → Entity → Option Address
  | [], _ => some []
  | segment :: rest, e => do
    let mapping ← registry.find? e.type.id
    let relation ← mapping.relations[segment.relation]?
    let child ← (e.children relation.slot)[segment.index]?
    let below ← registry.addressOf? rest child
    return (relation.slot, segment.index) :: below

/-- One step of a path that can be read. -/
theorem descend_cons_eq_ok {whole rest : Path} {segment : Segment} {e found : Entity} :
    registry.descend whole (segment :: rest) e = .ok found ↔
      ∃ mapping relation child, registry.mappingFor e = .ok mapping ∧
        mapping.relations[segment.relation]? = some relation ∧
        relation.children e = .ok (e.children relation.slot) ∧
        (e.children relation.slot)[segment.index]? = some child ∧
        registry.descend whole rest child = .ok found := by
  constructor
  · intro hfound
    obtain ⟨mapping, hmapping, hfound⟩ := Result.bind_eq_ok.1 hfound
    obtain ⟨relation, hrelation, hfound⟩ := Result.bind_eq_ok.1 hfound
    obtain ⟨children, hchildren, hfound⟩ := Result.bind_eq_ok.1 hfound
    obtain rfl := Relation.children_eq hchildren
    split at hfound
    case h_1 child hchild =>
      exact ⟨mapping, relation, child, hmapping, ClassMapping.relationAt_eq_ok.1 hrelation,
        hchildren, hchild, hfound⟩
    case h_2 => cases hfound
  · rintro ⟨mapping, relation, child, hmapping, hrelation, hchildren, hchild, hfound⟩
    rw [descend, hmapping, Result.ok_bind, ClassMapping.relationAt_eq_ok.2 hrelation,
      Result.ok_bind, hchildren, Result.ok_bind, hchild]
    exact hfound

/-- What is read along a path does not depend on the path that errors would name. -/
theorem descend_whole {whole other path : Path} : ∀ {e found : Entity},
    registry.descend whole path e = .ok found → registry.descend other path e = .ok found := by
  induction path with
  | nil => intro e found hfound; exact hfound
  | cons segment rest ih =>
      intro e found hfound
      obtain ⟨mapping, relation, child, hmapping, hrelation, hchildren, hchild, hrest⟩ :=
        descend_cons_eq_ok.1 hfound
      exact descend_cons_eq_ok.2
        ⟨mapping, relation, child, hmapping, hrelation, hchildren, hchild, ih hrest⟩

theorem descend_append {whole path rest : Path} : ∀ {e found : Entity},
    registry.descend whole (path ++ rest) e = .ok found ↔
      ∃ middle, registry.descend whole path e = .ok middle ∧
        registry.descend whole rest middle = .ok found := by
  induction path with
  | nil =>
      intro e found
      exact ⟨fun hfound => ⟨e, rfl, hfound⟩, fun ⟨_, hmiddle, hfound⟩ => by
        obtain rfl := Except.ok.inj hmiddle
        exact hfound⟩
  | cons segment path ih =>
      intro e found
      constructor
      · intro hfound
        obtain ⟨mapping, relation, child, hmapping, hrelation, hchildren, hchild, hrest⟩ :=
          descend_cons_eq_ok.1 hfound
        obtain ⟨middle, hmiddle, hbelow⟩ := ih.1 hrest
        exact ⟨middle, descend_cons_eq_ok.2
          ⟨mapping, relation, child, hmapping, hrelation, hchildren, hchild, hmiddle⟩, hbelow⟩
      · intro ⟨middle, hmiddle, hbelow⟩
        obtain ⟨mapping, relation, child, hmapping, hrelation, hchildren, hchild, hrest⟩ :=
          descend_cons_eq_ok.1 hmiddle
        exact descend_cons_eq_ok.2 ⟨mapping, relation, child, hmapping, hrelation, hchildren,
          hchild, ih.2 ⟨middle, hrest, hbelow⟩⟩

/-- What a path reads stands at its address. -/
theorem addressOf?_of_descend {whole path : Path} : ∀ {e found : Entity},
    registry.descend whole path e = .ok found →
      ∃ address, registry.addressOf? path e = some address ∧ e.at? address = some found := by
  induction path with
  | nil =>
      intro e found hfound
      obtain rfl := Except.ok.inj hfound
      exact ⟨[], rfl, rfl⟩
  | cons segment rest ih =>
      intro e found hfound
      obtain ⟨mapping, relation, child, hmapping, hrelation, _, hchild, hrest⟩ :=
        descend_cons_eq_ok.1 hfound
      obtain ⟨address, haddress, hat⟩ := ih hrest
      refine ⟨(relation.slot, segment.index) :: address, ?_, ?_⟩
      · rw [addressOf?, mappingFor_eq_ok.1 hmapping]
        simp [hrelation, hchild, haddress]
      · rw [Entity.at?, hchild, Option.bind_some, hat]

/-- A path that can be read in a tree can be read in every tree of its shape. -/
theorem descend_of_sameShape {whole path : Path} : ∀ {e other found : Entity},
    e.SameShape other → registry.descend whole path e = .ok found →
      ∃ found', registry.descend whole path other = .ok found' ∧ found.SameShape found' := by
  induction path with
  | nil =>
      intro e other found hshape hfound
      obtain rfl := Except.ok.inj hfound
      exact ⟨other, rfl, hshape⟩
  | cons segment rest ih =>
      intro e other found hshape hfound
      obtain ⟨mapping, relation, child, hmapping, hrelation, hchildren, hchild, hrest⟩ :=
        descend_cons_eq_ok.1 hfound
      have htypes := hshape.children_types relation.slot
      have hchildType : ((other.children relation.slot).map Entity.type)[segment.index]? =
          some child.type := by
        rw [← htypes, List.getElem?_map, hchild, Option.map_some]
      rw [List.getElem?_map] at hchildType
      obtain ⟨child', hchild', _⟩ := Option.map_eq_some_iff.1 hchildType
      obtain ⟨found', hfound', hbelow⟩ := ih (hshape.child hchild hchild') hrest
      rw [mappingFor_congr hshape.type_eq] at hmapping
      exact ⟨found', descend_cons_eq_ok.2 ⟨mapping, relation, child', hmapping, hrelation,
        Relation.children_of_sameShape hshape hchildren, hchild', hfound'⟩, hbelow⟩

/-- Trees of one shape give a path one address. -/
theorem addressOf?_of_sameShape {path : Path} : ∀ {e other : Entity},
    e.SameShape other → registry.addressOf? path e = registry.addressOf? path other := by
  induction path with
  | nil => intro e other _; rfl
  | cons segment rest ih =>
      intro e other hshape
      rw [addressOf?, addressOf?, hshape.type_eq]
      apply Option.bind_congr
      intro mapping _
      apply Option.bind_congr
      intro relation _
      have htypes := congrArg (fun types => types[segment.index]?)
        (hshape.children_types relation.slot)
      simp only [List.getElem?_map] at htypes
      cases hchild : (e.children relation.slot)[segment.index]? with
      | none =>
          rw [hchild] at htypes
          rw [Option.map_eq_none_iff.1 htypes.symm]
      | some child =>
          rw [hchild, Option.map_some] at htypes
          obtain ⟨child', hchild', _⟩ := Option.map_eq_some_iff.1 htypes.symm
          rw [hchild']
          change registry.addressOf? rest child >>= _ = registry.addressOf? rest child' >>= _
          rw [ih (hshape.child hchild hchild')]

/-- The place that is opened for writing is the one that is read. -/
theorem descendToPlace_of_descend {whole path : Path} : ∀ {e found : Entity},
    registry.descend whole path e = .ok found →
      ∃ address, registry.addressOf? path e = some address ∧
        registry.descendToPlace whole path e = .ok ⟨found, e.putAt address⟩ := by
  induction path with
  | nil =>
      intro e found hfound
      obtain rfl := Except.ok.inj hfound
      exact ⟨[], rfl, rfl⟩
  | cons segment rest ih =>
      intro e found hfound
      obtain ⟨mapping, relation, child, hmapping, hrelation, hchildren, hchild, hrest⟩ :=
        descend_cons_eq_ok.1 hfound
      obtain ⟨address, haddress, hplace⟩ := ih hrest
      refine ⟨(relation.slot, segment.index) :: address, ?_, ?_⟩
      · rw [addressOf?, mappingFor_eq_ok.1 hmapping]
        simp [hrelation, hchild, haddress]
      · rw [descendToPlace, hmapping, Result.ok_bind,
          ClassMapping.relationAt_eq_ok.2 hrelation, Result.ok_bind,
          Relation.held_eq_ok_of_children hchildren, Result.ok_bind, hchild]
        simp only [hplace, Result.ok_bind, pure, Except.pure, Except.ok.injEq,
          Place.mk.injEq, true_and]
        funext other
        rw [Entity.putAt_cons hchild]

theorem length_of_addressOf? {path : Path} : ∀ {e : Entity} {address : Address},
    registry.addressOf? path e = some address → address.length = path.length := by
  induction path with
  | nil =>
      intro e address haddress
      obtain rfl := Option.some.inj haddress
      rfl
  | cons segment rest ih =>
      intro e address haddress
      obtain ⟨mapping, _, haddress⟩ := Option.bind_eq_some_iff.1 haddress
      obtain ⟨relation, _, haddress⟩ := Option.bind_eq_some_iff.1 haddress
      obtain ⟨child, _, haddress⟩ := Option.bind_eq_some_iff.1 haddress
      obtain ⟨below, hbelow, haddress⟩ := Option.bind_eq_some_iff.1 haddress
      obtain rfl := Option.some.inj haddress
      rw [List.length_cons, List.length_cons, ih hbelow]

/-- One more step of a path is one more step of its address. -/
theorem addressOf?_append_singleton {whole path : Path} {segment : Segment}
    {mapping : ClassMapping} {relation : Relation} {middle child : Entity}
    (hmapping : registry.mappingFor middle = .ok mapping)
    (hrelation : mapping.relations[segment.relation]? = some relation)
    (hchild : (middle.children relation.slot)[segment.index]? = some child) :
    ∀ {e : Entity} {address : Address}, registry.descend whole path e = .ok middle →
      registry.addressOf? path e = some address →
      registry.addressOf? (path ++ [segment]) e =
        some (address ++ [(relation.slot, segment.index)]) := by
  induction path with
  | nil =>
      intro e address hmiddle haddress
      obtain rfl := Except.ok.inj hmiddle
      obtain rfl := Option.some.inj haddress
      rw [List.nil_append, addressOf?, mappingFor_eq_ok.1 hmapping]
      simp [hrelation, hchild, addressOf?]
  | cons first path ih =>
      intro e address hmiddle haddress
      obtain ⟨mapping', relation', child', hmapping', hrelation', _, hchild', hrest⟩ :=
        descend_cons_eq_ok.1 hmiddle
      obtain ⟨below, hbelow, _⟩ := addressOf?_of_descend hrest
      have hstep := ih hrest hbelow
      rw [addressOf?, mappingFor_eq_ok.1 hmapping'] at haddress
      rw [List.cons_append, addressOf?, mappingFor_eq_ok.1 hmapping']
      simp only [hrelation', hchild', hbelow, Option.bind_eq_bind, Option.bind_some,
        Option.pure_def, Option.some.injEq] at haddress
      simp only [hrelation', hchild', hstep, Option.bind_eq_bind, Option.bind_some,
        Option.pure_def]
      rw [← haddress, List.cons_append]

end Registry

theorem Path.parent?_append_singleton (path : Path) (segment : Segment) :
    Path.parent? (path ++ [segment]) = some path := by
  rw [Path.parent?, List.dropLast_concat]
  cases path <;> rfl

namespace IsTraversal

variable {registry : Registry} {root : Entity} {members : List Member}

/-- The path of every member is read as its entity. -/
theorem resolve (htraversal : IsTraversal registry root members) {member : Member}
    (hmember : member ∈ members) : registry.resolve root member.path = .ok member.entity := by
  obtain ⟨i, hi⟩ := List.mem_iff_getElem?.1 hmember
  clear hmember
  -- members come after their parents, so the induction is on the position
  induction i using Nat.strongRecOn generalizing member with
  | _ i ih =>
      cases i with
      | zero =>
          obtain ⟨self, rest, rfl, hentity, hpath, _⟩ := htraversal.root
          obtain rfl : self = member := by simpa using hi
          rw [hpath, hentity]
          rfl
      | succ i =>
          obtain ⟨p, hp, parent, hparent, _, segment, relation, hpath, _, hrelation, _,
            hchildren, hchild⟩ := htraversal.linked i member hi
          have habove := ih p (by omega) hparent
          have hknown := htraversal.known parent (List.mem_of_getElem? hparent)
          rw [hpath, Registry.resolve, Registry.descend_append]
          refine ⟨parent.entity, Registry.descend_whole habove, ?_⟩
          rw [Registry.descend_cons_eq_ok]
          exact ⟨parent.mapping, relation, member.entity, hknown.1, hrelation, hchildren,
            hchild, rfl⟩

theorem eq_of_path_eq (htraversal : IsTraversal registry root members)
    {member other : Member} (hmember : member ∈ members) (hother : other ∈ members)
    (hpath : member.path = other.path) : member = other :=
  List.inj_on_of_nodup_map htraversal.distinct hmember hother hpath

/-- The parent of a member that is not the root. -/
theorem exists_parent (htraversal : IsTraversal registry root members) {member : Member}
    (hmember : member ∈ members) (hroot : member.path ≠ []) :
    ∃ parent ∈ members, (∃ p, members[p]? = some parent ∧ member.parent = some p) ∧
      member.IsChildOf parent.mapping parent.entity parent.path := by
  obtain ⟨i, hi⟩ := List.mem_iff_getElem?.1 hmember
  cases i with
  | zero =>
      obtain ⟨self, rest, rfl, _, hpath, _⟩ := htraversal.root
      obtain rfl : self = member := by simpa using hi
      exact absurd hpath hroot
  | succ i =>
      obtain ⟨p, _, parent, hparent, hnumber, hchild⟩ := htraversal.linked i member hi
      exact ⟨parent, List.mem_of_getElem? hparent, ⟨p, hparent, hnumber⟩, hchild⟩

/-- What hangs directly under a member is its child. -/
theorem isChildOf_of_isDirectlyBelow (htraversal : IsTraversal registry root members)
    {child parent : Member} (hchild : child ∈ members) (hparent : parent ∈ members)
    (hbelow : child.IsDirectlyBelow parent) :
    (∃ p, members[p]? = some parent ∧ child.parent = some p) ∧
      child.IsChildOf parent.mapping parent.entity parent.path := by
  obtain ⟨segment, hpath⟩ := hbelow
  have hroot : child.path ≠ [] := by
    rw [hpath]
    exact List.append_ne_nil_of_right_ne_nil _ (List.cons_ne_nil _ _)
  obtain ⟨found, hfound, hnumber, hisChild⟩ := htraversal.exists_parent hchild hroot
  obtain ⟨segment', _, hpath', _⟩ := id hisChild
  obtain ⟨hparents, _⟩ := List.append_inj' (hpath'.symm.trans hpath) rfl
  obtain rfl := htraversal.eq_of_path_eq hfound hparent hparents
  exact ⟨hnumber, hisChild⟩

/-- The address of a member continues that of its parent. -/
theorem address_of_isChildOf (htraversal : IsTraversal registry root members)
    {parent child : Member} (hparent : parent ∈ members)
    (hchild : child.IsChildOf parent.mapping parent.entity parent.path) :
    ∃ segment relation address, child.path = parent.path ++ [segment] ∧
      parent.mapping.relations[segment.relation]? = some relation ∧
      (∀ earlier < segment.relation, ∀ other,
        parent.mapping.relations[earlier]? = some other → other.slot ≠ relation.slot) ∧
      registry.addressOf? parent.path root = some address ∧
      registry.addressOf? child.path root =
        some (address ++ [(relation.slot, segment.index)]) := by
  obtain ⟨segment, relation, hpath, _, hrelation, hfirst, _, hget⟩ := hchild
  have hresolve := htraversal.resolve hparent
  obtain ⟨address, haddress, _⟩ := Registry.addressOf?_of_descend hresolve
  refine ⟨segment, relation, address, hpath, hrelation, hfirst, haddress, ?_⟩
  rw [hpath]
  exact Registry.addressOf?_append_singleton (htraversal.known parent hparent).1 hrelation
    hget hresolve haddress

/-- Different members stand at different addresses. -/
theorem eq_of_address_eq (htraversal : IsTraversal registry root members)
    {member other : Member} (hmember : member ∈ members) (hother : other ∈ members)
    (haddress : registry.addressOf? member.path root = registry.addressOf? other.path root) :
    member = other := by
  obtain ⟨address, hmemberAddress, -⟩ :=
    Registry.addressOf?_of_descend (htraversal.resolve hmember)
  have hotherAddress : registry.addressOf? other.path root = some address :=
    haddress ▸ hmemberAddress
  clear haddress
  induction address using List.reverseRecOn generalizing member other with
  | nil =>
      have hlength := Registry.length_of_addressOf? hmemberAddress
      have hlength' := Registry.length_of_addressOf? hotherAddress
      apply htraversal.eq_of_path_eq hmember hother
      rw [List.length_eq_zero_iff.1 hlength.symm, List.length_eq_zero_iff.1 hlength'.symm]
  | append_singleton address last ih =>
      have hroot : member.path ≠ [] := by
        intro hempty
        simp [hempty, Registry.addressOf?] at hmemberAddress
      have hroot' : other.path ≠ [] := by
        intro hempty
        simp [hempty, Registry.addressOf?] at hotherAddress
      obtain ⟨parent, hparent, _, hchild⟩ := htraversal.exists_parent hmember hroot
      obtain ⟨parent', hparent', _, hchild'⟩ := htraversal.exists_parent hother hroot'
      obtain ⟨segment, relation, above, hpath, hrelation, hfirst, habove, hwhole⟩ :=
        htraversal.address_of_isChildOf hparent hchild
      obtain ⟨segment', relation', above', hpath', hrelation', hfirst', habove', hwhole'⟩ :=
        htraversal.address_of_isChildOf hparent' hchild'
      rw [hmemberAddress, Option.some.injEq] at hwhole
      rw [hotherAddress, Option.some.injEq] at hwhole'
      obtain ⟨rfl, rfl⟩ : address = above ∧ last = (relation.slot, segment.index) := by
        simpa using hwhole
      obtain ⟨rfl, hlast⟩ : address = above' ∧
          (relation.slot, segment.index) = (relation'.slot, segment'.index) := by
        simpa using hwhole'
      obtain ⟨hslot, hindex⟩ := Prod.mk.inj hlast
      obtain rfl := ih hparent hparent' habove habove'
      -- both relations are the first of their slot, hence the same
      have hsame : segment.relation = segment'.relation := by
        rcases Nat.lt_trichotomy segment.relation segment'.relation with hlt | heq | hgt
        · exact absurd hslot (hfirst' _ hlt relation hrelation)
        · exact heq
        · exact absurd hslot.symm (hfirst _ hgt relation' hrelation')
      apply htraversal.eq_of_path_eq hmember hother
      obtain ⟨relationIndex, position⟩ := segment
      obtain ⟨relationIndex', position'⟩ := segment'
      obtain rfl : relationIndex = relationIndex' := hsame
      obtain rfl : position = position' := hindex
      rw [hpath, hpath']

end IsTraversal

end AggregateSync
