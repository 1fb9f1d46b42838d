import AggregateSync.Proofs.Graph.Noninterference
import AggregateSync.Proofs.Graph.Roll

/-!
# Comparisons and the order of children

The order in which children stand decides the numbers of the members, the paths to them and the
positions of the changes, and nothing else.  The rolls of a graph and of the same graph in
another order are permutations of each other; what a change says of a member can be read off the
card of the member; and the change to which it is linked can be told from the identities alone,
because among the changes every identity occurs once.
-/

namespace AggregateSync

/-- Entities of one class and with the same fields that hold the same children, up to their
order in a list and up to the same of each child.  Where a slot shows one child at most, there
is nothing to reorder. -/
inductive Entity.Rearranged : Entity → Entity → Prop
  | intro {e other : Entity} (label : e.label = other.label) (order : Slot → List Entity)
      (perm : ∀ slot, (e.children slot).Perm (order slot))
      (held : ∀ slot, List.Forall₂ Rearranged (order slot) (other.children slot)) :
      Rearranged e other

/-- Both rolls have the same cards in some order, or both fail. -/
def Roll.Rearranged (roll other : Roll) : Prop :=
  ∀ depth relation parentKey, Result.Related (fun _ _ => True) List.Perm
    (roll depth relation parentKey) (other depth relation parentKey)

/-! ## Rolls -/

section Rolls

variable {registry : Registry} {e other : Entity}

theorem Entity.Rearranged.type_eq (hrearranged : e.Rearranged other) : e.type = other.type := by
  obtain ⟨hlabel, _, _, _⟩ := hrearranged
  exact (Prod.mk.inj hlabel).1

theorem Entity.Rearranged.refl : ∀ e : Entity, e.Rearranged e := by
  refine Entity.treeInduction fun type fields members ih => ?_
  refine .intro rfl _ (fun slot => .refl _) fun slot => ?_
  rw [List.forall₂_same]
  exact fun child hchild => ih _ (Entity.mem_of_mem_inSlot hchild)

/-- An entity whose only children stand in a list. -/
theorem Entity.Rearranged.of_one_list {type : EntityType} {fields : List (Field × Value)}
    {list : Slot} (hlist : list.isMany = true) {kids order kids' : List Entity}
    (hperm : kids.Perm order) (hheld : List.Forall₂ Entity.Rearranged order kids') :
    (Entity.mk type fields (kids.map fun kid => (list, kid))).Rearranged
      (.mk type fields (kids'.map fun kid => (list, kid))) := by
  refine .intro rfl (fun slot => if slot = list then order else []) (fun slot => ?_)
    fun slot => ?_ <;> rw [Entity.children_of_one_list hlist]
  all_goals split
  · exact hperm
  · exact .nil
  · exact hheld
  · exact .nil

/-- A relation asks for the classes of the children only, one by one. -/
theorem Relation.children_rearranged {relation : Relation} (htype : e.type = other.type)
    {order : List Entity} (hperm : (e.children relation.slot).Perm order)
    (hheld : List.Forall₂ Entity.Rearranged order (other.children relation.slot)) :
    Result.Related (fun _ _ => True) (fun _ _ => True) (relation.children e)
      (relation.children other) := by
  have hstrangers : ∀ strange : EntityType → Bool,
      ((e.children relation.slot).any fun child => strange child.type) =
        (other.children relation.slot).any fun child => strange child.type := by
    intro strange
    rw [hperm.any_eq]
    exact any_eq_of_forall₂ hheld fun child child' hchild => by rw [hchild.type_eq]
  refine Relation.children_related (fun _ => trivial) htype (fun _ _ _ => trivial)
    (rel_of_isSome_eq ?_)
  rw [List.isSome_find?, List.isSome_find?]
  exact hstrangers fun type => (relation.target? type).isNone

theorem rollChildren_rearranged {rolls order rolls' : List Roll} (hperm : rolls.Perm order)
    (hrolls : List.Forall₂ Roll.Rearranged order rolls') (depth relation : Nat)
    (parentKey : Option IdentityKey) :
    Result.Related (fun _ _ => True) List.Perm (rollChildren depth relation parentKey rolls)
      (rollChildren depth relation parentKey rolls') := by
  have hreordered : Result.Related (fun _ _ => True) List.Perm
      (rollChildren depth relation parentKey rolls)
      (rollChildren depth relation parentKey order) :=
    (Result.Related.mapM_perm hperm).bind fun _ _ hblocks => .ok hblocks.flatten
  have hreplaced : Result.Related (fun _ _ => True) List.Perm
      (rollChildren depth relation parentKey order)
      (rollChildren depth relation parentKey rolls') :=
    (Result.Related.mapM hrolls fun _ _ hroll => hroll depth (some relation) parentKey).bind
      fun _ _ hblocks => .ok (List.Perm.flatten_congr hblocks)
  exact hreordered.trans hreplaced (fun _ _ _ _ _ => trivial) fun _ _ _ => .trans

theorem rollRelations_rearranged {rolls rolls' order : Slot → List Roll}
    {held : Slot → List Entity} (htype : e.type = other.type)
    (hperm : ∀ slot, (e.children slot).Perm (held slot))
    (hheld : ∀ slot, List.Forall₂ Entity.Rearranged (held slot) (other.children slot))
    (hreordered : ∀ slot, (rolls slot).Perm (order slot))
    (hrolls : ∀ slot, List.Forall₂ Roll.Rearranged (order slot) (rolls' slot)) (depth : Nat)
    (parentKey : Option IdentityKey) (index : Nat) (visited : List Slot)
    (relations : List Relation) :
    Result.Related (fun _ _ => True) List.Perm
      (rollRelations e rolls depth parentKey index visited relations)
      (rollRelations other rolls' depth parentKey index visited relations) := by
  induction relations generalizing index visited with
  | nil => exact .ok .nil
  | cons relation rest ih =>
      rw [rollRelations, rollRelations]
      refine (Relation.children_rearranged htype (hperm _) (hheld _)).bind fun _ _ _ => ?_
      split
      · exact ih _ _
      · refine (rollChildren_rearranged (hreordered _) (hrolls _) _ _ _).bind
          fun below below' hbelow => ?_
        exact (ih _ _).bind fun beyond beyond' hbeyond => .ok (hbelow.append hbeyond)

end Rolls

/-- Rolls of rearranged entities have the same cards. -/
theorem rollEntity_rearranged (registry : Registry) : ∀ e other : Entity, e.Rearranged other →
    Roll.Rearranged (rollEntity registry e) (rollEntity registry other) := by
  refine Entity.treeInduction fun type fields members ih => ?_
  rintro other ⟨hlabel, order, hperm, hheld⟩ depth relation parentKey
  have htype : (Entity.mk type fields members).type = other.type := (Prod.mk.inj hlabel).1
  rw [rollEntity_eq, rollEntity_eq, ← Registry.mappingFor_congr htype]
  cases hmapping : registry.mappingFor (.mk type fields members) with
  | error fault => exact .error trivial
  | ok mapping =>
      have hkey : mapping.identityKey (.mk type fields members) = mapping.identityKey other :=
        ClassMapping.identityKey_congr (Registry.same_of_mappingFor hmapping) htype
          fun key _ => Entity.read_of_label hlabel key.field
      rw [Result.ok_bind, Result.ok_bind, hkey, hlabel]
      refine .self_bind (fun _ => trivial) _ fun key => ?_
      have hrolls : ∀ slot, List.Forall₂ Roll.Rearranged
          ((order slot).map (rollEntity registry))
          ((other.children slot).map (rollEntity registry)) := by
        intro slot
        rw [List.forall₂_map_left_iff, List.forall₂_map_right_iff]
        have hboth := (List.forall₂_and_left _ _).2 ⟨fun kid hkid =>
          ih _ (Entity.mem_of_mem_inSlot ((hperm slot).mem_iff.2 hkid)), hheld slot⟩
        exact hboth.imp fun kid kid' hkid => hkid.1 kid' hkid.2
      refine (rollRelations_rearranged htype hperm hheld (fun slot => (hperm slot).map _) hrolls
        (depth + 1) key 0 [] mapping.relations).bind fun below below' hbelow => ?_
      exact .ok (hbelow.cons _)

/-- Rearranged graphs have the same members in some order, as far as their cards go. -/
theorem Registry.members_rearranged {registry : Registry} {graph graph' : Option Entity}
    (hgraph : Option.Rel Entity.Rearranged graph graph') :
    Result.Related (fun _ _ => True)
      (fun members members' => (members.map (Member.card members)).Perm
        (members'.map (Member.card members')))
      (registry.members graph) (registry.members graph') := by
  have hroll : Result.Related (fun _ _ => True) List.Perm (registry.roll graph)
      (registry.roll graph') := by
    cases hgraph with
    | none => exact .ok .nil
    | some hroot => exact rollEntity_rearranged registry _ _ hroot 0 none none
  have hmembers := registry.members_roll graph
  have hmembers' := registry.members_roll graph'
  generalize registry.members graph = listed, registry.members graph' = listed',
    registry.roll graph = rolled, registry.roll graph' = rolled' at *
  cases hroll with
  | error _ =>
      cases hmembers
      cases hmembers'
      exact .error trivial
  | ok hperm =>
      cases hmembers with
      | ok hcards =>
          cases hmembers' with
          | ok hcards' =>
              rw [← hcards, ← hcards'] at hperm
              exact .ok hperm

/-! ## Changes without their links -/

/-- What a change says, apart from where members and other changes stand. -/
structure Gist where
  type : EntityType
  key : Option IdentityKey
  state : ChangeState
  side : Side
  depth : Nat
  relation : Option Nat
  parentKey : Option IdentityKey
  changed : List String

/-- What the change says, apart from where members and other changes stand. -/
def Change.gist (change : Change) : Gist :=
  ⟨change.type, change.key, change.state, change.side, change.depth, change.relation,
    change.parentKey, change.changed⟩

section Unlinked

variable {filter : PropertyFilter} {before after after' : List Member} {member other : Member}

theorem Member.gist_change (members : List Member) (state : ChangeState) (side : Side)
    (changed : List String) (member : Member) :
    (member.change members state side changed).gist =
      ⟨(member.card members).mapping.type, (member.card members).key, state, side,
        (member.card members).depth, (member.card members).relation,
        (member.card members).parentKey, changed⟩ := rfl

/-- What became of a member can be told from its card. -/
theorem gist_classify (hcard : member.card after = other.card after') :
    (classify filter before after member).gist = (classify filter before after' other).gist := by
  have hkey : member.key = other.key := congrArg Card.key hcard
  have hmapping : member.mapping = other.mapping := congrArg Card.mapping hcard
  have hread : ∀ field, member.entity.read field = other.entity.read field :=
    Entity.read_of_label (congrArg Card.label hcard)
  have hchanged : ∀ previous : Member,
      differences filter member.mapping previous.entity member.entity =
        differences filter other.mapping previous.entity other.entity := by
    intro previous
    rw [differences, differences, hmapping]
    simp only [hread]
  rw [classify, classify, hkey]
  cases other.key.bind fun key => before.find? (Member.hasKey key) with
  | none =>
      dsimp only
      rw [Member.gist_change, Member.gist_change, hcard]
  | some previous =>
      dsimp only
      rw [Member.gist_change, Member.gist_change, hcard, hchanged]

/-- The identities of the members, in some order. -/
theorem keys_perm
    (hcards : (after.map (Member.card after)).Perm (after'.map (Member.card after'))) :
    (after.map Member.key).Perm (after'.map Member.key) :=
  map_perm_of_map_perm hcards fun _ _ hcard => congrArg Card.key hcard

/-- Who is gone is decided by the identities that are there. -/
theorem isGone_of_keys_perm (hkeys : (after.map Member.key).Perm (after'.map Member.key)) :
    Member.isGone after = Member.isGone after' := by
  funext member
  have hany : ∀ key : IdentityKey,
      after.any (Member.hasKey key) = after'.any (Member.hasKey key) := by
    intro key
    have hsame := hkeys.any_eq (f := fun other => other.any key.equal)
    rw [List.any_map, List.any_map] at hsame
    exact hsame
  rw [Member.isGone, Member.isGone]
  simp only [hany]

theorem distinctIdentities_of_keys_perm
    (hkeys : (after.map Member.key).Perm (after'.map Member.key)) :
    DistinctIdentities after ↔ DistinctIdentities after' := by
  let apart : Option IdentityKey → Option IdentityKey → Prop := fun key other =>
    ¬ ∃ identity otherIdentity, key = some identity ∧ other = some otherIdentity ∧
      identity.equal otherIdentity = true
  have hsymm : ∀ {key other : Option IdentityKey}, apart key other → apart other key := by
    rintro key other hapart ⟨identity, otherIdentity, hkey, hother, hequal⟩
    exact hapart ⟨otherIdentity, identity, hother, hkey, by rwa [IdentityKey.equal_comm]⟩
  calc DistinctIdentities after
      ↔ (after.map Member.key).Pairwise apart :=
        (List.pairwise_map (f := Member.key) (R := apart)).symm
    _ ↔ (after'.map Member.key).Pairwise apart := hkeys.pairwise_iff hsymm
    _ ↔ DistinctIdentities after' :=
        List.pairwise_map (f := Member.key) (R := apart)

/-- Both lists of members pass the check of the identities, or neither does. -/
theorem checkIdentities_of_keys_perm
    (hkeys : (after.map Member.key).Perm (after'.map Member.key)) :
    Result.Related (fun _ _ => True) Eq (checkIdentities after) (checkIdentities after') := by
  have hiff := distinctIdentities_of_keys_perm hkeys
  rcases checkIdentities_spec after with ⟨hdistinct, hok⟩ | ⟨hrepeated, _, herror, _⟩
  · rcases checkIdentities_spec after' with ⟨_, hok'⟩ | ⟨hrepeated', _⟩
    · rw [hok, hok']
      exact .ok rfl
    · exact absurd (hiff.1 hdistinct) hrepeated'
  · rcases checkIdentities_spec after' with ⟨hdistinct', _⟩ | ⟨_, _, herror', _⟩
    · exact absurd (hiff.2 hdistinct') hrepeated
    · rw [herror, herror']
      exact .error trivial

/-- The changes say the same of the members, in some order. -/
theorem gists_perm
    (hcards : (after.map (Member.card after)).Perm (after'.map (Member.card after'))) :
    ((linkParents (Registry.unlinkedChanges filter before after)).map Change.gist).Perm
      ((linkParents (Registry.unlinkedChanges filter before after')).map Change.gist) := by
  have hlisted : ∀ members,
      ((linkParents (Registry.unlinkedChanges filter before members)).map Change.gist).Perm
        ((members.map fun member => (classify filter before members member).gist) ++
          ((before.filter (Member.isGone members)).map
            (Member.change before .removed .snapshot [])).map Change.gist) := by
    intro members
    have hperm := (Registry.unlinkedChanges_perm filter before members).map Change.gist
    rw [List.map_append, List.map_map] at hperm
    rw [linkParents, List.map_map]
    exact hperm
  have hkept : (after.map fun member => (classify filter before after member).gist).Perm
      (after'.map fun member => (classify filter before after' member).gist) :=
    map_perm_of_map_perm hcards fun _ _ => gist_classify
  refine (hlisted after).trans (.trans ?_ (hlisted after').symm)
  rw [isGone_of_keys_perm (keys_perm hcards)]
  exact hkept.append_right _

end Unlinked

/-! ## Links -/

/-- The identity in the change to which a change is linked, if it is linked. -/
def Change.linkedKey (changes : List Change) (change : Change) : Option (Option IdentityKey) :=
  (change.parent.bind fun number => changes[number]?).map Change.key

/-- The identity to which a change is linked, given those of all changes: the one that equals
the identity of the parent, or else the parent itself, if it is there. -/
def Gist.linkedKey (keys : List (Option IdentityKey)) (gist : Gist) :
    Option (Option IdentityKey) :=
  if gist.relation.isNone then none
  else
    match gist.parentKey with
    | some key => some ((keys.find? fun other => other.any key.equal).getD (some key))
    | none => if gist.side = .current then some none else none

section Links

variable {registry : Registry} {snapshot current : Option Entity} {filter : PropertyFilter}
  {changes : List Change} {change : Change}

/-- The first change with an identity that equals that of the parent is linked. -/
theorem linkedKey_of_find? {key : IdentityKey} {linked : Option IdentityKey}
    (hparent : change.parent = parentPosition changes change) (hroot : change.isRoot = false)
    (hkey : change.parentKey = some key)
    (hfound : ((changes.map Change.key).find? fun other => other.any key.equal) = some linked) :
    change.linkedKey changes = some linked := by
  rw [List.find?_map] at hfound
  change (changes.find? (Change.hasKey key)).map Change.key = some linked at hfound
  rw [List.find?_eq_bind_findIdx?_getElem?] at hfound
  rw [Change.linkedKey, hparent, parentPosition, hroot, hkey, Option.bind_some]
  cases hindex : changes.findIdx? (Change.hasKey key) with
  | none =>
      rw [hindex] at hfound
      cases hfound
  | some number =>
      rw [hindex] at hfound
      exact hfound

/-- Where no change has an identity that equals that of the parent, the parent itself is linked,
unless it is a member of the snapshot that was never saved. -/
theorem linkedKey_of_unequal (hcompare : registry.compare snapshot current filter = .ok changes)
    (hchange : change ∈ changes) (hroot : change.isRoot = false)
    (hunequal : ∀ key, change.parentKey = some key → ∀ target ∈ changes,
      ¬ target.hasKey key = true) :
    change.linkedKey changes =
      if change.parentKey = none ∧ change.side = .snapshot then none
      else some change.parentKey := by
  obtain ⟨before, after, hbefore, hafter, _, _, rfl⟩ := Registry.compare_eq_linkParents hcompare
  have hdifference := Registry.isDifference_of_compare hcompare hbefore hafter
  obtain ⟨child, hchild, hdescribes, hknows⟩ := mem_linkParents hchange
  obtain ⟨root, htraversal⟩ := Side.exists_traversal hbefore hafter hchild
  obtain ⟨parent, hparent, hbelow⟩ := htraversal.exists_parent_of_describes hchild hdescribes hroot
  have hkey := hknows.trans (htraversal.parentKey_eq hchild hparent hbelow)
  rw [Change.linkedKey, parent_eq_of_mem_linkParents hchange]
  rcases hdifference.parentPosition_cases hbefore hafter hchange hparent hdescribes hbelow hroot
    hkey with ⟨hnone, hside, hunsaved⟩ | ⟨p, target, shown, hp, htarget, hshows⟩
  · rw [hnone, if_pos ⟨hkey.trans hunsaved, hside⟩]
    rfl
  · have hmember := List.mem_of_getElem? htarget
    rw [hp, Option.bind_some, htarget, Option.map_some]
    cases hshows with
    | itself hitself =>
        -- A change of the snapshot tells of a saved member, so the parent has an identity.
        rw [hitself.key, ← hkey, if_neg]
        rintro ⟨hunsaved, hside⟩
        rcases hdifference.mem_cases hmember with ⟨_, _, hclassifies⟩ | ⟨_, _, hgone, hremoves⟩
        · cases hclassifies.side.symm.trans (hitself.side.trans hside)
        · have hsaved := hgone.1
          rw [← hremoves.key, hitself.key, ← hkey, hunsaved] at hsaved
          cases hsaved
    | survivor _ _ hsame hsurvivor =>
        -- What is left of the parent elsewhere would have been found by its identity.
        obtain ⟨key, key', hparentKey, hshownKey, hequal⟩ := hsame
        refine absurd ?_ (hunequal key (hkey.trans hparentKey) target hmember)
        rw [Change.hasKey, hsurvivor.key, hshownKey]
        exact hequal

/-- The link of a change can be told from the identities of the changes. -/
theorem linkedKey_eq (hcompare : registry.compare snapshot current filter = .ok changes)
    (hchange : change ∈ changes) :
    change.linkedKey changes = change.gist.linkedKey (changes.map Change.key) := by
  have hparent : change.parent = parentPosition changes change := by
    obtain ⟨_, _, _, _, _, _, rfl⟩ := Registry.compare_eq_linkParents hcompare
    exact parent_eq_of_mem_linkParents hchange
  cases hroot : change.isRoot with
  | true =>
      rw [Change.linkedKey, Gist.linkedKey, hparent, parentPosition, if_pos hroot]
      exact (if_pos hroot).symm
  | false =>
      have hrelation : ¬ change.gist.relation.isNone = true := by
        rw [Bool.not_eq_true]
        exact hroot
      have hparentKey : change.gist.parentKey = change.parentKey := rfl
      rw [Gist.linkedKey, if_neg hrelation, hparentKey]
      cases hkey : change.parentKey with
      | none =>
          have hunequal : ∀ key, change.parentKey = some key → ∀ target ∈ changes,
              ¬ target.hasKey key = true := by
            intro key hsome
            cases hkey.symm.trans hsome
          rw [linkedKey_of_unequal hcompare hchange hroot hunequal, hkey]
          change _ = if change.side = .current then _ else _
          cases change.side <;> rfl
      | some key =>
          dsimp only
          cases hfound : (changes.map Change.key).find? fun other => other.any key.equal with
          | some linked => exact linkedKey_of_find? hparent hroot hkey hfound
          | none =>
              have hunequal : ∀ other, change.parentKey = some other → ∀ target ∈ changes,
                  ¬ target.hasKey other = true := by
                intro other hother target htarget
                obtain rfl : key = other := Option.some.inj (hkey.symm.trans hother)
                exact List.find?_eq_none.1 hfound _ (List.mem_map_of_mem htarget)
              rw [linkedKey_of_unequal hcompare hchange hroot hunequal, hkey]
              exact if_neg fun hboth => Option.some_ne_none key hboth.1

/-- The identities of the changes lead to one link, whatever their order. -/
theorem Gist.linkedKey_of_perm {changes' : List Change}
    (hdistinct : changes.Pairwise fun change other => ¬ change.SameIdentity other)
    (hkeys : (changes.map Change.key).Perm (changes'.map Change.key)) :
    Gist.linkedKey (changes.map Change.key) = Gist.linkedKey (changes'.map Change.key) := by
  have hfind : ∀ key : IdentityKey,
      ((changes.map Change.key).find? fun other => other.any key.equal) =
        (changes'.map Change.key).find? fun other => other.any key.equal := by
    intro key
    apply find?_perm hkeys
    rw [List.pairwise_map]
    refine hdistinct.imp ?_
    rintro change other hdiffer ⟨hchange, hother⟩
    obtain ⟨identity, hidentity, hequal⟩ := Option.any_eq_true _ _ |>.1 hchange
    obtain ⟨identity', hidentity', hequal'⟩ := Option.any_eq_true _ _ |>.1 hother
    refine hdiffer ⟨identity, identity', hidentity, hidentity', ?_⟩
    rw [IdentityKey.equal_comm] at hequal
    exact IdentityKey.equal_trans hequal hequal'
  funext gist
  rw [linkedKey, linkedKey]
  simp only [hfind]

/-- Changes that say the same in some order say the same with their links. -/
theorem linkedGists_perm {current' : Option Entity} {changes' : List Change}
    (hcompare : registry.compare snapshot current filter = .ok changes)
    (hcompare' : registry.compare snapshot current' filter = .ok changes')
    (hgists : (changes.map Change.gist).Perm (changes'.map Change.gist)) :
    (changes.map fun change => (change.gist, change.linkedKey changes)).Perm
      (changes'.map fun change => (change.gist, change.linkedKey changes')) := by
  have hlinked : ∀ {graph : Option Entity} {listed : List Change},
      registry.compare snapshot graph filter = .ok listed →
      (listed.map fun change => (change.gist, change.linkedKey listed)) =
        (listed.map Change.gist).map fun gist =>
          (gist, gist.linkedKey (listed.map Change.key)) := by
    intro graph listed hlisted
    rw [List.map_map]
    exact List.map_congr_left fun change hchange =>
      congrArg (Prod.mk change.gist) (linkedKey_eq hlisted hchange)
  obtain ⟨_, _, _, _, hdifference⟩ := Registry.compare_eq_ok hcompare
  have hkeys : (changes.map Change.key).Perm (changes'.map Change.key) :=
    map_perm_of_map_perm hgists fun _ _ hgist => congrArg Gist.key hgist
  rw [hlinked hcompare, hlinked hcompare', Gist.linkedKey_of_perm hdifference.distinct hkeys]
  exact hgists.map _

end Links

/-- If children of the current graph are put in another order, at any depth, a comparison says
the same as before, of each member once and with the same link, or it fails for both orders. -/
theorem compare_ignores_order (registry : Registry) (snapshot : Option Entity)
    {current current' : Option Entity} (filter : PropertyFilter)
    (hcurrent : Option.Rel Entity.Rearranged current current') :
    Result.Related (fun _ _ => True)
      (fun changes changes' =>
        (changes.map fun change => (change.gist, change.linkedKey changes)).Perm
          (changes'.map fun change => (change.gist, change.linkedKey changes')))
      (registry.compare snapshot current filter) (registry.compare snapshot current' filter) := by
  have hnone : current.isNone = current'.isNone := isNone_eq_of_rel hcurrent
  -- Up to the links, a comparison is a chain of steps each of which is blind to the order.
  have hgists : Result.Related (fun _ _ => True)
      (fun changes changes' => (changes.map Change.gist).Perm (changes'.map Change.gist))
      (registry.compare snapshot current filter)
      (registry.compare snapshot current' filter) := by
    cases hgiven : snapshot.isNone && current.isNone with
    | true =>
        rw [Registry.compare, Registry.compare, ← hnone, hgiven]
        exact .error trivial
    | false =>
        rw [Registry.compare_eq_chain hgiven, Registry.compare_eq_chain (hnone ▸ hgiven)]
        refine .self_bind (fun _ => trivial) _ fun before => ?_
        refine (Registry.members_rearranged hcurrent).bind fun after after' hcards => ?_
        refine .self_bind (fun _ => trivial) _ fun _ => ?_
        refine (checkIdentities_of_keys_perm (keys_perm hcards)).bind fun _ _ _ => ?_
        exact .ok (gists_perm hcards)
  generalize hcompare : registry.compare snapshot current filter = compared,
    hcompare' : registry.compare snapshot current' filter = compared' at hgists ⊢
  cases hgists with
  | ok hperm => exact .ok (linkedGists_perm hcompare hcompare' hperm)
  | error _ => exact .error trivial

/-! ## Parcels in another order -/

namespace Shipping

/-- Two parcels, the first of which holds two items. -/
def stowed : Entity := orderOf 1 [parcelOf 1 1 [itemOf 1 1, itemOf 2 1], parcelOf 2 1 []]

/-- The first parcel is gone with one of its items, and the other lies in the second parcel
together with a new one. -/
def shelved : Entity := orderOf 1 [parcelOf 3 1 [], parcelOf 2 1 [itemOf 2 2, itemOf 4 2]]

/-- The same parcels and items, in another order. -/
def reshelved : Entity := orderOf 1 [parcelOf 2 1 [itemOf 4 2, itemOf 2 2], parcelOf 3 1 []]

theorem shelved_rearranged : shelved.Rearranged reshelved := by
  have hparcel : (parcelOf 2 1 [itemOf 2 2, itemOf 4 2]).Rearranged
      (parcelOf 2 1 [itemOf 4 2, itemOf 2 2]) :=
    .of_one_list rfl (.swap _ _ _) (.cons (.refl _) (.cons (.refl _) .nil))
  exact .of_one_list rfl (.swap _ _ _) (.cons hparcel (.cons (.refl _) .nil))

end Shipping

/-- The changes stand in another order and are linked to other positions, but say the same. -/
theorem reshelved_compare_alike :
    ∃ changes changes',
      Shipping.registry.compare (some Shipping.stowed) (some Shipping.shelved)
        (fun _ _ => true) = .ok changes ∧
      Shipping.registry.compare (some Shipping.stowed) (some Shipping.reshelved)
        (fun _ _ => true) = .ok changes' ∧
      changes.map Change.state =
        [.unmodified, .added, .unmodified, .removed, .modified, .added, .removed] ∧
      changes'.map Change.state =
        [.unmodified, .unmodified, .added, .removed, .added, .modified, .removed] ∧
      changes.map Change.parent =
        [none, some 0, some 0, some 0, some 2, some 2, some 3] ∧
      changes'.map Change.parent =
        [none, some 0, some 0, some 0, some 1, some 1, some 3] ∧
      (changes.map fun change => (change.gist, change.linkedKey changes)).Perm
        (changes'.map fun change => (change.gist, change.linkedKey changes')) := by
  have hrelated := compare_ignores_order Shipping.registry (some Shipping.stowed)
    (fun _ _ => true) (.some Shipping.shelved_rearranged)
  have hcompare : Shipping.registry.compare (some Shipping.stowed) (some Shipping.shelved)
      (fun _ _ => true) = .ok _ := rfl
  have hcompare' : Shipping.registry.compare (some Shipping.stowed) (some Shipping.reshelved)
      (fun _ _ => true) = .ok _ := rfl
  rw [hcompare, hcompare'] at hrelated
  obtain ⟨changes, hchanges, hperm⟩ := hrelated.exists_ok
  cases hchanges
  exact ⟨_, _, hcompare, hcompare', rfl, rfl, rfl, rfl, hperm⟩

end AggregateSync
