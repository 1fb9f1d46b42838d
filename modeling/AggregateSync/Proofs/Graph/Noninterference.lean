import AggregateSync.Proofs.Graph.Alike
import AggregateSync.Proofs.Graph.Identity
import AggregateSync.Proofs.Relational

/-!
# What a comparison does not look at

A comparison reads the keys of the members, the compared properties and what the relations hold.
Graphs that agree in these are told apart by nothing that a comparison does: their traversals
list members that agree, one by one, and every later step sees of a member only what members that
agree have in common.  So a property that is only loaded, or that the filter refuses, never has a
part in a difference.
-/

namespace AggregateSync

/-- Entities of one class that show the same keys and the same compared properties, and whose
relations hold entities of which the same is true.  Nothing is asked of what no relation holds. -/
inductive Entity.Agrees (registry : Registry) (filter : PropertyFilter) : Entity → Entity → Prop
  | intro {e other : Entity} (type : e.type = other.type)
      (keys : ∀ mapping, registry.mappingFor e = .ok mapping → ∀ key ∈ mapping.keys,
        e.read key.field = other.read key.field)
      (compared : ∀ mapping, registry.mappingFor e = .ok mapping →
        ∀ property ∈ mapping.writableProperties, filter mapping property = true →
          e.read property.field = other.read property.field)
      (held : ∀ mapping, registry.mappingFor e = .ok mapping → ∀ relation ∈ mapping.relations,
        List.Forall₂ (Agrees registry filter) (e.children relation.slot)
          (other.children relation.slot)) :
      Agrees registry filter e other

/-- Members at one place whose entities show the same keys and compared properties. -/
structure Member.Agrees (filter : PropertyFilter) (member other : Member) : Prop
    extends member.Alike other where
  key : member.key = other.key
  compared : ∀ property ∈ member.mapping.writableProperties,
    filter member.mapping property = true →
      member.entity.read property.field = other.entity.read property.field

/-- Both visits list members that agree, or fail alike. -/
def Visit.Agrees (filter : PropertyFilter) (visit other : Visit) : Prop :=
  ∀ path parent relation number, Result.Related Eq (List.Forall₂ (Member.Agrees filter))
    (visit path parent relation number) (other path parent relation number)

/-- Both lists of members agree, and so do the numbers of the children among them. -/
def BlocksAgree (filter : PropertyFilter) (block other : List Nat × List Member) : Prop :=
  block.1 = other.1 ∧ List.Forall₂ (Member.Agrees filter) block.2 other.2

/-! ## Traversals -/

section Visit

variable {registry : Registry} {filter : PropertyFilter} {e other : Entity}

theorem Entity.Agrees.type_eq (hagrees : e.Agrees registry filter other) :
    e.type = other.type := by
  cases hagrees
  assumption

/-- The identity of an entity is read from its keys. -/
theorem ClassMapping.identityKey_congr {mapping : ClassMapping}
    (hsame : e.type.same mapping.type = true) (htype : e.type = other.type)
    (hkeys : ∀ key ∈ mapping.keys, e.read key.field = other.read key.field) :
    mapping.identityKey e = mapping.identityKey other := by
  have hreadings : mapping.keyReadings e = mapping.keyReadings other :=
    List.map_congr_left hkeys
  have hsaved : mapping.isSaved e = mapping.isSaved other := by
    rw [isSaved, isSaved, hreadings]
    cases hgenerated : mapping.generatedKey? with
    | none => rfl
    | some key =>
        rw [Option.any_some, Option.any_some, hkeys key (List.mem_of_find?_eq_some hgenerated)]
  rw [identityKey_of_same hsame, identityKey_of_same (htype ▸ hsame), hreadings, hsaved]

/-- A relation fails over the first child of a class that it does not declare, and over nothing
else that children show. -/
theorem Relation.children_related {relation : Relation} {E : Error → Error → Prop}
    {R : Entity → Entity → Prop} (hself : ∀ fault, E fault fault) (htype : e.type = other.type)
    (hstranger : ∀ child child', R child child' →
      E (relation.strangerError child.type) (relation.strangerError child'.type))
    (hfound : Option.Rel R
      ((e.children relation.slot).find? fun child => (relation.target? child.type).isNone)
      ((other.children relation.slot).find? fun child =>
        (relation.target? child.type).isNone)) :
    Result.Related E (fun _ _ => True) (relation.children e) (relation.children other) := by
  have hparent : relation.checkParent e = relation.checkParent other := by
    rw [checkParent, checkParent, htype]
  rw [children, children, held, held, hparent]
  cases relation.checkParent other with
  | error fault => exact .error (hself fault)
  | ok _ =>
      simp only [Except.map, Result.ok_bind]
      generalize (e.children relation.slot).find?
          (fun child => (relation.target? child.type).isNone) = stranger,
        (other.children relation.slot).find?
          (fun child => (relation.target? child.type).isNone) = stranger' at hfound ⊢
      cases hfound with
      | none => exact .ok trivial
      | some hboth => exact .error (hstranger _ _ hboth)

/-- A relation looks at the classes of what it holds only. -/
theorem Relation.children_agree {relation : Relation} (htype : e.type = other.type)
    (hheld : List.Forall₂ (Entity.Agrees registry filter) (e.children relation.slot)
      (other.children relation.slot)) :
    Result.Related Eq (fun _ _ => True) (relation.children e) (relation.children other) := by
  refine Relation.children_related (fun _ => rfl) htype (fun child child' hchild => ?_)
    (rel_find?_of_forall₂ hheld fun child child' hchild => ?_)
  · rw [hchild.type_eq]
  · rw [hchild.type_eq]

theorem visitChildren_agree {path : Path} {number index : Nat} {visits others : List Visit}
    (hvisits : List.Forall₂ (Visit.Agrees filter) visits others) (position next : Nat) :
    Result.Related Eq (BlocksAgree filter)
      (visitChildren path number index position next visits)
      (visitChildren path number index position next others) := by
  induction hvisits generalizing position next with
  | nil => exact .ok ⟨rfl, .nil⟩
  | cons hfirst _ ih =>
      rw [visitChildren, visitChildren]
      refine (hfirst _ _ _ _).bind fun subtree subtree' hsubtree => ?_
      rw [hsubtree.length_eq]
      refine (ih _ _).bind ?_
      rintro ⟨numbers, below⟩ ⟨_, below'⟩ ⟨rfl, hbelow⟩
      exact .ok ⟨rfl, List.rel_append hsubtree hbelow⟩

theorem visitRelations_agree {visits visits' : Slot → List Visit} {path : Path} {number : Nat}
    (htype : e.type = other.type) (relations : List Relation)
    (hheld : ∀ relation ∈ relations, List.Forall₂ (Entity.Agrees registry filter)
      (e.children relation.slot) (other.children relation.slot))
    (hvisits : ∀ relation ∈ relations, List.Forall₂ (Visit.Agrees filter)
      (visits relation.slot) (visits' relation.slot)) (index next : Nat) (visited : List Slot) :
    Result.Related Eq (BlocksAgree filter)
      (visitRelations e visits path number index next visited relations)
      (visitRelations other visits' path number index next visited relations) := by
  induction relations generalizing index next visited with
  | nil => exact .ok ⟨rfl, .nil⟩
  | cons relation rest ih =>
      have hrest := ih (fun relation hrelation => hheld relation (List.mem_cons_of_mem _ hrelation))
        (fun relation hrelation => hvisits relation (List.mem_cons_of_mem _ hrelation))
      rw [visitRelations, visitRelations]
      refine (Relation.children_agree htype (hheld relation List.mem_cons_self)).bind
        fun _ _ _ => ?_
      split
      · exact hrest _ _ _
      · refine (visitChildren_agree (hvisits relation List.mem_cons_self) _ _).bind ?_
        rintro ⟨numbers, below⟩ ⟨_, below'⟩ ⟨rfl, hbelow⟩
        dsimp only
        rw [hbelow.length_eq]
        refine (hrest _ _ _).bind ?_
        rintro ⟨others, beyond⟩ ⟨_, beyond'⟩ ⟨rfl, hbeyond⟩
        exact .ok ⟨rfl, List.rel_append hbelow hbeyond⟩

end Visit

/-- Traversals of entities that agree list members that agree. -/
theorem visitEntity_agrees (registry : Registry) (filter : PropertyFilter) :
    ∀ e other : Entity, e.Agrees registry filter other →
      Visit.Agrees filter (visitEntity registry e) (visitEntity registry other) := by
  refine Entity.treeInduction fun type fields members ih => ?_
  intro other hagrees path parent relation number
  rw [visitEntity_eq, visitEntity_eq]
  obtain ⟨htype, hkeys, hcompared, hheld⟩ := hagrees
  have hclass : registry.mappingFor other = registry.mappingFor (.mk type fields members) :=
    (Registry.mappingFor_congr htype).symm
  rw [hclass]
  cases hmapping : registry.mappingFor (.mk type fields members) with
  | error fault => exact .error rfl
  | ok mapping =>
      have hsame := Registry.same_of_mappingFor hmapping
      rw [Result.ok_bind, Result.ok_bind,
        ClassMapping.identityKey_congr hsame htype (hkeys mapping hmapping)]
      refine .self_bind (fun _ => rfl) _ fun key => ?_
      have hvisits : ∀ relation ∈ mapping.relations, List.Forall₂ (Visit.Agrees filter)
          (((Entity.mk type fields members).children relation.slot).map (visitEntity registry))
          ((other.children relation.slot).map (visitEntity registry)) := by
        intro relation hrelation
        rw [List.forall₂_map_left_iff, List.forall₂_map_right_iff]
        have hboth := (List.forall₂_and_left _ _).2
          ⟨fun kid hkid => ih _ (Entity.mem_of_mem_inSlot hkid),
            hheld mapping hmapping relation hrelation⟩
        exact hboth.imp fun kid kid' hkid => hkid.1 kid' hkid.2
      refine (visitRelations_agree htype mapping.relations (hheld mapping hmapping) hvisits
        0 (number + 1) []).bind ?_
      rintro ⟨children, below⟩ ⟨_, below'⟩ ⟨rfl, hbelow⟩
      exact .ok (.cons ⟨⟨rfl, rfl, rfl, rfl⟩, rfl, hcompared mapping hmapping⟩ hbelow)

/-! ## Comparisons -/

/-- Members that agree, the first of which knows its mapping and its identity. -/
def Member.AgreesKnown (registry : Registry) (filter : PropertyFilter)
    (member other : Member) : Prop :=
  member.IsKnown registry ∧ member.Agrees filter other

section Comparison

variable {registry : Registry} {filter : PropertyFilter} {before before' after after' : List Member}

/-- By depth, related lists stay related. -/
theorem byDepth_forall₂ {α : Type} {R : α → α → Prop} {depth : α → Nat} {items items' : List α}
    (hitems : List.Forall₂ R items items') (hdepth : ∀ a b, R a b → depth a = depth b) :
    List.Forall₂ R (byDepth depth items) (byDepth depth items') := by
  have hbound : depthBound depth items = depthBound depth items' := by
    rw [depthBound, depthBound]
    induction hitems with
    | nil => rfl
    | cons hitem _ ih => rw [List.foldr_cons, List.foldr_cons, hdepth _ _ hitem, ih]
  rw [byDepth, byDepth, hbound]
  induction List.range (depthBound depth items') with
  | nil => exact .nil
  | cons level rest ih =>
      rw [List.flatMap_cons, List.flatMap_cons]
      refine List.rel_append (List.rel_filter (fun a b hab => ?_) hitems) ih
      dsimp only
      rw [hdepth a b hab]

theorem Member.Agrees.depth_eq {member other : Member} (hagrees : member.Agrees filter other) :
    member.depth = other.depth := by
  rw [depth, depth, hagrees.path]

/-- What stands at one number of lists that agree has one key. -/
theorem parentKey_congr
    (hmembers : List.Forall₂ (Member.AgreesKnown registry filter) before before')
    (number : Option Nat) :
    (number.bind fun number => before[number]?).bind Member.key =
      (number.bind fun number => before'[number]?).bind Member.key := by
  cases number with
  | none => rfl
  | some number =>
      have hparent := rel_getElem?_of_forall₂ hmembers number
      rw [Option.bind_some, Option.bind_some]
      generalize before[number]? = parent, before'[number]? = parent' at hparent ⊢
      cases hparent with
      | none => rfl
      | some hparent => exact hparent.2.key

/-- The change of a member shows what members that agree have in common. -/
theorem Member.change_congr
    (hmembers : List.Forall₂ (Member.AgreesKnown registry filter) before before')
    {member other : Member} (hagrees : member.Agrees filter other) (state : ChangeState)
    (side : Side) (changed : List String) :
    member.change before state side changed = other.change before' state side changed := by
  rw [change, change, hagrees.mapping, hagrees.path, hagrees.parent, hagrees.relation,
    hagrees.key, parentKey_congr hmembers]

/-- The member of an identity is found at one place of both lists. -/
theorem find?_hasKey_rel
    (hmembers : List.Forall₂ (Member.AgreesKnown registry filter) before before')
    (key : Option IdentityKey) :
    Option.Rel (Member.AgreesKnown registry filter)
      (key.bind fun key => before.find? (Member.hasKey key))
      (key.bind fun key => before'.find? (Member.hasKey key)) := by
  cases key with
  | none => exact .none
  | some key =>
      exact rel_find?_of_forall₂ hmembers fun member other hagrees => by
        rw [Member.hasKey, Member.hasKey, hagrees.2.key]

/-- Members of one class that agree with two others differ from each other where these do. -/
theorem differences_congr {mapping : ClassMapping} {member other previous previous' : Member}
    (hmember : member.Agrees filter other) (hprevious : previous.Agrees filter previous')
    (hmapping : member.mapping = mapping) (hmapping' : previous.mapping = mapping) :
    differences filter mapping previous.entity member.entity =
      differences filter mapping previous'.entity other.entity := by
  subst hmapping
  rw [differences, differences]
  congr 1
  refine List.filter_congr fun property hproperty => ?_
  obtain ⟨hwritable, haccepted⟩ := List.mem_filter.1 hproperty
  rw [hmember.compared property hwritable haccepted,
    hprevious.compared property (hmapping' ▸ hwritable) (hmapping' ▸ haccepted)]

theorem classify_congr
    (hbefore : List.Forall₂ (Member.AgreesKnown registry filter) before before')
    (hafter : List.Forall₂ (Member.AgreesKnown registry filter) after after')
    {member other : Member} (hmember : member.AgreesKnown registry filter other) :
    classify filter before after member = classify filter before' after' other := by
  have hfound := find?_hasKey_rel hbefore member.key
  rw [classify, classify, ← hmember.2.key]
  generalize hwas : (member.key.bind fun key => before.find? (Member.hasKey key)) = was,
    (member.key.bind fun key => before'.find? (Member.hasKey key)) = was' at hfound ⊢
  cases hfound with
  | none => exact Member.change_congr hafter hmember.2 _ _ _
  | some hprevious =>
      have hmapping := (sameIdentity_of_find?_hasKey hwas).2.mapping_eq hmember.1 hprevious.1
      have hchanged := differences_congr hmember.2 hprevious.2 rfl hmapping
      dsimp only
      rw [hmember.2.mapping, hchanged]
      exact Member.change_congr hafter hmember.2 _ _ _

theorem isGone_congr (hafter : List.Forall₂ (Member.AgreesKnown registry filter) after after')
    {member other : Member} (hmember : member.Agrees filter other) :
    member.isGone after = other.isGone after' := by
  rw [Member.isGone, Member.isGone, hmember.key]
  cases other.key with
  | none => rfl
  | some key =>
      have hany : after.any (Member.hasKey key) = after'.any (Member.hasKey key) :=
        any_eq_of_forall₂ hafter fun member other hagrees => by
          rw [Member.hasKey, Member.hasKey, hagrees.2.key]
      rw [Option.any_some, Option.any_some, hany]

theorem firstRepeated_rel
    (hbefore : List.Forall₂ (Member.AgreesKnown registry filter) before before')
    (hafter : List.Forall₂ (Member.AgreesKnown registry filter) after after') :
    Option.Rel (Member.AgreesKnown registry filter) (firstRepeated before after)
      (firstRepeated before' after') := by
  induction hafter generalizing before before' with
  | nil => exact .none
  | @cons member other _ _ hmember _ ih =>
      have hseen : (member.key.any fun key => before.any (Member.hasKey key)) =
          other.key.any fun key => before'.any (Member.hasKey key) := by
        rw [hmember.2.key]
        cases other.key with
        | none => rfl
        | some key =>
            exact any_eq_of_forall₂ hbefore fun member other hagrees => by
              rw [Member.hasKey, Member.hasKey, hagrees.2.key]
      rw [firstRepeated, firstRepeated, hseen]
      split
      · exact .some hmember
      · exact ih (.cons hmember hbefore)

/-- A repeated identity is reported alike. -/
theorem checkIdentities_congr
    (hmembers : List.Forall₂ (Member.AgreesKnown registry filter) before before') :
    checkIdentities before = checkIdentities before' := by
  have hrepeated := firstRepeated_rel .nil hmembers
  rw [checkIdentities, checkIdentities]
  generalize firstRepeated [] before = repeated, firstRepeated [] before' = repeated'
    at hrepeated ⊢
  cases hrepeated with
  | none => rfl
  | @some member other hmember =>
      have hparent : ((member.parent.bind fun number => before[number]?).getD member).mapping =
          ((other.parent.bind fun number => before'[number]?).getD other).mapping := by
        rw [hmember.2.parent]
        cases member.parent with
        | none => exact hmember.2.mapping.symm
        | some number =>
            have hat := rel_getElem?_of_forall₂ hmembers number
            rw [Option.bind_some, Option.bind_some]
            generalize before[number]? = parent, before'[number]? = parent' at hat ⊢
            cases hat with
            | none => exact hmember.2.mapping.symm
            | some hparent => exact hparent.2.mapping.symm
      dsimp only
      rw [hparent, hmember.2.mapping, hmember.2.key]

theorem unlinkedChanges_congr
    (hbefore : List.Forall₂ (Member.AgreesKnown registry filter) before before')
    (hafter : List.Forall₂ (Member.AgreesKnown registry filter) after after') :
    Registry.unlinkedChanges filter before after =
      Registry.unlinkedChanges filter before' after' := by
  have hsorted : ∀ {members members' : List Member},
      List.Forall₂ (Member.AgreesKnown registry filter) members members' →
      List.Forall₂ (Member.AgreesKnown registry filter) (byDepth Member.depth members)
        (byDepth Member.depth members') :=
    fun hmembers => byDepth_forall₂ hmembers fun _ _ hagrees => hagrees.2.depth_eq
  have hkept : (byDepth Member.depth after).map (classify filter before after) =
      (byDepth Member.depth after').map (classify filter before' after') :=
    map_eq_of_forall₂ (hsorted hafter) fun _ _ hagrees => classify_congr hbefore hafter hagrees
  have hgone : List.Forall₂ (Member.AgreesKnown registry filter)
      ((byDepth Member.depth before).filter (Member.isGone after))
      ((byDepth Member.depth before').filter (Member.isGone after')) :=
    List.rel_filter (fun _ _ hagrees => by dsimp only; rw [isGone_congr hafter hagrees.2])
      (hsorted hbefore)
  rw [Registry.unlinkedChanges, Registry.unlinkedChanges, hkept,
    map_eq_of_forall₂ hgone fun _ _ hagrees => Member.change_congr hbefore hagrees.2 _ _ _]

/-- Graphs that agree have members that agree, or cannot be traversed for one reason. -/
theorem Registry.members_agree {graph graph' : Option Entity}
    (hgraph : Option.Rel (Entity.Agrees registry filter) graph graph') :
    Result.Related Eq (List.Forall₂ (Member.AgreesKnown registry filter))
      (registry.members graph) (registry.members graph') := by
  cases hgraph with
  | none => exact .ok .nil
  | @some root other hroot =>
      have hvisit := visitEntity_agrees registry filter root other hroot [] none none 0
      have hknown : ∀ members, registry.members (some root) = .ok members →
          ∀ member ∈ members, member.IsKnown registry := fun _ => members_isKnown
      rw [members, traverse] at hknown
      rw [members, members, traverse, traverse]
      generalize visitEntity registry root [] none none 0 = visited,
        visitEntity registry other [] none none 0 = visited' at hvisit hknown ⊢
      cases hvisit with
      | error herrors => exact .error herrors
      | ok hmembers =>
          exact .ok ((List.forall₂_and_left _ _).2 ⟨hknown _ rfl, hmembers⟩)

/-- A comparison of graphs that are given is a chain of traversals and checks, and then cannot
fail any more. -/
theorem Registry.compare_eq_chain {snapshot current : Option Entity}
    (hgiven : (snapshot.isNone && current.isNone) = false) :
    registry.compare snapshot current filter = (do
      let before ← registry.members snapshot
      let after ← registry.members current
      checkIdentities before
      checkIdentities after
      return linkParents (Registry.unlinkedChanges filter before after)) := by
  have hsome : snapshot.isSome = true ∨ current.isSome = true := by
    cases snapshot <;> cases current <;> simp_all
  cases hbefore : registry.members snapshot with
  | error fault =>
      rw [compare, hgiven, hbefore]
      rfl
  | ok before =>
      cases hafter : registry.members current with
      | error fault =>
          rw [compare, hgiven, hbefore, hafter]
          rfl
      | ok after => exact compare_of_members filter hsome hbefore hafter

end Comparison

/-- Two pairs of graphs that agree in their classes, in what their relations hold, in their keys
and in the compared properties have one and the same difference, or fail to be compared for one
reason: whatever is only loaded or refused by the filter has no part in it. -/
theorem compare_ignores_excluded {registry : Registry} {filter : PropertyFilter}
    {snapshot snapshot' current current' : Option Entity}
    (hsnapshot : Option.Rel (Entity.Agrees registry filter) snapshot snapshot')
    (hcurrent : Option.Rel (Entity.Agrees registry filter) current current') :
    registry.compare snapshot current filter = registry.compare snapshot' current' filter := by
  have hsame : (snapshot.isNone && current.isNone) = (snapshot'.isNone && current'.isNone) := by
    rw [isNone_eq_of_rel hsnapshot, isNone_eq_of_rel hcurrent]
  cases hgiven : snapshot.isNone && current.isNone with
  | true =>
      have hgiven' := hsame.symm.trans hgiven
      rw [Registry.compare, Registry.compare, hgiven, hgiven']
      rfl
  | false =>
      have hgiven' := hsame.symm.trans hgiven
      rw [Registry.compare_eq_chain hgiven, Registry.compare_eq_chain hgiven']
      apply Result.Related.eq
      refine (Registry.members_agree hsnapshot).bind fun before before' hbefore => ?_
      refine (Registry.members_agree hcurrent).bind fun after after' hafter => ?_
      rw [checkIdentities_congr hbefore, checkIdentities_congr hafter,
        unlinkedChanges_congr hbefore hafter]
      exact .refl (fun _ => rfl) (fun _ => rfl) _

/-! ## Letters in letters

A letter encloses letters.  Its text is written and compared, the note on it may be left out of a
comparison, and the stamp is only loaded. -/

namespace Posting

def textField : Field := ⟨1, "text", .text⟩

def noteField : Field := ⟨2, "note", .text⟩

def stampField : Field := ⟨3, "stamp", .bigInt⟩

def letter : EntityType := ⟨0, "Letter", [Shipping.idField, textField, noteField, stampField]⟩

def letters : ClassMapping where
  type := letter
  table := "letters"
  keys := [.key "id" Shipping.idField]
  properties := [.plain "text" textField, .plain "note" noteField, .readOnly "stamp" stampField]
  relations := [⟨"enclosed", letter, 0, .many letter (some ⟨"in_id", none, "id"⟩), none, []⟩]
  initialFields := []
  initialMembers := []
  sound := rfl

def registry : Registry := ⟨[letters], rfl⟩

def letterOf (id : Int64) (text note : String) (stamp : Int64) (enclosed : List Entity) : Entity :=
  .mk letter [(Shipping.idField, .bigInt id), (textField, .text text), (noteField, .text note),
    (stampField, .bigInt stamp)] (enclosed.map fun letter => (.many 0 0, letter))

/-- Notes are not compared. -/
def skipsNotes : PropertyFilter := fun _ property => property.name != "note"

/-- A letter that encloses another. -/
def sent (note : String) (stamp : Int64) : Entity :=
  letterOf 1 "dear" note stamp [letterOf 2 "old" note stamp []]

/-- The enclosed letter has another text, and encloses a new one. -/
def answered (note : String) (stamp : Int64) : Entity :=
  letterOf 1 "dear" note stamp [letterOf 2 "new" note stamp [letterOf 3 "more" note stamp []]]

/-- Letters agree, whatever their notes and stamps. -/
theorem letterOf_agrees (id : Int64) (text note note' : String) (stamp stamp' : Int64)
    {enclosed enclosed' : List Entity}
    (henclosed : List.Forall₂ (Entity.Agrees registry skipsNotes) enclosed enclosed') :
    (letterOf id text note stamp enclosed).Agrees registry skipsNotes
      (letterOf id text note' stamp' enclosed') := by
  have hclass : ∀ mapping,
      registry.mappingFor (letterOf id text note stamp enclosed) = .ok mapping →
        letters = mapping := fun _ hmapping => Except.ok.inj hmapping
  have hkeys : ∀ key ∈ letters.keys, (letterOf id text note stamp enclosed).read key.field =
      (letterOf id text note' stamp' enclosed').read key.field := by
    intro key hkey
    obtain rfl := List.mem_singleton.1 hkey
    rfl
  have hcompared : ∀ property ∈ letters.writableProperties, skipsNotes letters property = true →
      (letterOf id text note stamp enclosed).read property.field =
        (letterOf id text note' stamp' enclosed').read property.field := by
    intro property hproperty haccepted
    obtain rfl | rfl : property = .plain "text" textField ∨ property = .plain "note" noteField :=
      List.mem_pair.1 hproperty
    · rfl
    · exact absurd haccepted (by decide)
  have hheld : ∀ relation ∈ letters.relations, List.Forall₂ (Entity.Agrees registry skipsNotes)
      ((letterOf id text note stamp enclosed).children relation.slot)
      ((letterOf id text note' stamp' enclosed').children relation.slot) := by
    intro relation hrelation
    obtain rfl := List.mem_singleton.1 hrelation
    change List.Forall₂ _ ((letterOf id text note stamp enclosed).children (.many 0 0))
      ((letterOf id text note' stamp' enclosed').children (.many 0 0))
    rw [letterOf, letterOf, Entity.children_of_one_list rfl, Entity.children_of_one_list rfl]
    exact henclosed
  refine .intro rfl ?_ ?_ ?_ <;> intro mapping hmapping <;> obtain rfl := hclass mapping hmapping
  · exact hkeys
  · exact hcompared
  · exact hheld

end Posting

/-- New notes and stamps on all letters leave the difference as it is. -/
theorem restamped_compare_alike :
    Posting.registry.compare (some (Posting.sent "urgent" 5)) (some (Posting.answered "late" 7))
        Posting.skipsNotes =
      Posting.registry.compare (some (Posting.sent "" 0)) (some (Posting.answered "kept" 0))
        Posting.skipsNotes ∧
    (Posting.registry.compare (some (Posting.sent "urgent" 5))
        (some (Posting.answered "late" 7)) Posting.skipsNotes).map
          (fun changes => changes.map fun change => (change.state, change.changed)) =
      .ok [(.unmodified, []), (.modified, ["text"]), (.added, [])] := by
  have henclosed : ∀ (id : Int64) (text note note' : String) (stamp stamp' : Int64),
      (Posting.letterOf id text note stamp []).Agrees Posting.registry Posting.skipsNotes
        (Posting.letterOf id text note' stamp' []) :=
    fun id text note note' stamp stamp' => Posting.letterOf_agrees id text note note' _ _ .nil
  refine ⟨compare_ignores_excluded (.some ?_) (.some ?_), rfl⟩
  · exact Posting.letterOf_agrees _ _ _ _ _ _ (.cons (henclosed _ _ _ _ _ _) .nil)
  · exact Posting.letterOf_agrees _ _ _ _ _ _ (.cons
      (Posting.letterOf_agrees _ _ _ _ _ _ (.cons (henclosed _ _ _ _ _ _) .nil)) .nil)

end AggregateSync
