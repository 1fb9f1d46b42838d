import AggregateSync.Proofs.Graph.Partition
import AggregateSync.Proofs.Graph.Resolution
import AggregateSync.Proofs.Mapping.Soundness

/-!
# Strangers

A relation may hold an entity of a class that it does not declare.  Such a stranger is the one
thing about the shape of a graph that keeps it from being traversed: where a registry knows the
class of the root, it knows that of every child which its relation declares, and every question
that a traversal asks of a mapping is answered.
-/

namespace AggregateSync

open Result (FailsWithin failsWithin_ok failsWithin_error)

namespace Registry

/-- What an aggregate holds: its root, and whatever stands in a relation of what it holds. -/
inductive Holds (registry : Registry) (root : Entity) : Entity → Prop
  | root : Holds registry root root
  | child {e child : Entity} {mapping : ClassMapping} {relation : Relation}
      (hholds : Holds registry root e) (hmapping : registry.mappingFor e = .ok mapping)
      (hrelation : relation ∈ mapping.relations) (hchild : child ∈ e.children relation.slot) :
      Holds registry root child

/-- Some relation in the aggregate holds an entity of a class that it does not declare. -/
def HoldsStranger (registry : Registry) (root : Entity) : Prop :=
  ∃ e mapping relation child, registry.Holds root e ∧ registry.mappingFor e = .ok mapping ∧
    relation ∈ mapping.relations ∧ child ∈ e.children relation.slot ∧
    relation.target? child.type = none

/-- One of two graphs holds a stranger. -/
def EitherHoldsStranger (registry : Registry) (snapshot current : Option Entity) : Prop :=
  ∃ root, (snapshot = some root ∨ current = some root) ∧ registry.HoldsStranger root

variable {registry : Registry} {mapping : ClassMapping} {relation : Relation} {e child : Entity}

theorem Holds.trans {root held : Entity} (he : registry.Holds root e)
    (hheld : registry.Holds e held) : registry.Holds root held := by
  induction hheld with
  | root => exact he
  | child _ hmapping hrelation hchild ih => exact .child ih hmapping hrelation hchild

/-- A stranger below a child is a stranger below its parent. -/
theorem HoldsStranger.of_child (hmapping : registry.mappingFor e = .ok mapping)
    (hrelation : relation ∈ mapping.relations) (hchild : child ∈ e.children relation.slot)
    (hstranger : registry.HoldsStranger child) : registry.HoldsStranger e := by
  obtain ⟨holder, found, loose, stranger, hholds, hrest⟩ := hstranger
  have hbelow : registry.Holds e child := .child .root hmapping hrelation hchild
  exact ⟨holder, found, loose, stranger, hbelow.trans hholds, hrest⟩

end Registry

section Children

variable {relation : Relation} {registry : Registry} {mapping : ClassMapping} {e child : Entity}

/-- The children of an entity are found unless one of them is a stranger. -/
theorem Relation.children_failsWithin {strangers : Prop}
    (hsame : e.type.same relation.parent = true)
    (hstrangers : ∀ child ∈ e.children relation.slot, relation.target? child.type = none →
      strangers) : FailsWithin (Error.IsForeseen strangers) (relation.children e) := by
  rw [children, held, checkParent, if_pos hsame]
  simp only [Except.map, Result.ok_bind]
  split
  case h_1 stranger hfind =>
    have hloose := List.find?_some hfind
    rw [Option.isNone_iff_eq_none] at hloose
    exact failsWithin_error (hstrangers stranger (List.mem_of_find?_eq_some hfind) hloose)
  case h_2 => exact failsWithin_ok _

/-- The class of a child that its relation declares is mapped. -/
theorem Relation.IsSound.knows_child (hsound : relation.IsSound registry mapping)
    {found : List Entity} (hfound : relation.children e = .ok found)
    (hchild : child ∈ e.children relation.slot) : registry.Knows child.type := by
  obtain ⟨_, hdeclared, _⟩ := Relation.children_eq_ok_iff.1 hfound
  obtain ⟨target, htarget⟩ := Option.isSome_iff_exists.1 (hdeclared child hchild)
  obtain ⟨mapping, hmapping, _⟩ :=
    hsound.target target (List.mem_of_find?_eq_some htarget)
  have hsame := List.find?_some htarget
  rw [EntityType.same, beq_iff_eq] at hsame
  exact ⟨mapping, by rw [← hsame, hmapping]⟩

end Children

/-! ## Traversals -/

section Visits

variable {allowed : Error → Prop}

/-- A visit that fails, wherever it is made, with allowed errors only. -/
def Visit.FailsWithin (allowed : Error → Prop) (visit : Visit) : Prop :=
  ∀ path parent relation number, Result.FailsWithin allowed (visit path parent relation number)

theorem visitChildren_failsWithin {visits : List Visit}
    (hvisits : ∀ visit ∈ visits, visit.FailsWithin allowed) (path : Path)
    (parent relation position next : Nat) :
    FailsWithin allowed (visitChildren path parent relation position next visits) := by
  induction visits generalizing position next with
  | nil => exact failsWithin_ok _
  | cons visit rest ih =>
      rw [List.forall_mem_cons] at hvisits
      exact (hvisits.1 _ _ _ _).bind fun subtree _ =>
        (ih hvisits.2 _ _).bind fun others _ => failsWithin_ok _

theorem visitRelations_failsWithin {e : Entity} {visits : Slot → List Visit}
    {relations : List Relation}
    (hchildren : ∀ relation ∈ relations, FailsWithin allowed (relation.children e))
    (hvisits : ∀ relation ∈ relations, ∀ found, relation.children e = .ok found →
      ∀ visit ∈ visits relation.slot, visit.FailsWithin allowed)
    (path : Path) (parent index next : Nat) (visited : List Slot) :
    FailsWithin allowed
      (visitRelations e visits path parent index next visited relations) := by
  induction relations generalizing index next visited with
  | nil => exact failsWithin_ok _
  | cons relation rest ih =>
      rw [List.forall_mem_cons] at hchildren hvisits
      rw [visitRelations]
      refine hchildren.1.bind fun found hfound => ?_
      split
      · exact ih hchildren.2 hvisits.2 _ _ _
      · exact (visitChildren_failsWithin (hvisits.1 found hfound) _ _ _ _ _).bind
          fun block _ => (ih hchildren.2 hvisits.2 _ _ _).bind fun others _ => failsWithin_ok _

end Visits

/-- The members of a subtree are found if the class of its root is mapped and no relation in
it holds a stranger. -/
theorem visitEntity_failsWithin (registry : Registry) : ∀ e, registry.Knows e.type →
    Visit.FailsWithin (Error.IsForeseen (registry.HoldsStranger e)) (visitEntity registry e) := by
  refine Entity.treeInduction fun type fields members ih => ?_
  rintro ⟨mapping, hfind⟩ path parent relation number
  let e := Entity.mk type fields members
  have hmapping : registry.mappingFor e = .ok mapping := Registry.mappingFor_eq_ok.2 hfind
  have hsame := Registry.same_of_mappingFor hmapping
  have hsound : ∀ relation ∈ mapping.relations, relation.IsSound registry mapping :=
    fun relation => registry.isSound (List.mem_of_find?_eq_some hfind)
  rw [visitEntity_eq, hmapping, Result.ok_bind, ClassMapping.identityKey_of_same hsame,
    Result.ok_bind]
  refine Result.FailsWithin.bind
    (visitRelations_failsWithin (fun relation hrelation => ?_) ?_ _ _ _ _ _)
    fun block _ => failsWithin_ok _
  · apply Relation.children_failsWithin
    · have hparent := (hsound relation hrelation).parent
      rw [EntityType.same, beq_iff_eq] at hsame hparent ⊢
      exact hsame.trans hparent.symm
    · intro child hchild hloose
      exact ⟨e, mapping, relation, child, .root, hmapping, hrelation, hchild, hloose⟩
  · intro relation hrelation found hfound visit hvisit path parent index number
    obtain ⟨child, hchild, rfl⟩ := List.mem_map.1 hvisit
    have hknown := (hsound relation hrelation).knows_child hfound hchild
    refine (ih (relation.slot, child) (Entity.mem_of_mem_inSlot hchild) hknown _ _ _ _).mono
      fun error => Error.IsForeseen.mono fun hstranger => ?_
    exact hstranger.of_child hmapping hrelation hchild

/-- An aggregate of a mapped class is traversed unless it holds a stranger. -/
theorem Registry.traverse_failsWithin {registry : Registry} {root : Entity}
    (hknown : registry.Knows root.type) :
    FailsWithin (Error.IsForeseen (registry.HoldsStranger root)) (registry.traverse root) :=
  visitEntity_failsWithin registry root hknown _ _ _ _

/-! ## Comparisons -/

section Comparison

variable {registry : Registry} {snapshot current : Option Entity}

theorem checkIdentities_failsWithin (strangers : Prop) (members : List Member) :
    FailsWithin (Error.IsForeseen strangers) (checkIdentities members) := by
  rcases checkIdentities_spec members with ⟨_, hok⟩ | ⟨_, e, herror, _⟩
  · rw [hok]
    exact failsWithin_ok ()
  · rw [herror]
    exact failsWithin_error trivial

/-- Graphs of mapped classes, at least one of which is given, are compared unless one of them
holds a stranger or has two members of one identity. -/
theorem Registry.compare_failsWithin (filter : PropertyFilter)
    (hgiven : snapshot.isSome = true ∨ current.isSome = true)
    (hknown : ∀ root, snapshot = some root ∨ current = some root → registry.Knows root.type) :
    FailsWithin (Error.IsForeseen (registry.EitherHoldsStranger snapshot current))
      (registry.compare snapshot current filter) := by
  have hmembers : ∀ graph, graph = snapshot ∨ graph = current →
      FailsWithin (Error.IsForeseen (registry.EitherHoldsStranger snapshot current))
        (registry.members graph) := by
    intro graph hgraph
    cases graph with
    | none => exact failsWithin_ok []
    | some root =>
        have hroot : snapshot = some root ∨ current = some root := hgraph.imp Eq.symm Eq.symm
        exact (traverse_failsWithin (hknown root hroot)).mono fun e =>
          Error.IsForeseen.mono fun hstranger => ⟨root, hroot, hstranger⟩
  have hboth : (snapshot.isNone && current.isNone) = false := by
    cases snapshot <;> cases current <;> simp_all
  rw [compare, hboth, if_neg Bool.false_ne_true]
  refine (hmembers snapshot (.inl rfl)).bind fun before hbefore =>
    (hmembers current (.inr rfl)).bind fun after hafter =>
      (checkIdentities_failsWithin _ before).bind fun _ _ =>
        (checkIdentities_failsWithin _ after).bind fun _ _ =>
          FailsWithin.bind (.mapM fun member hmember => ?_) fun kept _ => failsWithin_ok _
  rw [currentChange_eq_classify (members_isKnown hbefore)
    (members_isKnown hafter member (mem_byDepth.1 hmember))]
  exact failsWithin_ok _

end Comparison

end AggregateSync
