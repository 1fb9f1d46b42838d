import AggregateSync.Entity

/-!
# Places in a tree

A path names relations, and two relations of a class may lead to one slot.  An
address names slots, so every place in a tree has exactly one.  Putting another
entity with the same children at an address changes the class and the fields seen
there and nothing that is seen elsewhere; `label_putAt` says both at once.
-/

namespace AggregateSync

/-- A place in a tree: the slots and positions that lead to it. -/
abbrev Address := List (Slot × Nat)

namespace Entity

/-- The entity at an address. -/
def at? : Address → Entity → Option Entity
  | [], e => some e
  | (slot, index) :: rest, e => (e.children slot)[index]?.bind (at? rest)

/-- The tree with another entity at an address. -/
def putAt : Entity → Address → Entity → Entity
  | _, [], new => new
  | e, (slot, index) :: rest, new =>
    match (e.children slot)[index]? with
    | some child => e.replaceChild slot index (child.putAt rest new)
    | none => e

/-- What an entity shows apart from its children. -/
def label (e : Entity) : EntityType × List (Field × Value) := (e.type, e.fields)

/-- What a field shows is decided by the fields that were written. -/
theorem read_of_label {e other : Entity} (hlabel : e.label = other.label) (field : Field) :
    e.read field = other.read field := by
  rw [read, read, (Prod.mk.inj hlabel).2]

/-- The two trees have entities of the same classes at the same places. -/
def SameShape (e other : Entity) : Prop :=
  ∀ address, (e.at? address).map type = (other.at? address).map type

theorem at?_singleton (slot : Slot) (index : Nat) (e : Entity) :
    e.at? [(slot, index)] = (e.children slot)[index]? := by
  rw [at?]
  cases (e.children slot)[index]? <;> rfl

@[simp]
theorem type_write (e : Entity) (field : Field) (value : Value) :
    (e.write field value).type = e.type := by
  cases e
  rfl

@[simp]
theorem members_write (e : Entity) (field : Field) (value : Value) :
    (e.write field value).members = e.members := by
  cases e
  rfl

/-! ## Replacing one child -/

theorem filter_replaceMember_self (slot : Slot) (child : Entity)
    (members : List (Slot × Entity)) : ∀ index,
    ((replaceMember slot child index members).filter
      fun member => decide (member.1 = slot)).map Prod.snd =
      ((members.filter fun member => decide (member.1 = slot)).map Prod.snd).set
        index child := by
  induction members with
  | nil => intro index; rfl
  | cons member rest ih =>
      intro index
      obtain ⟨other, old⟩ := member
      by_cases hslot : other = slot
      · subst hslot
        cases index with
        | zero => simp [replaceMember]
        | succ index => simp [replaceMember, ih]
      · simp [replaceMember, hslot, ih]

theorem filter_replaceMember_of_ne {slot other : Slot} (hother : other ≠ slot)
    (child : Entity) (members : List (Slot × Entity)) : ∀ index,
    (replaceMember slot child index members).filter
      (fun member => decide (member.1 = other)) =
      members.filter fun member => decide (member.1 = other) := by
  induction members with
  | nil => intro index; rfl
  | cons member rest ih =>
      intro index
      obtain ⟨place, old⟩ := member
      by_cases hslot : place = slot
      · subst hslot
        cases index with
        | zero => simp [replaceMember, hother.symm]
        | succ index => simp [replaceMember, hother.symm, ih]
      · simp only [replaceMember, hslot, if_false, List.filter_cons, ih]

theorem children_replaceChild_self (e : Entity) (slot : Slot) (index : Nat)
    (child : Entity) :
    (e.replaceChild slot index child).children slot = (e.children slot).set index child := by
  obtain ⟨type, fields, members⟩ := e
  simp only [children, replaceChild, Entity.members, inSlot, filter_replaceMember_self]
  split
  · rfl
  · rw [List.take_set]

theorem children_replaceChild_of_ne {slot other : Slot} (hother : other ≠ slot) (e : Entity)
    (index : Nat) (child : Entity) :
    (e.replaceChild slot index child).children other = e.children other := by
  obtain ⟨type, fields, members⟩ := e
  simp only [children, replaceChild, Entity.members, inSlot,
    filter_replaceMember_of_ne hother]

@[simp]
theorem label_replaceChild (e : Entity) (slot : Slot) (index : Nat) (child : Entity) :
    (e.replaceChild slot index child).label = e.label := rfl

/-! ## Replacing at an address -/

theorem putAt_cons {e child : Entity} {slot : Slot} {index : Nat}
    (hchild : (e.children slot)[index]? = some child) (rest : Address) (new : Entity) :
    e.putAt ((slot, index) :: rest) new =
      e.replaceChild slot index (child.putAt rest new) := by
  rw [putAt, hchild]

/-- Nothing but the place itself shows a difference. -/
theorem label_putAt {address : Address} {e old new : Entity}
    (hold : e.at? address = some old) (hmembers : new.members = old.members)
    (place : Address) :
    ((e.putAt address new).at? place).map label =
      if place = address then some new.label else (e.at? place).map label := by
  induction address generalizing e place with
  | nil =>
      obtain rfl : e = old := Option.some.inj hold
      cases place with
      | nil => rfl
      | cons step rest =>
          have hchildren : new.children step.1 = e.children step.1 := by
            rw [children, hmembers, children]
          simp [putAt, at?, hchildren]
  | cons step rest ih =>
      obtain ⟨slot, index⟩ := step
      obtain ⟨child, hchild, hrest⟩ := Option.bind_eq_some_iff.1 hold
      have hindex : index < (e.children slot).length :=
        (List.getElem?_eq_some_iff.1 hchild).1
      rw [putAt_cons hchild]
      cases place with
      | nil => simp [at?]
      | cons step below =>
          obtain ⟨other, position⟩ := step
          rw [at?, at?]
          by_cases hslot : other = slot
          · subst hslot
            rw [children_replaceChild_self]
            by_cases hposition : index = position
            · subst hposition
              rw [List.getElem?_set_self hindex, hchild, Option.bind_some,
                Option.bind_some, ih hrest]
              simp
            · rw [List.getElem?_set_ne hposition]
              simp [Ne.symm hposition]
          · rw [children_replaceChild_of_ne hslot]
            simp [hslot]

/-- At the address itself stands the new entity. -/
theorem at?_putAt_self {address : Address} {e old : Entity} (new : Entity)
    (hold : e.at? address = some old) : (e.putAt address new).at? address = some new := by
  induction address generalizing e with
  | nil => rfl
  | cons step rest ih =>
      obtain ⟨slot, index⟩ := step
      obtain ⟨child, hchild, hrest⟩ := Option.bind_eq_some_iff.1 hold
      have hindex : index < (e.children slot).length :=
        (List.getElem?_eq_some_iff.1 hchild).1
      rw [putAt_cons hchild, at?, children_replaceChild_self,
        List.getElem?_set_self hindex, Option.bind_some, ih hrest]

theorem SameShape.refl (e : Entity) : e.SameShape e := fun _ => rfl

theorem SameShape.symm {e other : Entity} (hshape : e.SameShape other) :
    other.SameShape e := fun address => (hshape address).symm

theorem SameShape.trans {e other third : Entity} (hleft : e.SameShape other)
    (hright : other.SameShape third) : e.SameShape third :=
  fun address => (hleft address).trans (hright address)

/-- Another entity of the same class with the same children leaves the shape as it is. -/
theorem SameShape.putAt {address : Address} {e old new : Entity}
    (hold : e.at? address = some old) (htype : new.type = old.type)
    (hmembers : new.members = old.members) : e.SameShape (e.putAt address new) := by
  intro place
  have hlabel := congrArg (Option.map Prod.fst) (label_putAt hold hmembers place)
  rw [Option.map_map] at hlabel
  change ((e.putAt address new).at? place).map type = _ at hlabel
  rw [hlabel]
  split
  case isTrue hplace =>
    subst hplace
    rw [hold, Option.map_some, Option.map_some, label, htype]
  case isFalse => rw [Option.map_map]; rfl

/-- In trees of one shape the slots hold entities of the same classes. -/
theorem SameShape.children_types {e other : Entity} (hshape : e.SameShape other)
    (slot : Slot) : (e.children slot).map type = (other.children slot).map type := by
  apply List.ext_getElem?
  intro index
  have haddress := hshape [(slot, index)]
  rwa [at?_singleton, at?_singleton, ← List.getElem?_map, ← List.getElem?_map] at haddress

theorem SameShape.type_eq {e other : Entity} (hshape : e.SameShape other) :
    e.type = other.type := Option.some.inj (hshape [])

/-- The children of trees of one shape have one shape. -/
theorem SameShape.child {e other child child' : Entity} {slot : Slot} {index : Nat}
    (hshape : e.SameShape other) (hchild : (e.children slot)[index]? = some child)
    (hchild' : (other.children slot)[index]? = some child') : child.SameShape child' := by
  intro address
  have haddress := hshape ((slot, index) :: address)
  rwa [at?, at?, hchild, hchild', Option.bind_some, Option.bind_some] at haddress

/-- The second tree is the first one with other fields at one address at most. -/
structure Relabels (address : Address) (before after : Entity) : Prop where
  shape : before.SameShape after
  elsewhere : ∀ place, place ≠ address →
    (after.at? place).map label = (before.at? place).map label

theorem Relabels.refl (address : Address) (e : Entity) : Relabels address e e :=
  ⟨.refl e, fun _ _ => rfl⟩

theorem Relabels.trans {address : Address} {first second third : Entity}
    (hleft : Relabels address first second) (hright : Relabels address second third) :
    Relabels address first third := by
  refine ⟨hleft.shape.trans hright.shape, ?_⟩
  intro place hplace
  rw [hright.elsewhere place hplace, hleft.elsewhere place hplace]

theorem Relabels.putAt {address : Address} {e old new : Entity}
    (hold : e.at? address = some old) (htype : new.type = old.type)
    (hmembers : new.members = old.members) : Relabels address e (e.putAt address new) := by
  refine ⟨.putAt hold htype hmembers, ?_⟩
  intro place hplace
  rw [label_putAt hold hmembers, if_neg hplace]

end Entity

end AggregateSync
