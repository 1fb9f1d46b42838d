import AggregateSync.Proofs.Mapping.Identity
import AggregateSync.Proofs.Value.Width

/-!
# Entities of rows of one key form

Rows that differ only in the widths of their integers hydrate to entities that are alike: of one
class, with the same children in the same slots, and with fields of one key form all the way
down.  Whatever is read of such entities is of one key form, and they stay alike when like
children are attached to them.
-/

namespace AggregateSync

/-! ## Rows, errors and entities that are alike -/

/-- Rows of the same columns with values of one key form. -/
structure Row.Alike (row other : Row) : Prop where
  columns : row.columns = other.columns
  values : List.Forall₂ Value.SameForm row.values other.values

/-- Errors of one kind.  They are the same but for the widths of the values that they show. -/
inductive Error.Alike : Error → Error → Prop
  | same (e : Error) : Alike e e
  | conversion {e e' : ConversionError} (halike : e.Alike e') :
      Alike (.conversion e) (.conversion e')
  | integrity (fault : IntegrityFault) (parent child : String) (relation : Option String)
      {value value' : Value} (hform : value.SameForm value') :
      Alike (.integrity ⟨fault, parent, child, relation, value⟩)
        (.integrity ⟨fault, parent, child, relation, value'⟩)
  | statement (sql : String) {params params' : List Value}
      (hparams : List.Forall₂ Value.SameForm params params') (subject entity : Option String)
      (source : Error) :
      Alike (.statement sql params subject entity source)
        (.statement sql params' subject entity source)

/-- The values that a field shows are of one key form. -/
def FieldAlike (entry other : Field × Value) : Prop :=
  entry.1 = other.1 ∧ entry.1.type.ShowsAlike entry.2 other.2

/-- Entities of one class and shape, whose fields are of one key form all the way down. -/
inductive Entity.Alike : Entity → Entity → Prop
  | mk (type : EntityType) {fields fields' : List (Field × Value)}
      {members members' : List (Slot × Entity)} (hfields : List.Forall₂ FieldAlike fields fields')
      (hslots : members.map Prod.fst = members'.map Prod.fst)
      (hmembers : List.Forall₂ Alike (members.map Prod.snd) (members'.map Prod.snd)) :
      Alike (.mk type fields members) (.mk type fields' members')

theorem Row.Alike.refl (row : Row) : row.Alike row :=
  ⟨rfl, List.forall₂_same.2 fun value _ => .refl value⟩

/-- Two values are both missing, or both there and of one key form. -/
theorem Row.Alike.rel_value? {row other : Row} (halike : row.Alike other) (column : String) :
    Option.Rel Value.SameForm (row.value? column) (other.value? column) := by
  rw [Row.value?, Row.value?, indexOf?, indexOf?, halike.columns]
  cases (other.columns.reverse.idxOf? column).map
    fun fromEnd => other.columns.length - 1 - fromEnd with
  | none => exact .none
  | some index => exact rel_getElem?_of_forall₂ halike.values index

namespace Entity

theorem Alike.refl : ∀ e : Entity, e.Alike e
  | .mk type fields members => by
      refine .mk type (List.forall₂_same.2 fun entry _ => ⟨rfl, .refl _ _⟩) rfl
        (List.forall₂_same.2 fun child hchild => ?_)
      obtain ⟨member, hmember, rfl⟩ := List.mem_map.1 hchild
      have := List.sizeOf_lt_of_mem hmember
      exact Alike.refl member.2
termination_by e => sizeOf e
decreasing_by
  obtain ⟨slot, child⟩ := member
  simp only [Prod.mk.sizeOf_spec, Entity.mk.sizeOf_spec] at *
  omega

variable {e other : Entity}

theorem Alike.type_eq (halike : e.Alike other) : e.type = other.type := by
  cases halike
  rfl

/-- The members stand in the same slots and are alike. -/
theorem Alike.members (halike : e.Alike other) :
    List.Forall₂ (fun member member' => member.1 = member'.1 ∧ member.2.Alike member'.2)
      e.members other.members := by
  cases halike with
  | mk type hfields hslots hmembers => exact forall₂_pairs_iff.2 ⟨hslots, hmembers⟩

theorem Alike.of_members {type : EntityType} {fields fields' : List (Field × Value)}
    {members members' : List (Slot × Entity)} (hfields : List.Forall₂ FieldAlike fields fields')
    (hmembers : List.Forall₂ (fun member member' => member.1 = member'.1 ∧
      member.2.Alike member'.2) members members') :
    (Entity.mk type fields members).Alike (.mk type fields' members') :=
  .mk type hfields (forall₂_pairs_iff.1 hmembers).1 (forall₂_pairs_iff.1 hmembers).2

theorem rel_lookup {fields fields' : List (Field × Value)}
    (hfields : List.Forall₂ FieldAlike fields fields') (field : Field) :
    Option.Rel field.type.ShowsAlike (fields.lookup field) (fields'.lookup field) := by
  induction hfields with
  | nil => exact .none
  | @cons entry entry' _ _ hentry _ ih =>
      obtain ⟨key, value⟩ := entry
      obtain ⟨key', value'⟩ := entry'
      obtain ⟨rfl, hvalue⟩ := hentry
      rw [List.lookup_cons, List.lookup_cons]
      by_cases hkey : field = key
      · subst hkey
        rw [beq_self_eq_true]
        exact .some hvalue
      · rw [beq_eq_false_iff_ne.2 hkey]
        exact ih

/-- Every field shows values of one key form. -/
theorem Alike.read (halike : e.Alike other) (field : Field) :
    (e.read field).SameForm (other.read field) := by
  obtain @⟨type, fields, fields', members, members', hfields, _, _⟩ := halike
  have hlookup := rel_lookup hfields field
  rw [Entity.read, Entity.read, Entity.fields, Entity.fields]
  generalize fields.lookup field = shown, fields'.lookup field = shown' at hlookup ⊢
  cases hlookup with
  | none => exact .refl _
  | some hvalue =>
      dsimp only
      rw [hvalue.holds]
      split
      · exact hvalue.form
      · exact .refl _

/-- What stands in a slot is alike. -/
theorem Alike.children (halike : e.Alike other) (slot : Slot) :
    List.Forall₂ Alike (e.children slot) (other.children slot) := by
  have hheld : List.Forall₂ (fun member member' : Slot × Entity =>
      member.1 = member'.1 ∧ member.2.Alike member'.2)
      (e.members.filter fun member => decide (member.1 = slot))
      (other.members.filter fun member => decide (member.1 = slot)) :=
    List.rel_filter (fun _ _ hmember => by simp [hmember.1]) halike.members
  have hall := (forall₂_pairs_iff.1 hheld).2
  rw [Entity.children, Entity.children, inSlot, inSlot]
  split
  · exact hall
  · exact List.forall₂_take 1 hall

theorem forall₂_put {fields fields' : List (Field × Value)}
    (hfields : List.Forall₂ FieldAlike fields fields') (field : Field) {value value' : Value}
    (hvalue : field.type.ShowsAlike value value') :
    List.Forall₂ FieldAlike (put field value fields) (put field value' fields') := by
  induction hfields with
  | nil => exact .cons ⟨rfl, hvalue⟩ .nil
  | @cons entry entry' _ _ hentry hrest ih =>
      obtain ⟨key, old⟩ := entry
      obtain ⟨key', old'⟩ := entry'
      obtain ⟨rfl, hold⟩ := hentry
      rw [put, put]
      split
      · exact .cons ⟨rfl, hvalue⟩ hrest
      · exact .cons ⟨rfl, hold⟩ ih

theorem Alike.write (halike : e.Alike other) (field : Field) {value value' : Value}
    (hvalue : field.type.ShowsAlike value value') :
    (e.write field value).Alike (other.write field value') := by
  cases halike with
  | mk type hfields hslots hmembers =>
      exact .mk type (forall₂_put hfields field hvalue) hslots hmembers

theorem Alike.clear (halike : e.Alike other) (slot : Slot) :
    (e.clear slot).Alike (other.clear slot) := by
  have hmembers := halike.members
  cases halike with
  | mk type hfields _ _ =>
      exact .of_members hfields (List.rel_filter (fun _ _ hmember => by simp [hmember.1]) hmembers)

theorem Alike.attach (halike : e.Alike other) (slot : Slot) {child child' : Entity}
    (hchild : child.Alike child') : (e.attach slot child).Alike (other.attach slot child') := by
  have hemptied : (if slot.isMany then e else e.clear slot).Alike
      (if slot.isMany then other else other.clear slot) := by
    split
    · exact halike
    · exact halike.clear slot
  rw [Entity.attach, Entity.attach]
  generalize (if slot.isMany then e else e.clear slot) = emptied at hemptied ⊢
  generalize (if slot.isMany then other else other.clear slot) = emptied' at hemptied ⊢
  have hmembers := hemptied.members
  cases hemptied with
  | mk type hfields _ _ =>
      exact .of_members hfields (List.rel_append hmembers (.cons ⟨rfl, hchild⟩ .nil))

end Entity

/-! ## Reading and writing alike -/

section Mappings

open Result (Related)

variable {e other : Entity}

/-- What follows one and the same result is alike if it is after success. -/
theorem related_self_bind {α β γ : Type} {R : β → γ → Prop} (result : Result α)
    {next : α → Result β} {next' : α → Result γ}
    (hnext : ∀ a, Related Error.Alike R (next a) (next' a)) :
    Related Error.Alike R (result >>= next) (result >>= next') :=
  .self_bind Error.Alike.same result hnext

theorem Property.get_related (property : Property) (owner : EntityType)
    (halike : e.Alike other) : Related Error.Alike Value.SameForm (property.get owner e)
      (property.get owner other) := by
  rw [get, get, halike.type_eq]
  split
  · exact .ok (halike.read property.field)
  · exact .error (.same _)

theorem Property.set_related (property : Property) (owner : EntityType) {value value' : Value}
    (hform : value.SameForm value') (halike : e.Alike other) :
    Related Error.Alike Entity.Alike (property.set owner value e)
      (property.set owner value' other) := by
  have hread := property.field.type.read_related hform
  rw [set, set]
  generalize property.field.type.read value = shown, property.field.type.read value' = shown'
    at hread ⊢
  cases hread with
  | ok hshown =>
      dsimp only
      rw [halike.type_eq]
      split
      · exact .ok (halike.write property.field hshown)
      · exact .error (.same _)
  | error hfault => exact .error (.conversion ⟨hfault.expected, rfl⟩)

namespace ClassMapping

variable (mapping : ClassMapping) {row row' : Row}

theorem fill_related (hrow : row.Alike row') (properties : List Property)
    (halike : e.Alike other) : Related Error.Alike Entity.Alike (mapping.fill row properties e)
      (mapping.fill row' properties other) := by
  induction properties generalizing e other with
  | nil => exact .ok halike
  | cons property rest ih =>
      have hvalue := hrow.rel_value? property.column
      rw [fill, fill]
      generalize row.value? property.column = value, row'.value? property.column = value'
        at hvalue ⊢
      cases hvalue with
      | none => exact ih halike
      | some hform =>
          exact (property.set_related mapping.type hform halike).bind fun _ _ hwritten =>
            ih hwritten

/-- Rows that are alike hydrate to entities that are alike, or fail alike. -/
theorem hydrate_related (hrow : row.Alike row') :
    Related Error.Alike Entity.Alike (mapping.hydrate row) (mapping.hydrate row') :=
  mapping.fill_related hrow mapping.columns (.refl mapping.instantiate)

end ClassMapping

theorem Relation.attach_related (relation : Relation) {child child' : Entity}
    (halike : e.Alike other) (hchild : child.Alike child') :
    Related Error.Alike Entity.Alike (relation.attach e child) (relation.attach other child') := by
  have hfits : relation.checkChild child = relation.checkChild child' := by
    rw [checkChild, checkChild, hchild.type_eq]
  have howner : relation.checkParent e = relation.checkParent other := by
    rw [checkParent, checkParent, halike.type_eq]
  rw [attach, attach, hfits, howner]
  exact related_self_bind _ fun _ => related_self_bind _ fun _ =>
    .ok (halike.attach relation.slot hchild)

end Mappings

end AggregateSync
