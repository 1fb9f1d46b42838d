import AggregateSync.Mapping.Class
import AggregateSync.Proofs.Graph.Address
import AggregateSync.Proofs.Mapping.Faults
import AggregateSync.Proofs.Result

/-!
# Entities of rows

The entity of a row is of the class of its mapping and has the children of a new one.  Only a
value that its field cannot take keeps a row from being read.
-/

namespace AggregateSync.ClassMapping

open Result (FailsWithin failsWithin_ok failsWithin_error)

variable {mapping : ClassMapping} {row : Row} {start e : Entity}

/-- Writing a property of an entity of the class fails only if the value cannot be converted. -/
theorem set_failsWithin (hsame : e.type.same mapping.type = true) (property : Property)
    (value : Value) : FailsWithin Error.IsConversion (mapping.set property value e) := by
  rw [set, Property.set]
  cases property.field.type.read value with
  | error fault => exact failsWithin_error ⟨_, rfl⟩
  | ok converted =>
      simp only [if_pos hsame]
      exact failsWithin_ok _

/-- A property that is set is written with what its type makes of the value. -/
theorem exists_write_of_set {property : Property} {value : Value}
    (hset : mapping.set property value start = .ok e) :
    ∃ shown, property.field.type.read value = .ok shown ∧
      e = start.write property.field shown := by
  rw [set, Property.set] at hset
  split at hset
  case h_1 => cases hset
  case h_2 shown hread =>
    split at hset
    · cases hset
      exact ⟨shown, hread, rfl⟩
    · cases hset

theorem set_keeps {property : Property} {value : Value}
    (hset : mapping.set property value start = .ok e) :
    e.type = start.type ∧ e.members = start.members := by
  obtain ⟨_, _, rfl⟩ := exists_write_of_set hset
  exact ⟨Entity.type_write _ _ _, Entity.members_write _ _ _⟩

theorem fill_keeps {properties : List Property}
    (hfill : mapping.fill row properties start = .ok e) :
    e.type = start.type ∧ e.members = start.members := by
  induction properties generalizing start with
  | nil =>
      cases hfill
      exact ⟨rfl, rfl⟩
  | cons property rest ih =>
      rw [fill] at hfill
      split at hfill
      · obtain ⟨written, hwritten, hrest⟩ := Result.bind_eq_ok.1 hfill
        obtain ⟨htype, hmembers⟩ := ih hrest
        obtain ⟨htype', hmembers'⟩ := set_keeps hwritten
        exact ⟨htype.trans htype', hmembers.trans hmembers'⟩
      · exact ih hfill

theorem fill_failsWithin {properties : List Property}
    (hsame : start.type.same mapping.type = true) :
    FailsWithin Error.IsConversion (mapping.fill row properties start) := by
  induction properties generalizing start with
  | nil => exact failsWithin_ok start
  | cons property rest ih =>
      rw [fill]
      split
      · refine (set_failsWithin hsame property _).bind fun written hwritten => ih ?_
        rwa [(set_keeps hwritten).1]
      · exact ih hsame

/-- The entity of a row is of the class. -/
theorem type_of_hydrate (hread : mapping.hydrate row = .ok e) : e.type = mapping.type :=
  (fill_keeps hread).1

/-- The entity of a row has the children that every new entity of its class has. -/
theorem members_of_hydrate (hread : mapping.hydrate row = .ok e) :
    e.members = mapping.initialMembers :=
  (fill_keeps hread).2

/-- A row is read unless one of its values cannot be converted. -/
theorem hydrate_failsWithin (mapping : ClassMapping) (row : Row) :
    FailsWithin Error.IsConversion (mapping.hydrate row) :=
  fill_failsWithin (beq_self_eq_true mapping.type.id)

end AggregateSync.ClassMapping
