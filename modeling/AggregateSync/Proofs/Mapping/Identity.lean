import AggregateSync.Mapping.Registry
import AggregateSync.Proofs.Result

/-!
# Reading entities through their mapping

An entity of the mapped class answers every question of its mapping: properties are
read without failure, and the identity is what the key fields show, unless one of
them is NULL or the key that the database assigns is still missing.
-/

namespace AggregateSync

theorem ClassMapping.get_of_same {mapping : ClassMapping} {property : Property} {e : Entity}
    (hsame : e.type.same mapping.type = true) :
    mapping.get property e = .ok (e.read property.field) := by
  rw [get, Property.get, if_pos hsame]

namespace ClassMapping

theorem get_eq_ok {mapping : ClassMapping} {property : Property} {e : Entity}
    {value : Value} : mapping.get property e = .ok value ↔
      e.type.same mapping.type = true ∧ value = e.read property.field := by
  rw [get, Property.get]
  split
  case isTrue hsame => simp [hsame, eq_comm]
  case isFalse hdiffer => simp [hdiffer]

theorem requireProperty_eq_ok {mapping : ClassMapping} {name : String} {property : Property} :
    mapping.requireProperty name = .ok property ↔ mapping.property? name = some property := by
  rw [requireProperty]
  cases mapping.property? name <;> simp

/-- What the key fields of an entity show. -/
def keyReadings (mapping : ClassMapping) (e : Entity) : List Value :=
  mapping.keys.map fun key => e.read key.field

/-- Has the entity a complete key? -/
def isSaved (mapping : ClassMapping) (e : Entity) : Bool :=
  !(mapping.keyReadings e).any Value.isNull &&
    !mapping.generatedKey?.any fun key => (e.read key.field).isUnsaved

theorem keyValues_of_same {mapping : ClassMapping} {e : Entity}
    (hsame : e.type.same mapping.type = true) :
    mapping.keyValues e = .ok (mapping.keyReadings e) := by
  rw [keyValues, checkType, if_pos hsame]
  exact Result.mapM_eq_map fun key _ => get_of_same hsame

/-- The identity of an entity of the mapped class. -/
theorem identityKey_of_same {mapping : ClassMapping} {e : Entity}
    (hsame : e.type.same mapping.type = true) :
    mapping.identityKey e = .ok (if mapping.isSaved e then
      some (IdentityKey.ofValues mapping.type (mapping.keyReadings e)) else none) := by
  rw [identityKey, keyValues_of_same hsame, isSaved]
  generalize mapping.keyReadings e = values
  simp only [bind, Except.bind, pure, Except.pure]
  by_cases hnull : values.any Value.isNull = true
  · simp only [hnull, if_true, Bool.not_true, Bool.false_and, Bool.false_eq_true, if_false]
  · simp only [hnull, Bool.false_eq_true, if_false, Bool.not_false, Bool.true_and]
    cases mapping.generatedKey? with
    | none => rfl
    | some key =>
        simp only [get_of_same hsame, Option.any_some]
        by_cases hunsaved : (e.read key.field).isUnsaved = true <;> simp [hunsaved]

end ClassMapping

theorem EntityType.same_trans {type other third : EntityType} (hleft : type.same other = true)
    (hright : other.same third = true) : type.same third = true := by
  rw [same, beq_iff_eq] at hleft hright ⊢
  exact hleft.trans hright

theorem EntityType.same_comm (type other : EntityType) : type.same other = other.same type :=
  BEq.comm

/-- A registry finds a mapping of the class that was asked for. -/
theorem Registry.same_of_find? {registry : Registry} {id : Nat} {mapping : ClassMapping}
    (hfind : registry.find? id = some mapping) : mapping.type.id = id := by
  simpa using List.find?_some hfind

theorem Registry.mappingFor_eq_ok {registry : Registry} {e : Entity} {mapping : ClassMapping} :
    registry.mappingFor e = .ok mapping ↔ registry.find? e.type.id = some mapping := by
  rw [mappingFor, mappingOf]
  cases registry.find? e.type.id <;> simp

theorem Registry.mappingById_eq_ok {registry : Registry} {id : Nat} {mapping : ClassMapping} :
    registry.mappingById id = .ok mapping ↔ registry.find? id = some mapping := by
  rw [mappingById]
  cases registry.find? id <;> simp

/-- The entity is of the class that its mapping is for. -/
theorem Registry.same_of_mappingFor {registry : Registry} {e : Entity}
    {mapping : ClassMapping} (hmapping : registry.mappingFor e = .ok mapping) :
    e.type.same mapping.type = true := by
  rw [EntityType.same, beq_iff_eq, same_of_find? (mappingFor_eq_ok.1 hmapping)]

end AggregateSync
