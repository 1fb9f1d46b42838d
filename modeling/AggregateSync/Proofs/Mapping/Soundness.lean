import AggregateSync.Proofs.Mapping.Faults
import AggregateSync.Proofs.Mapping.Identity

/-!
# What a registry has checked

A registry finds whatever its relations name: the classes of their targets, the
discriminators, and the properties on both ends of their foreign keys.  Nobody who follows a
relation of a mapped class asks for one of these in vain.
-/

namespace AggregateSync

/-- What a relation names can be found: the registry has the class of each target, and the
properties are those of the class of the relation or, at the far end of a foreign key, those of
the class of the target. -/
structure Relation.IsSound (relation : Relation) (registry : Registry) (mapping : ClassMapping) :
    Prop where
  parent : relation.parent.same mapping.type = true
  discriminator : ∀ name, relation.discriminator = some name →
    ∃ property, mapping.property? name = some property
  target : ∀ target ∈ relation.targets, ∃ child, registry.find? target.type.id = some child ∧
    ∀ foreignKey, target.foreignKey = some foreignKey →
      (∃ referenced, mapping.property? foreignKey.referenced = some referenced) ∧
      ∀ name, foreignKey.property = some name → ∃ property, child.property? name = some property

namespace ClassMapping

variable {mapping : ClassMapping} {relation : Relation} {target : Target}
  {known : List ClassMapping}

theorem missingProperty?_eq_none {name : String} (hnone : mapping.missingProperty? name = none) :
    ∃ property, mapping.property? name = some property := by
  rw [missingProperty?] at hnone
  cases hproperty : mapping.requireProperty name with
  | ok property => exact ⟨property, requireProperty_eq_ok.1 hproperty⟩
  | error e =>
      rw [hproperty] at hnone
      cases hnone

/-- A mapping has only relations of its own class. -/
theorem parent_same (hrelation : relation ∈ mapping.relations) :
    relation.parent.same mapping.type = true := by
  have hsound := mapping.sound
  rw [ClassDeclaration.fault?] at hsound
  split at hsound
  · cases hsound
  · split at hsound
    · cases hsound
    · have hfault := List.findSome?_eq_none_iff.1 hsound relation hrelation
      rw [ClassDeclaration.relationFault?] at hfault
      split at hfault
      · assumption
      · cases hfault

theorem targetFault?_eq_none (hnone : mapping.targetFault? known relation target = none) :
    ∃ child, (known.find? fun child => child.type.id == target.type.id) = some child ∧
      ∀ foreignKey, target.foreignKey = some foreignKey →
        (∃ referenced, mapping.property? foreignKey.referenced = some referenced) ∧
        ∀ name, foreignKey.property = some name →
          ∃ property, child.property? name = some property := by
  rw [targetFault?] at hnone
  cases hfind : known.find? fun child => child.type.same target.type with
  | none =>
      rw [hfind] at hnone
      cases hnone
  | some child =>
      rw [hfind] at hnone
      refine ⟨child, hfind, fun foreignKey hforeignKey => ?_⟩
      simp only [hforeignKey, Option.or_eq_none_iff, Option.bind_eq_none_iff] at hnone
      exact ⟨missingProperty?_eq_none hnone.1,
        fun name hname => missingProperty?_eq_none (hnone.2 name hname)⟩

end ClassMapping

namespace Registry

variable {registry : Registry} {mapping : ClassMapping} {relation : Relation}

theorem linkFault?_eq_none (hmapping : mapping ∈ registry.mappings) :
    mapping.linkFault? registry.mappings = none := by
  have hsound := registry.sound
  rw [registryFault?, Option.or_eq_none_iff] at hsound
  exact List.findSome?_eq_none_iff.1 hsound.2 mapping hmapping

/-- Every relation of a mapped class names only what can be found. -/
theorem isSound (hmapping : mapping ∈ registry.mappings)
    (hrelation : relation ∈ mapping.relations) : relation.IsSound registry mapping := by
  have hlink := List.findSome?_eq_none_iff.1 (linkFault?_eq_none hmapping) relation hrelation
  rw [Option.or_eq_none_iff, Option.bind_eq_none_iff] at hlink
  constructor
  case parent => exact ClassMapping.parent_same hrelation
  case discriminator =>
    exact fun name hname => ClassMapping.missingProperty?_eq_none (hlink.1 name hname)
  case target =>
    exact fun target htarget =>
      ClassMapping.targetFault?_eq_none (List.findSome?_eq_none_iff.1 hlink.2 target htarget)

/-- Is the class mapped? -/
def Knows (registry : Registry) (type : EntityType) : Prop :=
  ∃ mapping, registry.find? type.id = some mapping

end Registry

end AggregateSync
