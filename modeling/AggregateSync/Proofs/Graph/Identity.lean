import AggregateSync.Proofs.Graph.Partition
import AggregateSync.Proofs.Value.Plain

/-!
# Members of one identity

Members of one identity are of one class and agree in their keys, up to key form.  For
plain values the converse holds too, so an identity says no more and no less than that.
-/

namespace AggregateSync

/-- The values in the mapped fields of the member are plain. -/
def Member.IsPlain (member : Member) : Prop :=
  ∀ property ∈ member.mapping.columns, (member.entity.read property.field).isPlain = true

theorem Value.equal_of_equalItems_map {α : Type} {first second : α → Value} {items : List α}
    (hequal : Value.equalItems (items.map first) (items.map second) = true) :
    ∀ item ∈ items, (first item).equal (second item) = true := by
  induction items with
  | nil => simp
  | cons item rest ih =>
      rw [List.map_cons, List.map_cons, Value.equalItems, Bool.and_eq_true] at hequal
      intro other hother
      rcases List.mem_cons.1 hother with rfl | hother
      · exact hequal.1
      · exact ih hequal.2 other hother

namespace Member.SameIdentity

variable {registry : Registry} {member other : Member}

theorem mapping_eq (hsame : member.SameIdentity other) (hmember : member.IsKnown registry)
    (hother : other.IsKnown registry) : other.mapping = member.mapping := by
  have htype := hsame.same_type hmember hother
  have hmemberType := hmember.same_type
  rw [EntityType.same, beq_iff_eq] at htype hmemberType
  have hfind := Registry.mappingFor_eq_ok.1 hother.1
  rw [htype, ← hmemberType, Registry.mappingFor_eq_ok.1 hmember.1, Option.some.injEq] at hfind
  exact hfind.symm

/-- The keys of members of one identity agree in key form. -/
theorem keyEqual (hsame : member.SameIdentity other) (hmember : member.IsKnown registry)
    (hother : other.IsKnown registry) : ∀ key ∈ member.mapping.keys,
      (other.entity.read key.field).keyEqual (member.entity.read key.field) = true := by
  obtain ⟨identity, otherIdentity, hkey, hotherKey, hequal⟩ := hsame.symm
  have hmapping := hsame.mapping_eq hmember hother
  rw [hother.key_eq] at hkey
  rw [hmember.key_eq] at hotherKey
  split at hkey
  case isFalse => cases hkey
  split at hotherKey
  case isFalse => cases hotherKey
  cases hkey
  cases hotherKey
  rw [IdentityKey.equal, Bool.and_eq_true] at hequal
  have hitems := hequal.2
  rw [hmapping, IdentityKey.ofValues, IdentityKey.ofValues, ClassMapping.keyReadings,
    ClassMapping.keyReadings, List.map_map, List.map_map] at hitems
  exact Value.equal_of_equalItems_map hitems

end Member.SameIdentity

/-! ## Plain members -/

theorem Member.IsKnown.key_of_isSome {registry : Registry} {member : Member}
    (hknown : member.IsKnown registry) (hsaved : member.key.isSome) :
    member.key = some (IdentityKey.ofValues member.mapping.type
      (member.mapping.keyReadings member.entity)) := by
  have hkey := hknown.key_eq
  split at hkey
  case isTrue => exact hkey
  case isFalse =>
    rw [hkey] at hsaved
    cases hsaved

/-- The key of a saved member is complete and is its identity. -/
theorem Member.IsKnown.keyReadings_of_isSome {registry : Registry} {member : Member}
    (hknown : member.IsKnown registry) (hsaved : member.key.isSome) :
    (∀ value ∈ member.mapping.keyReadings member.entity, value.isNull = false) ∧
      ∃ key, member.key = some key ∧
        (member.mapping.keyReadings member.entity).map Value.keyForm = key.values := by
  refine ⟨?_, _, hknown.key_of_isSome hsaved, rfl⟩
  have hcomplete : member.mapping.isSaved member.entity = true := by
    by_contra hincomplete
    rw [hknown.key_eq, if_neg hincomplete] at hsaved
    cases hsaved
  rw [ClassMapping.isSaved, Bool.and_eq_true, Bool.not_eq_true', List.any_eq_false] at hcomplete
  intro value hvalue
  exact Bool.eq_false_iff.2 (hcomplete.1 value hvalue)

theorem Member.sameIdentity_of_keys {registry : Registry} {member other : Member}
    (hmember : member.IsKnown registry) (hother : other.IsKnown registry)
    (hplain : member.IsPlain) (hsaved : member.key.isSome) (hsaved' : other.key.isSome)
    (hmapping : other.mapping = member.mapping)
    (hkeys : ∀ key ∈ member.mapping.keys,
      (member.entity.read key.field).keyForm = (other.entity.read key.field).keyForm) :
    member.SameIdentity other := by
  have hvalues : (member.mapping.keyReadings member.entity).map Value.keyForm =
      (member.mapping.keyReadings other.entity).map Value.keyForm := by
    rw [ClassMapping.keyReadings, ClassMapping.keyReadings, List.map_map, List.map_map]
    exact List.map_congr_left hkeys
  have hitems : Value.itemsArePlain
      ((member.mapping.keyReadings member.entity).map Value.keyForm) = true := by
    rw [Value.itemsArePlain_iff]
    intro item hitem
    obtain ⟨value, hvalue, rfl⟩ := List.mem_map.1 hitem
    obtain ⟨key, hkey, rfl⟩ := List.mem_map.1 hvalue
    exact Value.isPlain_keyForm (hplain key (List.mem_append_left _ hkey))
  refine ⟨_, _, hmember.key_of_isSome hsaved, hother.key_of_isSome hsaved', ?_⟩
  rw [hmapping, IdentityKey.ofValues, IdentityKey.ofValues, ← hvalues, IdentityKey.equal,
    (Value.equalItems_iff_eq hitems hitems).2 rfl]
  simp [EntityType.same]

theorem Member.SameIdentity.keyForm_eq {registry : Registry} {member other : Member}
    (hsame : member.SameIdentity other) (hmember : member.IsKnown registry)
    (hother : other.IsKnown registry) (hplain : member.IsPlain) (hplain' : other.IsPlain)
    {key : Property} (hkey : key ∈ member.mapping.keys) :
    (other.entity.read key.field).keyForm = (member.entity.read key.field).keyForm := by
  have hmapping := hsame.mapping_eq hmember hother
  have hcolumn : key ∈ member.mapping.columns := List.mem_append_left _ hkey
  apply (Value.keyEqual_iff _ (hplain key hcolumn)).1 (hsame.keyEqual hmember hother key hkey)
  apply hplain'
  rwa [hmapping]

end AggregateSync
