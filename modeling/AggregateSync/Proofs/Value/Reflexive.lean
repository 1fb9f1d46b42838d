import AggregateSync.Proofs.Value.Equality

/-!
# Values that equal themselves

Equality of values is reflexive but for one reason: a NaN, which may lie deep inside a
document or an array.  Whether a value has one is computed here, and a value equals
itself exactly if it has none.  The key form of a value changes integers only, so it has
a NaN exactly where the value has.
-/

namespace AggregateSync

/-- Is the number a NaN? -/
def JsonNumber.isNaN : JsonNumber → Bool
  | integer _ => false
  | float x => x.isNaN

namespace Json

mutual

/-- Is there a NaN in the document? -/
def hasNaN : Json → Bool
  | number n => n.isNaN
  | array items => itemsHaveNaN items
  | object members => membersHaveNaN members
  | _ => false

/-- Is there a NaN in a document of a list? -/
def itemsHaveNaN : List Json → Bool
  | [] => false
  | item :: rest => hasNaN item || itemsHaveNaN rest

/-- Is there a NaN in a member of an object? -/
def membersHaveNaN : List (String × Json) → Bool
  | [] => false
  | (_, value) :: rest => hasNaN value || membersHaveNaN rest

end

end Json

namespace Value

mutual

/-- Is there a NaN in the value? -/
def hasNaN : Value → Bool
  | float x => x.isNaN
  | double x => x.isNaN
  | json document => document.hasNaN
  | array items => itemsHaveNaN items
  | _ => false

/-- Is there a NaN in a value of a list? -/
def itemsHaveNaN : List Value → Bool
  | [] => false
  | item :: rest => hasNaN item || itemsHaveNaN rest

end

end Value

theorem Binary.equal_self_eq {format : BinaryFormat} (x : Binary format) :
    x.equal x = !x.isNaN := by
  simp [equal]

theorem JsonNumber.equal_self_eq (n : JsonNumber) : n.equal n = !n.isNaN := by
  cases n with
  | integer n => simp [equal, isNaN]
  | float x => exact Binary.equal_self_eq x

namespace Json

mutual

theorem equal_self_eq : ∀ a : Json, a.equal a = !a.hasNaN
  | .null => rfl
  | .bool b => by simp [equal, hasNaN]
  | .number n => by rw [equal, hasNaN, JsonNumber.equal_self_eq]
  | .string s => by simp [equal, hasNaN]
  | .array items => by rw [equal, hasNaN, equalItems_self_eq items]
  | .object members => by rw [equal, hasNaN, equalMembers_self_eq members]

theorem equalItems_self_eq : ∀ items : List Json, equalItems items items = !itemsHaveNaN items
  | [] => rfl
  | item :: rest => by
      rw [equalItems, itemsHaveNaN, equal_self_eq item, equalItems_self_eq rest, Bool.not_or]

theorem equalMembers_self_eq : ∀ members : List (String × Json),
    equalMembers members members = !membersHaveNaN members
  | [] => rfl
  | (name, value) :: rest => by
      rw [equalMembers, membersHaveNaN, equal_self_eq value, equalMembers_self_eq rest,
        Bool.not_or, beq_self_eq_true, Bool.true_and]

end

end Json

namespace Value

mutual

/-- A value equals itself exactly if there is no NaN in it. -/
theorem equal_self_eq : ∀ a : Value, a.equal a = !a.hasNaN
  | .null | .default => rfl
  | .bool _ | .tinyInt _ | .smallInt _ | .int _ | .bigInt _ | .decimal _ | .text _ | .bytes _
  | .date _ | .time _ | .timestamp _ | .uuid _ => by simp [equal, hasNaN]
  | .float x | .double x => by rw [equal, hasNaN, Binary.equal_self_eq]
  | .json document => by rw [equal, hasNaN, Json.equal_self_eq]
  | .array items => by rw [equal, hasNaN, equalItems_self_eq items]

theorem equalItems_self_eq : ∀ items : List Value,
    equalItems items items = !itemsHaveNaN items
  | [] => rfl
  | item :: rest => by
      rw [equalItems, itemsHaveNaN, equal_self_eq item, equalItems_self_eq rest, Bool.not_or]

end

@[simp]
theorem hasNaN_keyForm (value : Value) : value.keyForm.hasNaN = value.hasNaN := by
  cases value <;> rfl

theorem itemsHaveNaN_eq_false_iff {items : List Value} :
    itemsHaveNaN items = false ↔ ∀ item ∈ items, item.hasNaN = false := by
  induction items with
  | nil => simp [itemsHaveNaN]
  | cons item rest ih => rw [itemsHaveNaN, Bool.or_eq_false_iff, ih, List.forall_mem_cons]

end Value

/-- An identity equals itself if there is no NaN in its key values. -/
theorem IdentityKey.equal_self_of_values {type : EntityType} {values : List Value}
    (hvalues : ∀ value ∈ values, value.hasNaN = false) :
    (ofValues type values).equal (ofValues type values) = true := by
  have hforms : Value.itemsHaveNaN (values.map Value.keyForm) = false := by
    rw [Value.itemsHaveNaN_eq_false_iff, List.forall_mem_map]
    intro value hvalue
    rw [Value.hasNaN_keyForm, hvalues value hvalue]
  rw [equal, ofValues, Value.equalItems_self_eq, hforms, EntityType.same]
  simp

end AggregateSync
