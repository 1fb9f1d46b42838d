import AggregateSync.Mapping.Identity

/-!
# Equality of values as a partial equivalence

Values are compared by their own equality and not by identity of their
representation, and NaN is not even equal to itself.  What a lookup by key needs is
that equality goes both ways and can be chained: then a key that equals two keys
shows that these two are equal.  Every relation below is symmetric and transitive
for that purpose; none of them is reflexive.
-/

namespace AggregateSync

namespace Binary

variable {format : BinaryFormat}

theorem equal_trans {x y z : Binary format} (hleft : x.equal y = true)
    (hright : y.equal z = true) : x.equal z = true := by
  simp only [equal, Bool.and_eq_true, Bool.or_eq_true, Bool.not_eq_true',
    decide_eq_true_eq] at hleft hright ⊢
  obtain ⟨⟨hx, _⟩, hxy⟩ := hleft
  obtain ⟨⟨_, hz⟩, hyz⟩ := hright
  refine ⟨⟨hx, hz⟩, ?_⟩
  -- only the two zeros are equal without being the same pattern
  rcases hxy with rfl | ⟨hzeroLeft, hzeroMid⟩
  · exact hyz
  · rcases hyz with rfl | ⟨_, hzeroRight⟩
    · exact .inr ⟨hzeroLeft, hzeroMid⟩
    · exact .inr ⟨hzeroLeft, hzeroRight⟩

end Binary

namespace JsonNumber

theorem equal_comm (m n : JsonNumber) : m.equal n = n.equal m := by
  cases m <;> cases n <;> simp [equal, eq_comm, Binary.equal_comm]

theorem equal_trans {l m n : JsonNumber} (hleft : l.equal m = true)
    (hright : m.equal n = true) : l.equal n = true := by
  cases l <;> cases m <;> simp only [equal, Bool.false_eq_true] at hleft
  · cases n <;> simp_all [equal]
  · cases n <;> simp only [equal, Bool.false_eq_true] at hright
    exact Binary.equal_trans hleft hright

end JsonNumber

namespace Json

mutual

theorem equal_comm : ∀ a b : Json, a.equal b = b.equal a
  | .null, b => by cases b <;> rfl
  | .bool c, b => by cases b <;> simp [equal, Bool.beq_comm]
  | .number m, b => by cases b <;> simp [equal, JsonNumber.equal_comm]
  | .string s, b => by cases b <;> simp [equal, BEq.comm]
  | .array items, b => by
      cases b with
      | array others =>
          simp only [equal]
          exact equalItems_comm items others
      | _ => rfl
  | .object members, b => by
      cases b with
      | object others =>
          simp only [equal]
          exact equalMembers_comm members others
      | _ => rfl

theorem equalItems_comm : ∀ items others : List Json,
    equalItems items others = equalItems others items
  | [], [] | [], _ :: _ | _ :: _, [] => rfl
  | a :: items, b :: others => by
      simp only [equalItems]
      rw [equal_comm a b, equalItems_comm items others]

theorem equalMembers_comm : ∀ members others : List (String × Json),
    equalMembers members others = equalMembers others members
  | [], [] | [], _ :: _ | _ :: _, [] => rfl
  | (name, a) :: members, (other, b) :: others => by
      simp only [equalMembers]
      rw [equal_comm a b, equalMembers_comm members others, BEq.comm]

end

mutual

theorem equal_trans : ∀ {a b c : Json}, a.equal b = true → b.equal c = true →
    a.equal c = true
  | .null, b, _, hleft, hright => by
      cases b <;> simp only [equal, Bool.false_eq_true] at hleft
      exact hright
  | .bool _, b, c, hleft, hright => by cases b <;> cases c <;> simp_all [equal]
  | .string _, b, c, hleft, hright => by cases b <;> cases c <;> simp_all [equal]
  | .number _, b, c, hleft, hright => by
      cases b <;> simp only [equal, Bool.false_eq_true] at hleft
      cases c <;> simp only [equal, Bool.false_eq_true] at hright
      exact JsonNumber.equal_trans hleft hright
  | .array _, b, c, hleft, hright => by
      cases b <;> simp only [equal, Bool.false_eq_true] at hleft
      cases c <;> simp only [equal, Bool.false_eq_true] at hright
      exact equalItems_trans hleft hright
  | .object _, b, c, hleft, hright => by
      cases b <;> simp only [equal, Bool.false_eq_true] at hleft
      cases c <;> simp only [equal, Bool.false_eq_true] at hright
      exact equalMembers_trans hleft hright

theorem equalItems_trans : ∀ {items others rest : List Json},
    equalItems items others = true → equalItems others rest = true →
      equalItems items rest = true
  | [], [], _, _, hright => hright
  | a :: items, b :: others, c :: rest, hleft, hright => by
      simp only [equalItems, Bool.and_eq_true] at hleft hright ⊢
      exact ⟨equal_trans hleft.1 hright.1, equalItems_trans hleft.2 hright.2⟩

theorem equalMembers_trans : ∀ {members others rest : List (String × Json)},
    equalMembers members others = true → equalMembers others rest = true →
      equalMembers members rest = true
  | [], [], _, _, hright => hright
  | (_, a) :: members, (_, b) :: others, (_, c) :: rest, hleft, hright => by
      simp only [equalMembers, Bool.and_eq_true, beq_iff_eq] at hleft hright ⊢
      exact ⟨⟨hleft.1.1.trans hright.1.1, equal_trans hleft.1.2 hright.1.2⟩,
        equalMembers_trans hleft.2 hright.2⟩

end

end Json

namespace Value

mutual

theorem equal_comm : ∀ a b : Value, a.equal b = b.equal a
  | .null, b | .default, b => by cases b <;> rfl
  | .bool _, b => by cases b <;> simp [equal, Bool.beq_comm]
  | .tinyInt _, b | .smallInt _, b | .int _, b | .bigInt _, b | .date _, b | .time _, b
  | .timestamp _, b | .uuid _, b => by cases b <;> simp [equal, eq_comm]
  | .float _, b | .double _, b => by cases b <;> simp [equal, Binary.equal_comm]
  | .decimal _, b | .text _, b | .bytes _, b => by cases b <;> simp [equal, BEq.comm]
  | .json _, b => by cases b <;> simp [equal, Json.equal_comm]
  | .array items, b => by
      cases b with
      | array others =>
          simp only [equal]
          exact equalItems_comm items others
      | _ => rfl

theorem equalItems_comm : ∀ items others : List Value,
    equalItems items others = equalItems others items
  | [], [] | [], _ :: _ | _ :: _, [] => rfl
  | a :: items, b :: others => by
      simp only [equalItems]
      rw [equal_comm a b, equalItems_comm items others]

end

mutual

theorem equal_trans : ∀ {a b c : Value}, a.equal b = true → b.equal c = true →
    a.equal c = true
  | .null, b, _, hleft, hright | .default, b, _, hleft, hright => by
      cases b <;> simp only [equal, Bool.false_eq_true] at hleft
      exact hright
  | .bool _, b, c, hleft, hright | .tinyInt _, b, c, hleft, hright
  | .smallInt _, b, c, hleft, hright | .int _, b, c, hleft, hright
  | .bigInt _, b, c, hleft, hright | .date _, b, c, hleft, hright
  | .time _, b, c, hleft, hright | .timestamp _, b, c, hleft, hright
  | .uuid _, b, c, hleft, hright | .decimal _, b, c, hleft, hright
  | .text _, b, c, hleft, hright | .bytes _, b, c, hleft, hright => by
      cases b <;> simp only [equal, Bool.false_eq_true] at hleft
      cases c <;> simp_all [equal]
  | .float _, b, c, hleft, hright | .double _, b, c, hleft, hright => by
      cases b <;> simp only [equal, Bool.false_eq_true] at hleft
      cases c <;> simp only [equal, Bool.false_eq_true] at hright
      exact Binary.equal_trans hleft hright
  | .json _, b, c, hleft, hright => by
      cases b <;> simp only [equal, Bool.false_eq_true] at hleft
      cases c <;> simp only [equal, Bool.false_eq_true] at hright
      exact Json.equal_trans hleft hright
  | .array _, b, c, hleft, hright => by
      cases b <;> simp only [equal, Bool.false_eq_true] at hleft
      cases c <;> simp only [equal, Bool.false_eq_true] at hright
      exact equalItems_trans hleft hright

theorem equalItems_trans : ∀ {items others rest : List Value},
    equalItems items others = true → equalItems others rest = true →
      equalItems items rest = true
  | [], [], _, _, hright => hright
  | a :: items, b :: others, c :: rest, hleft, hright => by
      simp only [equalItems, Bool.and_eq_true] at hleft hright ⊢
      exact ⟨equal_trans hleft.1 hright.1, equalItems_trans hleft.2 hright.2⟩

end

theorem equal_null (value : Value) : value.equal null = value.isNull := by
  cases value <;> rfl

theorem isNull_of_equal {a b : Value} (hequal : a.equal b = true) : a.isNull = b.isNull := by
  rw [← equal_null, ← equal_null, Bool.eq_iff_iff]
  exact ⟨equal_trans ((equal_comm b a).trans hequal), equal_trans hequal⟩

@[simp]
theorem isNull_keyForm (value : Value) : value.keyForm.isNull = value.isNull := by
  cases value <;> rfl

theorem isNull_of_keyEqual {a b : Value} (hequal : a.keyEqual b = true) :
    a.isNull = b.isNull := by
  rw [← a.isNull_keyForm, isNull_of_equal hequal, b.isNull_keyForm]

end Value

namespace IdentityKey

/-- Equality of identities does not depend on their order. -/
theorem equal_comm (key other : IdentityKey) : key.equal other = other.equal key := by
  unfold equal EntityType.same
  rw [BEq.comm (a := key.type.id), BEq.comm (a := key.feed), Value.equalItems_comm]

/-- Identities that equal a common one are equal. -/
theorem equal_trans {first second third : IdentityKey} (hleft : first.equal second = true)
    (hright : second.equal third = true) : first.equal third = true := by
  simp only [equal, EntityType.same, Bool.and_eq_true, beq_iff_eq] at hleft hright ⊢
  exact ⟨⟨hleft.1.1.trans hright.1.1, hleft.1.2.trans hright.1.2⟩,
    Value.equalItems_trans hleft.2 hright.2⟩

end IdentityKey

end AggregateSync
