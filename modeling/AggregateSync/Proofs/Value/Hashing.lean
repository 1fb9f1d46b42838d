import AggregateSync.Proofs.Value.Equality
import AggregateSync.Value.Feed

/-!
# Values in tables of keys

A table of keys finds a value where one of equal key form was entered, provided that
both are hashed alike.  Floats are hashed by their bits, and the two zeros are equal with
different bits; no other equal values differ.  So among values without a zero the table
answers by equality of key forms alone.
-/

namespace AggregateSync

/-- The number is no floating-point zero. -/
def JsonNumber.isZeroFree : JsonNumber → Bool
  | integer _ => true
  | float x => !x.isZero

namespace Json

mutual

/-- The document has no floating-point zero. -/
def isZeroFree : Json → Bool
  | number n => n.isZeroFree
  | array items => itemsAreZeroFree items
  | object members => membersAreZeroFree members
  | _ => true

/-- Has no document of a list a floating-point zero? -/
def itemsAreZeroFree : List Json → Bool
  | [] => true
  | item :: rest => isZeroFree item && itemsAreZeroFree rest

/-- Has no member of an object a floating-point zero? -/
def membersAreZeroFree : List (String × Json) → Bool
  | [] => true
  | (_, value) :: rest => isZeroFree value && membersAreZeroFree rest

end

end Json

namespace Value

mutual

/-- The value has no floating-point zero. -/
def isZeroFree : Value → Bool
  | float x => !x.isZero
  | double x => !x.isZero
  | json document => document.isZeroFree
  | array items => itemsAreZeroFree items
  | _ => true

/-- Has no value of a list a floating-point zero? -/
def itemsAreZeroFree : List Value → Bool
  | [] => true
  | item :: rest => isZeroFree item && itemsAreZeroFree rest

end

end Value

/-! ## Equal values without zeros are the same -/

theorem JsonNumber.eq_of_equal {m n : JsonNumber} (hequal : m.equal n = true)
    (hzero : m.isZeroFree = true) : m = n := by
  cases m with
  | integer m =>
      cases n <;> simp only [equal, Bool.false_eq_true, decide_eq_true_eq] at hequal
      rw [hequal]
  | float x =>
      cases n <;> simp only [equal, Bool.false_eq_true] at hequal
      rw [isZeroFree, Bool.not_eq_true'] at hzero
      rw [Binary.eq_of_equal hequal hzero]

namespace Json

mutual

theorem eq_of_equal : ∀ {a b : Json}, a.equal b = true → a.isZeroFree = true → a = b
  | .null, b, hequal, _ | .bool _, b, hequal, _ | .string _, b, hequal, _ => by
      cases b <;> simp_all [equal]
  | .number m, b, hequal, hzero => by
      cases b <;> simp only [equal, Bool.false_eq_true] at hequal
      rw [isZeroFree] at hzero
      rw [JsonNumber.eq_of_equal hequal hzero]
  | .array items, b, hequal, hzero => by
      cases b <;> simp only [equal, Bool.false_eq_true] at hequal
      rw [isZeroFree] at hzero
      rw [eq_of_equalItems hequal hzero]
  | .object members, b, hequal, hzero => by
      cases b <;> simp only [equal, Bool.false_eq_true] at hequal
      rw [isZeroFree] at hzero
      rw [eq_of_equalMembers hequal hzero]

theorem eq_of_equalItems : ∀ {items others : List Json}, equalItems items others = true →
    itemsAreZeroFree items = true → items = others
  | [], [], _, _ => rfl
  | [], _ :: _, hequal, _ | _ :: _, [], hequal, _ => by simp [equalItems] at hequal
  | a :: items, b :: others, hequal, hzero => by
      rw [equalItems, Bool.and_eq_true] at hequal
      rw [itemsAreZeroFree, Bool.and_eq_true] at hzero
      rw [eq_of_equal hequal.1 hzero.1, eq_of_equalItems hequal.2 hzero.2]

theorem eq_of_equalMembers : ∀ {members others : List (String × Json)},
    equalMembers members others = true → membersAreZeroFree members = true →
      members = others
  | [], [], _, _ => rfl
  | [], _ :: _, hequal, _ | _ :: _, [], hequal, _ => by simp [equalMembers] at hequal
  | (name, a) :: members, (other, b) :: others, hequal, hzero => by
      rw [equalMembers, Bool.and_eq_true, Bool.and_eq_true, beq_iff_eq] at hequal
      rw [membersAreZeroFree, Bool.and_eq_true] at hzero
      rw [hequal.1.1, eq_of_equal hequal.1.2 hzero.1, eq_of_equalMembers hequal.2 hzero.2]

end

end Json

namespace Value

mutual

theorem eq_of_equal : ∀ {a b : Value}, a.equal b = true → a.isZeroFree = true → a = b
  | .null, b, hequal, _ | .bool _, b, hequal, _ | .tinyInt _, b, hequal, _
  | .smallInt _, b, hequal, _ | .int _, b, hequal, _ | .bigInt _, b, hequal, _
  | .decimal _, b, hequal, _ | .text _, b, hequal, _ | .bytes _, b, hequal, _
  | .date _, b, hequal, _ | .time _, b, hequal, _ | .timestamp _, b, hequal, _
  | .uuid _, b, hequal, _ | .default, b, hequal, _ => by cases b <;> simp_all [equal]
  | .float x, b, hequal, hzero | .double x, b, hequal, hzero => by
      cases b <;> simp only [equal, Bool.false_eq_true] at hequal
      rw [isZeroFree, Bool.not_eq_true'] at hzero
      rw [Binary.eq_of_equal hequal hzero]
  | .json document, b, hequal, hzero => by
      cases b <;> simp only [equal, Bool.false_eq_true] at hequal
      rw [isZeroFree] at hzero
      rw [Json.eq_of_equal hequal hzero]
  | .array items, b, hequal, hzero => by
      cases b <;> simp only [equal, Bool.false_eq_true] at hequal
      rw [isZeroFree] at hzero
      rw [eq_of_equalItems hequal hzero]

theorem eq_of_equalItems : ∀ {items others : List Value}, equalItems items others = true →
    itemsAreZeroFree items = true → items = others
  | [], [], _, _ => rfl
  | [], _ :: _, hequal, _ | _ :: _, [], hequal, _ => by simp [equalItems] at hequal
  | a :: items, b :: others, hequal, hzero => by
      rw [equalItems, Bool.and_eq_true] at hequal
      rw [itemsAreZeroFree, Bool.and_eq_true] at hzero
      rw [eq_of_equal hequal.1 hzero.1, eq_of_equalItems hequal.2 hzero.2]

end

theorem isZeroFree_keyForm (value : Value) : value.keyForm.isZeroFree = value.isZeroFree := by
  cases value <;> rfl

theorem itemsAreZeroFree_iff {items : List Value} :
    itemsAreZeroFree items = true ↔ ∀ item ∈ items, item.isZeroFree = true := by
  induction items with
  | nil => simp [itemsAreZeroFree]
  | cons item rest ih => rw [itemsAreZeroFree, Bool.and_eq_true, ih, List.forall_mem_cons]

/-- Without zeros, values that are equal as components of keys have one key form. -/
theorem keyForm_eq_of_keyEqual {a b : Value} (hequal : a.keyEqual b = true)
    (hzero : a.isZeroFree = true) : a.keyForm = b.keyForm :=
  eq_of_equal hequal (by rwa [isZeroFree_keyForm])

/-- So they feed a hasher the same bytes. -/
theorem feed_eq_of_keyEqual {a b : Value} (hequal : a.keyEqual b = true)
    (hzero : a.isZeroFree = true) : a.keyForm.feed = b.keyForm.feed := by
  rw [keyForm_eq_of_keyEqual hequal hzero]

theorem keyEqual_comm (a b : Value) : a.keyEqual b = b.keyEqual a := equal_comm _ _

/-! ## Looking keys up -/

theorem sameEntry_comm (a b : Value) : a.sameEntry b = b.sameEntry a := by
  rw [sameEntry, sameEntry, keyEqual_comm, BEq.comm]

theorem sameEntry_trans {a b c : Value} (hleft : a.sameEntry b = true)
    (hright : b.sameEntry c = true) : a.sameEntry c = true := by
  rw [sameEntry, Bool.and_eq_true, beq_iff_eq] at hleft hright ⊢
  exact ⟨hleft.1.trans hright.1, equal_trans hleft.2 hright.2⟩

/-- Only NULL is entered where NULL is found. -/
theorem isNull_of_sameEntry_null {value : Value} (hsame : value.sameEntry .null = true) :
    value.isNull = true := by
  rw [sameEntry, Bool.and_eq_true] at hsame
  have hequal := hsame.2
  cases value <;> simp [keyEqual, keyForm, equal] at hequal
  rfl

/-- A value without a zero is found exactly where its key form was entered. -/
theorem sameEntry_iff {a b : Value} (hzero : b.isZeroFree = true) :
    a.sameEntry b = true ↔ a.keyEqual b = true := by
  rw [sameEntry, Bool.and_eq_true, beq_iff_eq, and_iff_right_iff_imp]
  intro hequal
  rw [keyEqual_comm] at hequal
  exact (feed_eq_of_keyEqual hequal hzero).symm

end Value

end AggregateSync
