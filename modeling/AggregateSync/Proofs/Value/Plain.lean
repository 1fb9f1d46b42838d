import AggregateSync.Proofs.Value.Equality
import AggregateSync.Value.Convert

/-!
# Plain values

Equality of values is not identity: NaN differs from itself and the two zeros are
equal.  A plain value has no NaN and no negative zero in it, and no DEFAULT, which
stands for a value that only the database knows.  Plain values are equal exactly if
they are the same, and keys of plain values are equal exactly if their key forms are.
-/

namespace AggregateSync

/-- The float is a number other than negative zero. -/
def Binary.isPlain {format : BinaryFormat} (x : Binary format) : Bool :=
  !x.isNaN && !(x.negative && x.isZero)

/-- The number has no NaN and no negative zero. -/
def JsonNumber.isPlain : JsonNumber → Bool
  | integer _ => true
  | float x => x.isPlain

namespace Json

mutual

/-- The document has no NaN and no negative zero. -/
def isPlain : Json → Bool
  | number n => n.isPlain
  | array items => itemsArePlain items
  | object members => membersArePlain members
  | _ => true

/-- Is every document of a list plain? -/
def itemsArePlain : List Json → Bool
  | [] => true
  | item :: rest => isPlain item && itemsArePlain rest

/-- Is every member of an object plain? -/
def membersArePlain : List (String × Json) → Bool
  | [] => true
  | (_, value) :: rest => isPlain value && membersArePlain rest

end

end Json

namespace Value

mutual

/-- The value has no NaN, no negative zero and no DEFAULT. -/
def isPlain : Value → Bool
  | default => false
  | float x => x.isPlain
  | double x => x.isPlain
  | json document => document.isPlain
  | array items => itemsArePlain items
  | _ => true

/-- Is every value of a list plain? -/
def itemsArePlain : List Value → Bool
  | [] => true
  | item :: rest => isPlain item && itemsArePlain rest

end

end Value

/-! ## Equality of plain values -/

namespace Binary

variable {format : BinaryFormat}

theorem equal_iff_eq {x y : Binary format} (hx : x.isPlain = true) (hy : y.isPlain = true) :
    x.equal y = true ↔ x = y := by
  constructor
  · intro hequal
    cases hzero : x.isZero with
    | false => exact eq_of_equal hequal hzero
    | true =>
        have hother : y.isZero = true := by
          cases hother : y.isZero with
          | true => rfl
          | false =>
              rw [equal_comm] at hequal
              rw [eq_of_equal hequal hother, hzero] at hother
              cases hother
        -- both are the positive zero
        simp only [isPlain, Bool.and_eq_true, hzero, hother, Bool.and_true,
          Bool.not_eq_true'] at hx hy
        obtain ⟨negative, magnitude⟩ := x
        obtain ⟨negative', magnitude'⟩ := y
        simp only [isZero, beq_iff_eq] at hzero hother
        obtain rfl : negative = negative' := hx.2.trans hy.2.symm
        obtain rfl : magnitude = magnitude' := Fin.ext (hzero.trans hother.symm)
        rfl
  · rintro rfl
    simp only [isPlain, Bool.and_eq_true, Bool.not_eq_true'] at hx
    exact equal_self hx.1

end Binary

theorem JsonNumber.equal_iff_eq {m n : JsonNumber} (hm : m.isPlain = true)
    (hn : n.isPlain = true) : m.equal n = true ↔ m = n := by
  cases m with
  | integer m => cases n <;> simp [equal]
  | float x =>
      cases n with
      | integer n => simp [equal]
      | float y => rw [equal, Binary.equal_iff_eq hm hn, float.injEq]

namespace Json

mutual

theorem equal_iff_eq : ∀ {a b : Json}, a.isPlain = true → b.isPlain = true →
    (a.equal b = true ↔ a = b)
  | .null, b, _, _ | .bool _, b, _, _ | .string _, b, _, _ => by cases b <;> simp [equal]
  | .number m, b, ha, hb => by
      cases b with
      | number n =>
          rw [isPlain] at ha hb
          rw [equal, JsonNumber.equal_iff_eq ha hb, number.injEq]
      | _ => simp [equal]
  | .array items, b, ha, hb => by
      cases b with
      | array others =>
          rw [isPlain] at ha hb
          rw [equal, equalItems_iff_eq ha hb, array.injEq]
      | _ => simp [equal]
  | .object members, b, ha, hb => by
      cases b with
      | object others =>
          rw [isPlain] at ha hb
          rw [equal, equalMembers_iff_eq ha hb, object.injEq]
      | _ => simp [equal]

theorem equalItems_iff_eq : ∀ {items others : List Json}, itemsArePlain items = true →
    itemsArePlain others = true → (equalItems items others = true ↔ items = others)
  | [], [], _, _ => by simp [equalItems]
  | [], _ :: _, _, _ | _ :: _, [], _, _ => by simp [equalItems]
  | a :: items, b :: others, hitems, hothers => by
      rw [itemsArePlain, Bool.and_eq_true] at hitems hothers
      rw [equalItems, Bool.and_eq_true, equal_iff_eq hitems.1 hothers.1,
        equalItems_iff_eq hitems.2 hothers.2, List.cons.injEq]

theorem equalMembers_iff_eq : ∀ {members others : List (String × Json)},
    membersArePlain members = true → membersArePlain others = true →
      (equalMembers members others = true ↔ members = others)
  | [], [], _, _ => by simp [equalMembers]
  | [], _ :: _, _, _ | _ :: _, [], _, _ => by simp [equalMembers]
  | (name, a) :: members, (other, b) :: others, hmembers, hothers => by
      rw [membersArePlain, Bool.and_eq_true] at hmembers hothers
      rw [equalMembers, Bool.and_eq_true, Bool.and_eq_true, beq_iff_eq,
        equal_iff_eq hmembers.1 hothers.1, equalMembers_iff_eq hmembers.2 hothers.2,
        List.cons.injEq, Prod.mk.injEq]

end

end Json

namespace Value

mutual

theorem equal_iff_eq : ∀ {a b : Value}, a.isPlain = true → b.isPlain = true →
    (a.equal b = true ↔ a = b)
  | .null, b, _, _ | .bool _, b, _, _ | .tinyInt _, b, _, _ | .smallInt _, b, _, _
  | .int _, b, _, _ | .bigInt _, b, _, _ | .decimal _, b, _, _ | .text _, b, _, _
  | .bytes _, b, _, _ | .date _, b, _, _ | .time _, b, _, _ | .timestamp _, b, _, _
  | .uuid _, b, _, _ => by cases b <;> simp [equal]
  | .default, _, ha, _ => by
      rw [isPlain] at ha
      cases ha
  | .float x, b, ha, hb => by
      cases b with
      | float y =>
          rw [isPlain] at ha hb
          rw [equal, Binary.equal_iff_eq ha hb, float.injEq]
      | _ => simp [equal]
  | .double x, b, ha, hb => by
      cases b with
      | double y =>
          rw [isPlain] at ha hb
          rw [equal, Binary.equal_iff_eq ha hb, double.injEq]
      | _ => simp [equal]
  | .json document, b, ha, hb => by
      cases b with
      | json other =>
          rw [isPlain] at ha hb
          rw [equal, Json.equal_iff_eq ha hb, json.injEq]
      | _ => simp [equal]
  | .array items, b, ha, hb => by
      cases b with
      | array others =>
          rw [isPlain] at ha hb
          rw [equal, equalItems_iff_eq ha hb, array.injEq]
      | _ => simp [equal]

theorem equalItems_iff_eq : ∀ {items others : List Value}, itemsArePlain items = true →
    itemsArePlain others = true → (equalItems items others = true ↔ items = others)
  | [], [], _, _ => by simp [equalItems]
  | [], _ :: _, _, _ | _ :: _, [], _, _ => by simp [equalItems]
  | a :: items, b :: others, hitems, hothers => by
      rw [itemsArePlain, Bool.and_eq_true] at hitems hothers
      rw [equalItems, Bool.and_eq_true, equal_iff_eq hitems.1 hothers.1,
        equalItems_iff_eq hitems.2 hothers.2, List.cons.injEq]

end

theorem itemsArePlain_iff {items : List Value} :
    itemsArePlain items = true ↔ ∀ item ∈ items, item.isPlain = true := by
  induction items with
  | nil => simp [itemsArePlain]
  | cons item rest ih =>
      rw [itemsArePlain, Bool.and_eq_true, ih, List.forall_mem_cons]

theorem isPlain_keyForm {value : Value} (hplain : value.isPlain = true) :
    value.keyForm.isPlain = true := by
  cases value <;> exact hplain

theorem isPlain_of_keyForm_eq {value other : Value} (hsame : value.keyForm = other.keyForm)
    (hplain : other.isPlain = true) : value.isPlain = true := by
  have hform := isPlain_keyForm hplain
  rw [← hsame] at hform
  cases value <;> first | rfl | exact hform

/-- Plain values are equal as components of keys exactly if they have one key form. -/
theorem keyEqual_iff {a b : Value} (ha : a.isPlain = true) (hb : b.isPlain = true) :
    a.keyEqual b = true ↔ a.keyForm = b.keyForm :=
  equal_iff_eq (isPlain_keyForm ha) (isPlain_keyForm hb)

theorem keyEqual_self {value : Value} (hplain : value.isPlain = true) :
    value.keyEqual value = true :=
  (keyEqual_iff hplain hplain).2 rfl

end Value

/-! ## Key forms of converted values -/

namespace Value

theorem isNull_of_isInteger {value : Value} (hinteger : value.isInteger = true) :
    value.isNull = false := by
  cases value with
  | null => cases hinteger
  | _ => rfl

theorem keyForm_of_isInteger {value : Value} (hinteger : value.isInteger = true) {n : Int}
    (hn : value.asInteger? = some n) : value.keyForm = .bigInt (Int64.ofInt n) := by
  cases value with
  | bigInt m =>
      obtain rfl := Option.some.inj hn
      change bigInt m = bigInt (Int64.ofInt m.toInt)
      rw [Int64.ofInt_toInt]
  | tinyInt m | smallInt m | int m =>
      obtain rfl := Option.some.inj hn
      rfl
  | _ => cases hinteger

/-- A value that is no whole number is known from its key form. -/
theorem eq_of_keyForm_eq {old value : Value} (hother : old.isInteger = false)
    (hsame : old.keyForm = value.keyForm) : value = old := by
  cases old with
  | tinyInt m | smallInt m | int m | bigInt m => cases hother
  | _ =>
      cases value <;> cases hsame
      rfl

theorem isInteger_of_keyForm_eq {old value : Value} (hinteger : old.isInteger = true)
    (hsame : old.keyForm = value.keyForm) : value.isInteger = true := by
  cases hvalue : value.isInteger with
  | true => rfl
  | false =>
      rw [eq_of_keyForm_eq hvalue hsame.symm, hvalue] at hinteger
      cases hinteger

end Value

namespace FieldType

/-- Does a property of the type show whole numbers? -/
def showsIntegers : FieldType → Bool
  | tinyInt | smallInt | int | bigInt | dynamic => true
  | optional inner => inner.showsIntegers
  | _ => false

theorem showsIntegers_of_holds {type : FieldType} {value : Value}
    (hholds : type.holds value = true) (hinteger : value.isInteger = true) :
    type.showsIntegers = true := by
  induction type with
  | tinyInt | smallInt | int | bigInt | dynamic => rfl
  | optional inner ih =>
      apply ih
      rw [holds, Bool.or_eq_true] at hholds
      apply hholds.resolve_left
      rw [Value.isNull_of_isInteger hinteger]
      exact Bool.false_ne_true
  | _ => cases value <;> first | (cases hinteger; done) | cases hholds

theorem toSigned_eq_ok {bits : Nat} {value : Value} {n : Int} :
    value.toSigned bits = .ok n ↔
      value.asInteger? = some n ∧ -Int.pow 2 (bits - 1) ≤ n ∧
        n ≤ Int.pow 2 (bits - 1) - 1 := by
  rw [Value.toSigned, Value.toInteger]
  cases value.asInteger? with
  | none => simp
  | some m =>
      simp only [Option.some.injEq]
      constructor
      · intro hread
        split at hread
        case isTrue hrange =>
          cases hread
          exact ⟨rfl, hrange⟩
        case isFalse => cases hread
      · rintro ⟨rfl, hrange⟩
        rw [if_pos hrange]

/-- A whole number that is read into a property keeps its key form. -/
theorem keyForm_of_read_integer {type : FieldType} (hshows : type.showsIntegers = true)
    {value shown : Value} (hvalue : value.isInteger = true)
    (hread : type.read value = .ok shown) : shown.keyForm = value.keyForm := by
  have hsigned : ∀ {bits : Nat} {wrap : Int → Value},
      (value.toSigned bits).map wrap = .ok shown →
      (∀ n, -Int.pow 2 (bits - 1) ≤ n → n ≤ Int.pow 2 (bits - 1) - 1 →
        (wrap n).keyForm = .bigInt (Int64.ofInt n)) → shown.keyForm = value.keyForm := by
    intro bits wrap hread hform
    cases hsigned : value.toSigned bits with
    | error e =>
        rw [hsigned] at hread
        cases hread
    | ok n =>
        rw [hsigned] at hread
        cases hread
        obtain ⟨hn, hlow, hhigh⟩ := toSigned_eq_ok.1 hsigned
        rw [hform n hlow hhigh, Value.keyForm_of_isInteger hvalue hn]
  induction type with
  | tinyInt =>
      apply hsigned hread
      intro n hlow hhigh
      rw [Value.keyForm, Int8.toInt_ofInt_of_le hlow (Int.lt_of_le_sub_one hhigh)]
  | smallInt =>
      apply hsigned hread
      intro n hlow hhigh
      rw [Value.keyForm, Int16.toInt_ofInt_of_le hlow (Int.lt_of_le_sub_one hhigh)]
  | int =>
      apply hsigned hread
      intro n hlow hhigh
      rw [Value.keyForm, Int32.toInt_ofInt_of_le hlow (Int.lt_of_le_sub_one hhigh)]
  | bigInt =>
      apply hsigned hread
      intro n _ _
      rfl
  | dynamic =>
      cases hread
      rfl
  | optional inner ih =>
      rw [read, Value.isNull_of_isInteger hvalue, if_neg Bool.false_ne_true] at hread
      exact ih hshows hread
  | _ => cases hshows

/-- A value other than a whole number is read into its own type as it is. -/
theorem read_of_holds {type : FieldType} {value : Value} (hholds : type.holds value = true)
    (hother : value.isInteger = false) : type.read value = .ok value := by
  induction type with
  | tinyInt | smallInt | int | bigInt =>
      cases value <;> first | (cases hholds; done) | cases hother
  | optional inner ih =>
      rw [read]
      cases hnull : value.isNull with
      | true =>
          cases value <;> first | rfl | cases hnull
      | false =>
          rw [holds, hnull, Bool.false_or] at hholds
          exact ih hholds
  | _ => cases value <;> first | rfl | cases hholds

/-- What a property shows is read into it as it is. -/
theorem read_self {type : FieldType} {value : Value} (hholds : type.holds value = true) :
    type.read value = .ok value := by
  cases hinteger : value.isInteger with
  | false => exact read_of_holds hholds hinteger
  | true =>
      -- A whole number is checked against the range of the type, which its width keeps.
      have hsigned (bits : Nat) {n : Int} (hn : value.asInteger? = some n)
          (hlow : -Int.pow 2 (bits - 1) ≤ n) (hhigh : n < Int.pow 2 (bits - 1)) :
          value.toSigned bits = .ok n :=
        toSigned_eq_ok.2 ⟨hn, hlow, Int.le_sub_one_of_lt hhigh⟩
      induction type with
      | tinyInt =>
          cases value with
          | tinyInt n => simp [read, hsigned 8 rfl n.le_toInt n.toInt_lt, Except.map]
          | _ => cases hholds
      | smallInt =>
          cases value with
          | smallInt n => simp [read, hsigned 16 rfl n.le_toInt n.toInt_lt, Except.map]
          | _ => cases hholds
      | int =>
          cases value with
          | int n => simp [read, hsigned 32 rfl n.le_toInt n.toInt_lt, Except.map]
          | _ => cases hholds
      | bigInt =>
          cases value with
          | bigInt n => simp [read, hsigned 64 rfl n.le_toInt n.toInt_lt, Except.map]
          | _ => cases hholds
      | dynamic => rfl
      | optional inner ih =>
          have hnull := Value.isNull_of_isInteger hinteger
          rw [holds, hnull, Bool.false_or] at hholds
          rw [read, hnull]
          exact ih hholds
      | _ => cases value <;> first | (cases hinteger; done) | cases hholds

/-- Reading a value into a property that shows a value of the same key form keeps the
key form. -/
theorem keyForm_of_read {type : FieldType} {old value shown : Value}
    (hholds : type.holds old = true) (hsame : old.keyForm = value.keyForm)
    (hread : type.read value = .ok shown) : shown.keyForm = value.keyForm := by
  cases hinteger : old.isInteger with
  | true =>
      exact keyForm_of_read_integer (showsIntegers_of_holds hholds hinteger)
        (Value.isInteger_of_keyForm_eq hinteger hsame) hread
  | false =>
      obtain rfl := Value.eq_of_keyForm_eq hinteger hsame
      rw [read_of_holds hholds hinteger] at hread
      cases hread
      rfl

end FieldType

end AggregateSync
