import AggregateSync.Proofs.Relational
import AggregateSync.Proofs.Value.Hashing
import AggregateSync.Proofs.Value.Plain
import AggregateSync.Value.Text

/-!
# Values of one key form

A database may answer with another integer width than the one that was stored.  Values of one
key form are the same but for such a width: no reader of a value, no comparison of keys, no
table of keys and no message tells them apart, except that the message of a failed conversion
names the width that was found.
-/

namespace AggregateSync

namespace Value

/-! ## One key form -/

/-- The values are the same up to the width of an integer. -/
def SameForm (value other : Value) : Prop := value.keyForm = other.keyForm

variable {value other : Value}

theorem SameForm.refl (value : Value) : value.SameForm value := rfl

theorem asInteger?_keyForm (value : Value) : value.keyForm.asInteger? = value.asInteger? := by
  cases value with
  | tinyInt n | smallInt n | int n =>
      have hlow := n.le_toInt
      have hhigh := n.toInt_lt
      exact congrArg some (Int64.toInt_ofInt_of_le (by omega) (by omega))
  | _ => rfl

/-- Values of one key form are the same, or integers of one number. -/
theorem SameForm.eq_or_integer (hform : value.SameForm other) : value = other ∨
    ∃ n, value.isInteger = true ∧ other.isInteger = true ∧ value.asInteger? = some n ∧
      other.asInteger? = some n := by
  cases hinteger : value.isInteger with
  | false => exact .inl (eq_of_keyForm_eq hinteger hform).symm
  | true =>
      obtain ⟨n, hn⟩ : ∃ n, value.asInteger? = some n := by
        cases value <;> first | exact ⟨_, rfl⟩ | cases hinteger
      refine .inr ⟨n, rfl, isInteger_of_keyForm_eq hinteger hform, hn, ?_⟩
      rw [← asInteger?_keyForm, ← hform, asInteger?_keyForm, hn]

theorem SameForm.isNull_eq (hform : value.SameForm other) : value.isNull = other.isNull := by
  obtain rfl | ⟨_, hvalue, hother, _⟩ := hform.eq_or_integer
  · rfl
  · rw [isNull_of_isInteger hvalue, isNull_of_isInteger hother]

theorem SameForm.sameEntry_eq {value' other' : Value} (hform : value.SameForm other)
    (hform' : value'.SameForm other') : value.sameEntry value' = other.sameEntry other' := by
  rw [sameEntry, sameEntry, keyEqual, keyEqual, hform, hform']

/-- What is found where a value without a zero was entered is of its key form. -/
theorem sameForm_of_sameEntry (hzero : value.isZeroFree = true)
    (hsame : value.sameEntry other = true) : value.SameForm other := by
  rw [sameEntry, Bool.and_eq_true] at hsame
  exact keyForm_eq_of_keyEqual hsame.2 hzero

theorem SameForm.keyEqual_eq (hform : value.SameForm other) (key : Value) :
    key.keyEqual value = key.keyEqual other := by
  rw [keyEqual, keyEqual, hform]

/-- Messages show the number, not its width. -/
theorem SameForm.display_eq (hform : value.SameForm other) : value.display = other.display := by
  have hinteger : ∀ {value : Value} {n : Int}, value.isInteger = true →
      value.asInteger? = some n → value.display = toString n := by
    intro value n hinteger hn
    cases value with
    | tinyInt m | smallInt m | int m | bigInt m => rw [← Option.some.inj hn, display]
    | _ => cases hinteger
  obtain rfl | ⟨n, hvalue, hother, hn, hm⟩ := hform.eq_or_integer
  · rfl
  · rw [hinteger hvalue hn, hinteger hother hm]

theorem asBool?_of_isInteger (hinteger : value.isInteger = true) :
    value.asBool? = value.asInteger?.map (decide <| · ≠ 0) := by
  cases value <;> first | rfl | cases hinteger

theorem asDouble?_of_isInteger (hinteger : value.isInteger = true) :
    value.asDouble? = value.asInteger?.map Binary.ofInt := by
  cases value <;> first | rfl | cases hinteger

theorem toSingle_of_isInteger (hinteger : value.isInteger = true) {n : Int}
    (hn : value.asInteger? = some n) :
    value.toSingle = .ok (Binary.ofInt n : Double).convert := by
  have hdouble := asDouble?_of_isInteger hinteger
  rw [hn, Option.map_some] at hdouble
  cases value <;> first | (cases hinteger; done) | simp only [toSingle, hdouble]

end Value

/-! ## Reading values of one key form -/

/-- The errors are the same except for the type that was found. -/
structure ConversionError.Alike (e e' : ConversionError) : Prop where
  expected : e.expected = e'.expected
  column : e.column = e'.column

theorem ConversionError.Alike.refl (e : ConversionError) : e.Alike e := ⟨rfl, rfl⟩

/-- Values that a property of some type shows alike. -/
structure FieldType.ShowsAlike (type : FieldType) (value other : Value) : Prop where
  form : value.SameForm other
  holds : type.holds value = type.holds other

namespace FieldType

theorem ShowsAlike.refl (type : FieldType) (value : Value) : type.ShowsAlike value value :=
  ⟨rfl, rfl⟩

theorem ShowsAlike.optional {inner : FieldType} {value other : Value}
    (halike : inner.ShowsAlike value other) : (optional inner).ShowsAlike value other :=
  ⟨halike.form, by rw [FieldType.holds, FieldType.holds, halike.form.isNull_eq, halike.holds]⟩

/-- Reading values of one key form gives values of one key form, or fails for the same reason:
the range of a narrow type is checked for the number, whatever width it came in. -/
theorem read_related (type : FieldType) {value other : Value} (hform : value.SameForm other) :
    Result.Related ConversionError.Alike type.ShowsAlike (type.read value) (type.read other) := by
  have hsame {type : FieldType} (heq : type.read value = type.read other) :
      Result.Related ConversionError.Alike type.ShowsAlike (type.read value)
        (type.read other) := by
    rw [heq]
    exact .refl ConversionError.Alike.refl (ShowsAlike.refl type) _
  obtain rfl | ⟨n, hvalue, hother, hn, hm⟩ := hform.eq_or_integer
  · exact hsame rfl
  have hfails {expected : String} {type : FieldType}
      (hread : ∀ v : Value, v.isInteger = true → type.read v = .error (v.mismatch expected)) :
      Result.Related ConversionError.Alike type.ShowsAlike (type.read value)
        (type.read other) := by
    rw [hread value hvalue, hread other hother]
    exact .error ⟨rfl, rfl⟩
  have hsigned (bits : Nat) : value.toSigned bits = other.toSigned bits := by
    rw [Value.toSigned, Value.toSigned, Value.toInteger, Value.toInteger, hn, hm]
  induction type with
  | bool =>
      apply hsame
      rw [read, read, Value.toBool, Value.toBool, Value.asBool?_of_isInteger hvalue,
        Value.asBool?_of_isInteger hother, hn, hm]
      rfl
  | tinyInt | smallInt | int | bigInt =>
      apply hsame
      rw [read, read, hsigned]
  | float =>
      apply hsame
      rw [read, read, Value.toSingle_of_isInteger hvalue hn, Value.toSingle_of_isInteger hother hm]
  | double =>
      apply hsame
      rw [read, read, Value.toDouble, Value.toDouble, Value.asDouble?_of_isInteger hvalue,
        Value.asDouble?_of_isInteger hother, hn, hm]
      rfl
  | text | bytes | uuid | json =>
      apply hfails
      intro v hv
      cases v <;> first | rfl | cases hv
  | dynamic => exact .ok ⟨hform, rfl⟩
  | optional inner ih =>
      rw [read, read, Value.isNull_of_isInteger hvalue, Value.isNull_of_isInteger hother,
        if_neg Bool.false_ne_true, if_neg Bool.false_ne_true]
      exact ih.mono fun _ _ => ShowsAlike.optional

end FieldType

end AggregateSync
