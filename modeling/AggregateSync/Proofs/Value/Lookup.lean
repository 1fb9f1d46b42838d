import AggregateSync.Proofs.Value.Width
import Mathlib.Data.List.Find

/-!
# Looking up by hash

A hash table looks for a key among the entries whose hash is that of the key, and nowhere else.
What it finds is right whatever the hash is; that it finds all there is to be found rests on equal
keys having equal hashes.  A hasher knows of a key the bytes that it is fed, so it is enough that
equal keys feed it the same: then a table finds exactly what a search through all entries finds,
whatever the hasher makes of the bytes.
-/

namespace AggregateSync

section HashTable

variable {κ η α : Type} [DecidableEq η]

/-- The entries that a hash table looks at for a key. -/
def bucketOf (hash : κ → η) (key : κ) (entries : List (κ × α)) : List (κ × α) :=
  entries.filter fun entry => hash entry.1 = hash key

/-- What a hash table finds under a key. -/
def lookupHashed (hash : κ → η) (same : κ → κ → Bool) (key : κ) (entries : List (κ × α)) :
    Option α :=
  ((bucketOf hash key entries).find? fun entry => same entry.1 key).map Prod.snd

/-- What a search through all entries finds under a key. -/
def lookupBy (same : κ → κ → Bool) (key : κ) (entries : List (κ × α)) : Option α :=
  (entries.find? fun entry => same entry.1 key).map Prod.snd

theorem lookupBy_congr {same same' : κ → κ → Bool} {key : κ}
    (hsame : ∀ other, same other key = same' other key) (entries : List (κ × α)) :
    lookupBy same key entries = lookupBy same' key entries := by
  simp only [lookupBy, hsame]

/-- A table misses nothing if no entry that equals the key has another hash. -/
theorem lookupHashed_eq {hash : κ → η} {same : κ → κ → Bool} {key : κ}
    (hhash : ∀ other, same other key = true → hash other = hash key)
    (entries : List (κ × α)) :
    lookupHashed hash same key entries = lookupBy same key entries := by
  have hbucket : (bucketOf hash key entries).find? (fun entry => same entry.1 key) =
      entries.find? fun entry => same entry.1 key := by
    rw [bucketOf, List.find?_filter]
    refine List.find?_congr ?_
    intro entry _
    cases hsame : same entry.1 key with
    | false => simp
    | true => simp [hhash entry.1 hsame]
  rw [lookupHashed, lookupBy, hbucket]

end HashTable

/-! ## Values as keys -/

namespace Value

/-- The hash of a value as a key. -/
def keyHash {η : Type} (digest : List UInt8 → η) (value : Value) : η := digest value.keyForm.feed

theorem keyHash_eq_of_keyEqual {η : Type} (digest : List UInt8 → η) {a b : Value}
    (hequal : a.keyEqual b = true) (hzero : b.isZeroFree = true) :
    a.keyHash digest = b.keyHash digest := by
  rw [keyEqual_comm] at hequal
  rw [keyHash, keyHash, feed_eq_of_keyEqual hequal hzero]

/-- A table of values misses nothing, whatever its hasher makes of the bytes. -/
theorem lookupHashed_keyHash {η α : Type} [DecidableEq η] (digest : List UInt8 → η)
    (entries : List (Value × α)) {key : Value} (hzero : key.isZeroFree = true) :
    lookupHashed (keyHash digest) keyEqual key entries = lookupBy keyEqual key entries := by
  apply lookupHashed_eq
  intro other hequal
  exact keyHash_eq_of_keyEqual digest hequal hzero

/-- Integers are equal as components of keys exactly if they are the same number, whatever their
widths. -/
theorem keyEqual_iff_of_isInteger {a b : Value} (ha : a.isInteger = true)
    (hb : b.isInteger = true) : a.keyEqual b = true ↔ a.asInteger? = b.asInteger? := by
  have hnumber : ∀ {value : Value}, value.isInteger = true → ∃ n, value.asInteger? = some n := by
    intro value hinteger
    cases value with
    | tinyInt n | smallInt n | int n | bigInt n => exact ⟨n.toInt, rfl⟩
    | _ => cases hinteger
  have hfree : a.isZeroFree = true := by
    cases a with
    | tinyInt n | smallInt n | int n | bigInt n => rfl
    | _ => cases ha
  constructor
  · intro hequal
    rw [← asInteger?_keyForm a, ← asInteger?_keyForm b, keyForm_eq_of_keyEqual hequal hfree]
  · intro hsame
    obtain ⟨n, hn⟩ := hnumber ha
    rw [keyEqual, keyForm_of_isInteger ha hn, keyForm_of_isInteger hb (hsame ▸ hn)]
    simp [equal]

/-- Lists of key forms are equal exactly if they are equally long and equal one by one. -/
theorem equalItems_map_keyForm {values others : List Value} :
    equalItems (values.map keyForm) (others.map keyForm) = true ↔
      List.Forall₂ (fun a b => a.keyEqual b = true) values others := by
  induction values generalizing others with
  | nil => cases others <;> simp [equalItems]
  | cons value values ih =>
      cases others with
      | nil => simp [equalItems]
      | cons other others =>
          rw [List.map_cons, List.map_cons, equalItems, Bool.and_eq_true, ih,
            List.forall₂_cons, keyEqual]

end Value

/-! ## Identities as keys -/

namespace IdentityKey

/-- The identity has no floating-point zero in its key values. -/
def isZeroFree (key : IdentityKey) : Bool := Value.itemsAreZeroFree key.values

/-- The same class, hash and components, for a hasher that makes a digest of what it is fed. -/
def equalBy {η : Type} [DecidableEq η] (digest : List UInt8 → η) (key other : IdentityKey) :
    Bool :=
  key.type.same other.type && decide (digest key.feed = digest other.feed) &&
    Value.equalItems key.values other.values

/-- The hash of an identity, which is made of its class and the hash of its key values. -/
def keyHash {η ζ : Type} (digest : List UInt8 → η) (mix : Nat → η → ζ) (key : IdentityKey) : ζ :=
  mix key.type.id (digest key.feed)

theorem isZeroFree_ofValues {type : EntityType} {values : List Value}
    (hzero : ∀ value ∈ values, value.isZeroFree = true) :
    (ofValues type values).isZeroFree = true := by
  rw [isZeroFree, ofValues, Value.itemsAreZeroFree_iff, List.forall_mem_map]
  intro value hvalue
  rw [Value.isZeroFree_keyForm, hzero value hvalue]

/-- Without zeros, the digests of equal components agree by themselves. -/
theorem equalBy_iff {η : Type} [DecidableEq η] (digest : List UInt8 → η)
    {key other : IdentityKey} (hzero : other.isZeroFree = true) :
    key.equalBy digest other = true ↔
      key.type.same other.type = true ∧ Value.equalItems key.values other.values = true := by
  rw [equalBy, Bool.and_eq_true, Bool.and_eq_true, decide_eq_true_eq]
  constructor
  · exact fun hequal => ⟨hequal.1.1, hequal.2⟩
  · intro hequal
    have hitems := hequal.2
    rw [Value.equalItems_comm] at hitems
    have hvalues : other.values = key.values := Value.eq_of_equalItems hitems hzero
    exact ⟨⟨hequal.1, by rw [feed, feed, hvalues]⟩, hequal.2⟩

theorem equal_eq_equalBy (key other : IdentityKey) : key.equal other = key.equalBy id other := by
  rw [equal, equalBy, Bool.beq_eq_decide_eq]
  rfl

/-- No hasher confuses identities without zeros, nor does it tell equal ones apart. -/
theorem equalBy_eq_equal {η : Type} [DecidableEq η] (digest : List UInt8 → η)
    {key other : IdentityKey} (hzero : other.isZeroFree = true) :
    key.equalBy digest other = key.equal other := by
  rw [equal_eq_equalBy, Bool.eq_iff_iff, equalBy_iff digest hzero, equalBy_iff id hzero]

theorem keyHash_eq_of_equalBy {η ζ : Type} [DecidableEq η] (digest : List UInt8 → η)
    (mix : Nat → η → ζ) {key other : IdentityKey} (hequal : key.equalBy digest other = true) :
    key.keyHash digest mix = other.keyHash digest mix := by
  rw [equalBy, Bool.and_eq_true, Bool.and_eq_true, EntityType.same, beq_iff_eq,
    decide_eq_true_eq] at hequal
  rw [keyHash, keyHash, hequal.1.1, hequal.1.2]

/-- Identities are equal exactly if their classes are the same and their components equal in key
form, one by one. -/
theorem equal_ofValues_iff {type type' : EntityType} {values values' : List Value}
    (hzero : ∀ value ∈ values', value.isZeroFree = true) :
    (ofValues type values).equal (ofValues type' values') = true ↔
      type.same type' = true ∧ List.Forall₂ (fun a b => a.keyEqual b = true) values values' := by
  rw [equal_eq_equalBy, equalBy_iff id (isZeroFree_ofValues hzero),
    ← Value.equalItems_map_keyForm]
  rfl

/-- A table of identities misses nothing, whatever its hasher makes of the bytes. -/
theorem lookupHashed_keyHash {η ζ α : Type} [DecidableEq η] [DecidableEq ζ]
    (digest : List UInt8 → η) (mix : Nat → η → ζ) (entries : List (IdentityKey × α))
    {key : IdentityKey} (hzero : key.isZeroFree = true) :
    lookupHashed (keyHash digest mix) (equalBy digest) key entries =
      lookupBy equal key entries := by
  calc
    _ = lookupBy (equalBy digest) key entries := by
      apply lookupHashed_eq
      intro other hequal
      exact keyHash_eq_of_equalBy digest mix hequal
    _ = lookupBy equal key entries := by
      apply lookupBy_congr
      intro other
      exact equalBy_eq_equal digest hzero

end IdentityKey

/-- Among values without floating-point zeros, those whose key forms are equal feed a hasher the
same bytes.  Identities are equal exactly if their classes are the same and their components are
equally many and equal in key form one by one, where integers of any widths are equal exactly if
they are the same number.  So a hash table finds under such a value or identity what a search by
equality finds, whatever its hasher makes of the bytes. -/
theorem equal_keys_hash_alike {η ζ : Type} [DecidableEq η] [DecidableEq ζ]
    (digest : List UInt8 → η) (mix : Nat → η → ζ) :
    (∀ a b : Value, a.isZeroFree = true → a.keyEqual b = true →
      a.keyForm.feed = b.keyForm.feed) ∧
    (∀ {α : Type} (entries : List (Value × α)) (key : Value), key.isZeroFree = true →
      lookupHashed (Value.keyHash digest) Value.keyEqual key entries =
          lookupBy Value.keyEqual key entries ∧
        lookupBy Value.sameEntry key entries = lookupBy Value.keyEqual key entries) ∧
    (∀ (type type' : EntityType) (values values' : List Value),
      (∀ value ∈ values', value.isZeroFree = true) →
        let key := IdentityKey.ofValues type values
        let other := IdentityKey.ofValues type' values'
        (key.equal other = true ↔ type.same type' = true ∧
          List.Forall₂ (fun a b => a.keyEqual b = true) values values') ∧
        key.equalBy digest other = key.equal other) ∧
    (∀ {α : Type} (entries : List (IdentityKey × α)) (type : EntityType) (values : List Value),
      (∀ value ∈ values, value.isZeroFree = true) →
        lookupHashed (IdentityKey.keyHash digest mix) (IdentityKey.equalBy digest)
            (IdentityKey.ofValues type values) entries =
          lookupBy IdentityKey.equal (IdentityKey.ofValues type values) entries) ∧
    ∀ a b : Value, a.isInteger = true → b.isInteger = true →
      (a.keyEqual b = true ↔ a.asInteger? = b.asInteger?) := by
  have hsearch : ∀ {α : Type} (entries : List (Value × α)) (key : Value),
      key.isZeroFree = true →
        lookupBy Value.sameEntry key entries = lookupBy Value.keyEqual key entries := by
    intro α entries key hzero
    apply lookupBy_congr
    intro other
    rw [Bool.eq_iff_iff, Value.sameEntry_iff hzero]
  exact ⟨fun a b hzero hequal => Value.feed_eq_of_keyEqual hequal hzero,
    fun entries key hzero => ⟨Value.lookupHashed_keyHash digest entries hzero,
      hsearch entries key hzero⟩,
    fun type type' values values' hzero => ⟨IdentityKey.equal_ofValues_iff hzero,
      IdentityKey.equalBy_eq_equal digest (IdentityKey.isZeroFree_ofValues hzero)⟩,
    fun entries type values hzero => IdentityKey.lookupHashed_keyHash digest mix entries
      (IdentityKey.isZeroFree_ofValues hzero),
    fun a b ha hb => Value.keyEqual_iff_of_isInteger ha hb⟩

/-- A small number is found under its widest form, by itself and as the first component of an
identity, with a hasher that counts the bytes and so tells little apart. -/
theorem five_found_under_widest_five :
    let order : EntityType := ⟨3, "shop::Order", []⟩
    let note : Value := .array [.json (.object [("size", .number (.integer 2))]), .null]
    (Value.tinyInt 5).keyForm.feed = (Value.bigInt 5).keyForm.feed ∧
      lookupHashed (Value.keyHash List.length) Value.keyEqual (.bigInt 5)
        [(.timestamp 5, "time"), (.tinyInt 5, "number")] = some "number" ∧
      (IdentityKey.ofValues order [.tinyInt 5, note]).equal
        (IdentityKey.ofValues order [.bigInt 5, note]) = true ∧
      lookupHashed (IdentityKey.keyHash List.length Nat.add) (IdentityKey.equalBy List.length)
          (.ofValues order [.bigInt 5, note])
          [(.ofValues order [.bigInt 6, note], "six"), (.ofValues order [.int 5, note], "five")] =
        some "five" ∧
      (Value.smallInt 5).keyEqual (.bigInt 6) = false := by
  intro order note
  have hfree : ∀ value ∈ [Value.bigInt 5, note], value.isZeroFree = true := by
    simp [note, Value.isZeroFree, Value.itemsAreZeroFree, Json.isZeroFree,
      Json.membersAreZeroFree, JsonNumber.isZeroFree]
  obtain ⟨hfeed, hvalue, hidentity, htable, hinteger⟩ :=
    equal_keys_hash_alike List.length Nat.add
  refine ⟨hfeed _ _ rfl (by decide), ?_, ?_, ?_, ?_⟩
  · exact (hvalue _ _ rfl).1.trans (by decide)
  · refine (hidentity order order _ _ hfree).1.mpr ⟨rfl, ?_⟩
    exact .cons (by decide) (.cons (by decide) .nil)
  · exact (htable _ order _ hfree).trans (by decide +kernel)
  · rw [Bool.eq_false_iff, ne_eq, hinteger _ _ rfl rfl]
    decide

end AggregateSync
