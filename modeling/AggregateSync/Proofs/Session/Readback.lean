import AggregateSync.Proofs.Mapping.Hydration
import AggregateSync.Proofs.Session.Statements
import AggregateSync.Proofs.Value.Plain

/-!
# Rows of entities

A row that lists what an entity shows is read back as an entity that shows the same.  Columns
are found by name, so their order and the presence of others do not matter, and each type of
field reads its own values as they are: narrow integers, floats that are not numbers, absent
options and JSON documents that are `null` among them.
-/

namespace AggregateSync

namespace Row

variable {row : Row} {entries extra : List (String × Value)} {entry : String × Value}

/-- A row with an arrangement of entries under different names, and of others under other names,
shows each of them. -/
theorem value?_of_entries (hlength : row.columns.length ≤ row.values.length)
    (hentries : row.entries.Perm (entries ++ extra)) (hdistinct : (entries.map Prod.fst).Nodup)
    (hextra : ∀ other ∈ extra, other.1 ∉ entries.map Prod.fst) (hentry : entry ∈ entries) :
    row.value? entry.1 = some entry.2 := by
  have hcolumn : entry.1 ∈ row.columns :=
    (List.of_mem_zip (hentries.mem_iff.2 (List.mem_append_left extra hentry))).1
  refine value?_eq_of_forall hcolumn fun index hindex => ?_
  obtain ⟨hbound, hname⟩ := List.getElem?_eq_some_iff.1 hindex
  have hvalues : index < row.values.length := Nat.lt_of_lt_of_le hbound hlength
  -- What stands at the index is one of the entries, and only one has the name.
  have hpair : (entry.1, row.values[index]) ∈ row.entries := by
    have hzip : index < (row.columns.zip row.values).length := by
      rw [List.length_zip]
      exact Nat.lt_min.2 ⟨hbound, hvalues⟩
    have hstands := List.getElem_mem hzip
    rwa [List.getElem_zip, hname] at hstands
  rw [List.getElem?_eq_getElem hvalues, Option.some.injEq]
  obtain hlisted | hother := List.mem_append.1 (hentries.mem_iff.1 hpair)
  · exact congrArg Prod.snd (List.inj_on_of_nodup_map hdistinct hlisted hentry rfl)
  · exact absurd (List.mem_map_of_mem hentry) (hextra (entry.1, row.values[index]) hother)

end Row

namespace ClassMapping

variable {mapping : ClassMapping} {row : Row} {e start : Entity}

/-- Filling in values that an entity shows makes the filled fields show the same, and leaves the
other fields alone. -/
theorem fill_readings (hsame : start.type.same mapping.type = true) {properties : List Property}
    (hshows : ∀ property ∈ properties,
      row.value? property.column = some (e.read property.field)) :
    ∃ filled, mapping.fill row properties start = .ok filled ∧
      ∀ field, filled.read field =
        if field ∈ properties.map Property.field then e.read field else start.read field := by
  induction properties generalizing start with
  | nil => exact ⟨start, rfl, fun field => (if_neg List.not_mem_nil).symm⟩
  | cons property rest ih =>
      obtain ⟨hfirst, hrest⟩ := List.forall_mem_cons.1 hshows
      have hholds := e.holds_read property.field
      have hset := (set_eq_ok hsame).2 ⟨_, FieldType.read_self hholds, rfl⟩
      have hwritten := Entity.type_write start property.field (e.read property.field)
      obtain ⟨filled, hfilled, hreads⟩ := ih (by rwa [hwritten]) hrest
      refine ⟨filled, ?_, fun field => ?_⟩
      · rw [fill, hfirst]
        simpa only [hset, Result.ok_bind] using hfilled
      · simp only [hreads field, List.map_cons, List.mem_cons]
        by_cases hlater : field ∈ rest.map Property.field
        · rw [if_pos hlater, if_pos (.inr hlater)]
        · rw [if_neg hlater]
          by_cases hfield : field = property.field
          · rw [if_pos (.inl hfield), hfield, Entity.read_write hholds]
          · rw [if_neg fun h => h.elim hfield hlater, Entity.read_write_of_ne hfield]

/-- A row that shows what an entity shows in its mapped columns is read as such an entity. -/
theorem hydrate_readings (hshows : ∀ property ∈ mapping.columns,
      row.value? property.column = some (e.read property.field)) :
    ∃ hydrated, mapping.hydrate row = .ok hydrated ∧
      ∀ property ∈ mapping.columns, hydrated.read property.field = e.read property.field := by
  have hnew : mapping.instantiate.type.same mapping.type = true :=
    beq_self_eq_true mapping.type.id
  obtain ⟨hydrated, hhydrate, hreads⟩ := fill_readings hnew hshows
  refine ⟨hydrated, hhydrate, fun property hproperty => ?_⟩
  rw [hreads, if_pos (List.mem_map_of_mem hproperty)]

/-- Hydration undoes reading: a row that lists the mapped columns of an entity with its values,
in any order and among others, gives an entity whose properties all have the values that they
had. -/
theorem hydrate_reads_back {extra : List (String × Value)}
    (hdistinct : (mapping.columns.map Property.column).Nodup)
    (hsame : e.type.same mapping.type = true)
    (hlength : row.columns.length ≤ row.values.length)
    (hentries : row.entries.Perm (entries e mapping.columns ++ extra))
    (hextra : ∀ entry ∈ extra, entry.1 ∉ mapping.columns.map Property.column) :
    ∃ hydrated, mapping.hydrate row = .ok hydrated ∧
      ∀ property ∈ mapping.columns, ∃ value,
        mapping.get property e = .ok value ∧ mapping.get property hydrated = .ok value := by
  have hnames : (entries e mapping.columns).map Prod.fst = mapping.columns.map Property.column :=
    List.map_map ..
  have hshows : ∀ property ∈ mapping.columns,
      row.value? property.column = some (e.read property.field) := by
    intro property hproperty
    have hentry : (property.column, e.read property.field) ∈ entries e mapping.columns :=
      List.mem_map_of_mem hproperty
    exact Row.value?_of_entries hlength hentries (hnames ▸ hdistinct) (hnames ▸ hextra) hentry
  obtain ⟨hydrated, hhydrate, hreads⟩ := hydrate_readings hshows
  have hclass : hydrated.type.same mapping.type = true := by
    rw [type_of_hydrate hhydrate]
    exact beq_self_eq_true mapping.type.id
  refine ⟨hydrated, hhydrate, fun property hproperty => ⟨_, get_of_same hsame, ?_⟩⟩
  rw [get_of_same hclass, hreads property hproperty]

end ClassMapping

namespace Shipping

def scaleField : Field := ⟨0, "scale", .tinyInt⟩

def gramsField : Field := ⟨1, "grams", .float⟩

def sealField : Field := ⟨2, "seal", .optional .int⟩

def labelField : Field := ⟨3, "label", .json⟩

def weight : EntityType := ⟨5, "Weight", [scaleField, gramsField, sealField, labelField]⟩

/-- What the scales say of a parcel. -/
def weights : ClassMapping where
  type := weight
  table := "weights"
  keys := [.key "scale" scaleField]
  properties := [.plain "grams" gramsField, .plain "seal" sealField, .readOnly "label" labelField]
  relations := []
  initialFields := [(sealField, .int 7)]
  initialMembers := []
  sound := rfl

/-- A weight that was not taken, without seal or label. -/
def untaken : Entity :=
  .mk weight [(scaleField, .tinyInt (-3)), (gramsField, .float (.nan false)), (sealField, .null),
    (labelField, .json .null)] []

/-- Its row, in another order and with the time of day. -/
def untakenRow : Row :=
  ⟨["at", "label", "seal", "grams", "scale"],
    [.text "09:00", .json .null, .null, .float (.nan false), .tinyInt (-3)]⟩

end Shipping

theorem untaken_reads_back :
    ∃ hydrated, Shipping.weights.hydrate Shipping.untakenRow = .ok hydrated ∧
      ∀ property ∈ Shipping.weights.columns, ∃ value,
        Shipping.weights.get property Shipping.untaken = .ok value ∧
          Shipping.weights.get property hydrated = .ok value := by
  have hentries := List.reverse_perm
    (ClassMapping.entries Shipping.untaken Shipping.weights.columns ++ [("at", .text "09:00")])
  exact @ClassMapping.hydrate_reads_back Shipping.weights Shipping.untakenRow _ _ (by decide) rfl
    (by decide) hentries (by decide)

end AggregateSync
