import AggregateSync.Connection.Interaction
import AggregateSync.Mapping.Registry
import AggregateSync.Proofs.Sql.Precedence
import AggregateSync.Proofs.Value.Plain
import Mathlib.Data.Set.Operations

/-!
# Stored rows

A database holds rows of tables, and what it holds in a column is known up to key form
only, because drivers answer with other integer widths than were stored.  The registry
is its schema: the key columns of a table are those of its class, no two rows of a table
agree in them, and where the class has a key that the database assigns, an INSERT that
leaves it out gets a new one.  UPDATE and DELETE concern the rows whose values satisfy the
condition of the statement.  `Stores` says of an environment that it is the connection
to such a database.  Nothing is assumed about when it refuses a statement.
-/

namespace AggregateSync

/-- Columns with their values in key form. -/
def inKeyForm (entries : List (String × Value)) : List (String × Value) :=
  entries.map fun entry => (entry.1, entry.2.keyForm)

/-- A row of a table, as what its columns hold in key form.  Where nothing was stored, this
is NULL. -/
structure Record where
  table : String
  cell : String → Value

namespace Record

/-- The row of a table with given values. -/
def ofEntries (table : String) (entries : List (String × Value)) : Record :=
  ⟨table, fun column => ((inKeyForm entries).lookup column).getD .null⟩

/-- The row with further values, or others in their place. -/
def assign (entries : List (String × Value)) (record : Record) : Record :=
  ⟨record.table, fun column =>
    ((inKeyForm entries).lookup column).getD (record.cell column)⟩

end Record

/-- Do two rows of a table agree in the key columns of its class?  NULL agrees with nothing. -/
def Registry.sameKey (registry : Registry) (record other : Record) : Bool :=
  record.table == other.table && registry.mappings.all fun mapping =>
    mapping.table != record.table || mapping.keys.all fun key =>
      !(record.cell key.column).isNull &&
        (record.cell key.column).keyEqual (other.cell key.column)

/-- The key that the database assigns to a new row that comes without it. -/
def ClassMapping.generatedEntries (mapping : ClassMapping) (assigned : List (String × Value))
    (id : Int64) : List (String × Value) :=
  match mapping.generatedKey? with
  | none => []
  | some key =>
    if (assigned.map Prod.fst).contains key.column then [] else [(key.column, .bigInt id)]

/-- The new row that an INSERT asks for. -/
def ClassMapping.newRecord (mapping : ClassMapping) (assigned : List (String × Value))
    (id : Int64) : Record :=
  (Record.ofEntries mapping.table assigned).assign (mapping.generatedEntries assigned id)

/-- Is there a key that the database has to assign to the new row? -/
def Registry.assignsKey (registry : Registry) (insert : Insert) : Bool :=
  registry.mappings.any fun mapping =>
    mapping.table == insert.table &&
      mapping.generatedKey?.any fun key => !insert.hasColumn key.column

/-- How a database compares values, and what fragments of the caller's own mean to it. -/
structure Engine where
  compare : BinaryOp → Value → Value → Truth
  raw : String → Record → Value

theorem Value.isBound_of_isPlain {value : Value} (hplain : value.isPlain = true) :
    value.isBound = true := by
  cases value with
  | default => cases hplain
  | _ => rfl

namespace Engine

/-- A condition is read at a row. -/
def reading (engine : Engine) (record : Record) : Reading :=
  ⟨fun _ name => record.cell name, engine.compare, fun sql => engine.raw sql record⟩

/-- Is the row one of the table that satisfies the condition, if there is one? -/
def selects (engine : Engine) (table : String) (filter : Option Expr) (record : Record) : Bool :=
  record.table == table &&
    filter.all fun condition => condition.truth (engine.reading record) = .yes

/-- The database finds rows by their values in key form: what is equal to a value that is not
NULL is what agrees with it in key form.  The constant of a relation is found where it was
stored; if it is NULL, this asks for a comparison in which NULL equals NULL. -/
structure ComparesKeys (engine : Engine) (registry : Registry) : Prop where
  equal : ∀ held sought : Value, sought.isPlain = true → sought.isNull = false →
    (engine.compare .eq held sought = .yes ↔ held.keyEqual sought = true)
  constants : ∀ mapping ∈ registry.mappings, ∀ relation ∈ mapping.relations,
    ∀ subset ∈ relation.subset, subset.value.isBound = true ∧
      engine.compare .eq subset.value.keyForm subset.value = .yes

/-- A value that stands in a cell is found there. -/
theorem ComparesKeys.finds {engine : Engine} {registry : Registry}
    (hengine : engine.ComparesKeys registry) {value cell : Value} (hplain : value.isPlain = true)
    (hpresent : value.isNull = false) (hcell : cell = value.keyForm) :
    engine.compare .eq cell value = .yes := by
  rw [hengine.equal _ _ hplain hpresent, hcell, Value.keyEqual, Value.keyForm_keyForm]
  exact Value.keyEqual_self hplain

/-- A database that compares values by their key forms, and nothing with NULL or DEFAULT. -/
def byKeyForm : Engine where
  compare op value other :=
    if value.isNull || other.isNull || !other.isBound then .unknown
    else match op with
      | .eq => if value.keyEqual other then .yes else .no
      | .ne => if value.keyEqual other then .no else .yes
      | _ => .unknown
  raw _ _ := .null

/-- Such a database finds rows by their values in key form, unless a constant is NULL. -/
theorem comparesKeys_byKeyForm {registry : Registry}
    (hconstants : ∀ mapping ∈ registry.mappings, ∀ relation ∈ mapping.relations,
      ∀ subset ∈ relation.subset,
        subset.value.isPlain = true ∧ subset.value.isNull = false) :
    byKeyForm.ComparesKeys registry := by
  have hequal : ∀ held sought : Value, sought.isPlain = true → sought.isNull = false →
      (byKeyForm.compare .eq held sought = .yes ↔ held.keyEqual sought = true) := by
    intro held sought hplain hpresent
    have hbound := Value.isBound_of_isPlain hplain
    by_cases hequal : held.keyEqual sought = true
    · have hheld : held.isNull = false := by
        rw [Value.isNull_of_keyEqual hequal, hpresent]
      simp [byKeyForm, hheld, hpresent, hbound, hequal]
    · simp only [byKeyForm, hequal]
      split <;> simp
  refine ⟨hequal, fun mapping hmapping relation hrelation subset hsubset => ?_⟩
  obtain ⟨hplain, hpresent⟩ := hconstants mapping hmapping relation hrelation subset hsubset
  refine ⟨Value.isBound_of_isPlain hplain, ?_⟩
  rw [hequal _ _ hplain hpresent, Value.keyEqual, Value.keyForm_keyForm]
  exact Value.keyEqual_self hplain

end Engine

/-- A condition that every dialect reads as its tree: it has no fragments of the caller's own,
each operand binds as tightly as its place asks, and no comparison or test stands without
brackets as an operand of another. -/
def Expr.isClear (e : Expr) : Bool := e.isRawFree && e.isGrouped && e.isUnchained

/-- A statement that changes rows. -/
inductive Command where
  | insert (insert : Insert)
  | update (update : Update)
  | delete (delete : Delete)

namespace Command

/-- The command as text with its parameters. -/
def build (dialect : Dialect) : Command → Statement
  | insert row => row.build dialect
  | update change => change.build dialect
  | delete removal => removal.build dialect

/-- Does the command say itself what it does: is its condition clear, if there is one, and
does it leave no value to the database as DEFAULT? -/
def isClear : Command → Bool
  | insert row => row.assignments.all fun entry => entry.2.isBound
  | update change =>
    (change.assignments.all fun entry => entry.2.isBound) && change.filter.all Expr.isClear
  | delete removal => removal.filter.all Expr.isClear

/-- What a command makes of the rows of a database, `id` being the key that it assigns
if it has to. -/
def Affects (engine : Engine) (registry : Registry) (id : Int64) (before after : Set Record) :
    Command → Prop
  | insert row =>
    ∀ mapping ∈ registry.mappings, mapping.table = row.table →
      (∀ other ∈ before, registry.sameKey (mapping.newRecord row.assignments id) other = false) ∧
      after = {record | record = mapping.newRecord row.assignments id ∨ record ∈ before}
  | update change =>
    after = (fun record : Record =>
      if engine.selects change.table change.filter record then record.assign change.assignments
      else record) '' before
  | delete removal =>
    after = {record ∈ before | engine.selects removal.table removal.filter record = false}

end Command

/-- The environment is the connection to a database, which holds the given rows: if it carries
out the text of a clear command successfully, it does to the rows what the command says. -/
structure Stores {ω : Type} (environment : Environment ω) (registry : Registry)
    (dialect : Dialect) (engine : Engine) (rows : ω → Set Record) : Prop where
  insert : ∀ channel (row : Insert) world assigned later, (Command.insert row).isClear = true →
    environment.answer (.insert channel (row.build dialect)) world = (.ok assigned, later) →
      ∃ id : Int64, (registry.assignsKey row = true → id ≠ 0 ∧ assigned = id.toInt) ∧
        (Command.insert row).Affects engine registry id (rows world) (rows later)
  execute : ∀ channel (command : Command) world count later, command.isClear = true →
    environment.answer (.execute channel (command.build dialect)) world = (.ok count, later) →
      ∃ id, command.Affects engine registry id (rows world) (rows later)
  begin : ∀ world later, environment.answer .begin world = (.ok (), later) →
    rows later = rows world
  commit : ∀ world later, environment.answer .commit world = (.ok (), later) →
    rows later = rows world

end AggregateSync
