import AggregateSync.Proofs.Connection.FailStop
import AggregateSync.Proofs.Session.Order
import AggregateSync.Proofs.Session.Queries

/-!
# Sessions that stop at a failure

Loading and writing end with the first statement that fails.  The error names that statement with
its parameters and the class whose rows it reads or writes, and has the error of the database as
its source; a cancellation or a panic is passed on.
-/

namespace AggregateSync

/-- The query with a number in a run of loading reads rows of a class: it is what comes next when
the earlier ones were answered as they are in this run. -/
def LoadReads {ω : Type} (environment : Environment ω) (registry : Registry) (dialect : Dialect)
    (root : EntityType) (constraints : Constraints) (world : ω) (number : Nat)
    (type : EntityType) (statement : Statement) : Prop :=
  ReadsClass registry dialect root constraints type statement ∧
    ∃ earlier later, Answers environment world earlier later ∧ earlier.length = number ∧
      ReadsNext registry dialect root constraints earlier type statement

/-- The error of a load whose query failed with an error, the query reading rows of some class. -/
inductive ReportsQuery (reads : EntityType → Statement → Prop) : Request → Error → Error → Prop
  | statement {type : EntityType} {statement : Statement} (hreads : reads type statement)
      (source : Error) :
      ReportsQuery reads (.query .connection statement) source
        (.statement statement.sql statement.params (some type.name) none source)

/-- The error of a run of writing whose statement failed with an error. -/
inductive ReportsWrite (registry : Registry) (dialect : Dialect) (channel : Channel)
    (changes : List Change) (snapshot : Option Entity) (options : PersistOptions) :
    Request → Error → Error → Prop
  | statement {change : Change} {mapping : ClassMapping} {write : PreparedWrite}
      (hchange : change ∈ changes) (hmapping : registry.find? change.type.id = some mapping)
      (hprepares : change.Prepares registry dialect snapshot options write)
      (hwrites : WritesTable dialect mapping.table change.state write.statement)
      (source : Error) :
      ReportsWrite registry dialect channel changes snapshot options (write.request channel)
        source (.statement write.statement.sql write.statement.params (some mapping.type.name)
          (some write.entity) source)

section Sessions

variable {registry : Registry} {dialect : Dialect} {channel : Channel} {changes : List Change}
  {snapshot : Option Entity} {options : PersistOptions}

theorem isFailStop_load {root : EntityType} {constraints : Constraints} (budget : Nat)
    (withChildren : Bool) :
    (load registry dialect budget root constraints withChildren).IsFailStop
      (ReportsQuery (ReadsClass registry dialect root constraints)) :=
  compositional_load (Task.isCompositional_isFailStop _)
    (fun _ _ hreads => Task.isFailStop_request _ (.statement hreads)) budget withChildren

/-- A failed write is reported with the class of its change. -/
theorem reportsWrite_failure {change : Change} {write : PreparedWrite} (hchange : change ∈ changes)
    (hprepares : change.Prepares registry dialect snapshot options write) (source : Error) :
    ReportsWrite registry dialect channel changes snapshot options (write.request channel) source
      (write.failure source) := by
  obtain ⟨mapping, hmapping, htype, hwrites⟩ := hprepares.writes
  rw [PreparedWrite.failure, htype]
  exact .statement hchange hmapping hprepares hwrites source

theorem isFailStop_persist :
    (persist registry dialect channel changes snapshot options).IsFailStop
      (ReportsWrite registry dialect channel changes snapshot options) :=
  compositional_persist (Task.isCompositional_isFailStop _) Task.isFailStop_checkCancelled
    fun _ hchange _ hprepares =>
      Task.isFailStop_request _ (reportsWrite_failure hchange hprepares)

end Sessions

/-! ## Which query fails -/

section Queries

variable {ω : Type} {environment : Environment ω} {registry : Registry} {dialect : Dialect}

/-- A query that is reported with some class, and by another account with a class that it reads, is
reported with the latter. -/
theorem reportsQuery_of_named {α β γ : Type} {reads others : EntityType → Statement → Prop}
    {request : Request} {answer : Outcome α} {other : Outcome β} {outcome : Outcome γ}
    (hreported : answer.ReportedBy (ReportsQuery others request) outcome) {type : EntityType}
    {statement : Statement} (hreads : reads type statement)
    (hnamed : other.ReportedBy (fun source reported => reported =
      .statement statement.sql statement.params (some type.name) none source) outcome) :
    answer.ReportedBy (ReportsQuery reads request) outcome := by
  cases hreported with
  | err hreports =>
      cases hreports with
      | @statement _ asked _ =>
          cases hnamed with
          | err hsame =>
              obtain ⟨hsql, hparams, hname, -, -⟩ := Error.statement.inj hsame
              obtain rfl : asked = statement := by
                cases asked
                cases statement
                exact congr (congrArg Statement.mk hsql) hparams
              rw [hname]
              exact .err (.statement hreads _)
  | cancelled reason => exact .cancelled reason
  | panicked detail => exact .panicked detail

/-- A query of a load that fails with an error is reported with the class whose rows it was to
read. -/
theorem load_reportsQuery (budget : Nat) (root : EntityType) (constraints : Constraints)
    (withChildren : Bool) (world : ω) :
    StopsAtFailure (fun number =>
      ReportsQuery (LoadReads environment registry dialect root constraints world number))
      environment (load registry dialect budget root constraints withChildren) () world := by
  intro k step hstep hfails
  obtain ⟨hlength, hreported⟩ :=
    (isFailStop_load budget withChildren).stopsAtFailure environment () world k step hstep hfails
  refine ⟨hlength, ?_⟩
  have hasked := @askedUntil_load ω environment registry dialect budget root constraints
    withChildren world
  rw [Task.steps_eq_replay] at hstep
  cases hasked with
  | answered hanswers hrequests =>
      rw [hrequests] at hstep
      exact (hanswers.answered hstep hfails).elim
  | @failed earlier later type statement hanswers hnext hrequests hnamed =>
      have hnumber : earlier.length = k := by
        rw [hrequests, queries, List.length_append, List.length_map] at hlength
        exact Nat.succ.inj hlength
      have hreads := (⟨hnext.readsClass, earlier, later, hanswers, hnumber, hnext⟩ :
        LoadReads environment registry dialect root constraints world k type statement)
      exact reportsQuery_of_named hreported hreads hnamed

end Queries

/-- Whatever the answers are, a load and a run of writing end with the first statement that
fails.  If it fails with an error, that error is reported once, in one with the text and the
parameters of the statement and the name of the class that it reads or writes; a cancellation or
a panic is the outcome as it is. -/
theorem failures_stop_sessions {ω : Type} (environment : Environment ω) (registry : Registry)
    (dialect : Dialect) :
    (∀ budget root constraints withChildren world, StopsAtFailure
      (fun number =>
        ReportsQuery (LoadReads environment registry dialect root constraints world number))
      environment (load registry dialect budget root constraints withChildren) () world) ∧
    (∀ channel changes snapshot options current world, StopsAtFailure
      (fun _ => ReportsWrite registry dialect channel changes snapshot options) environment
      (persist registry dialect channel changes snapshot options) current world) :=
  ⟨load_reportsQuery, fun _ _ _ _ => isFailStop_persist.stopsAtFailure _⟩

namespace Shipping

/-- The error of a database that refuses a statement. -/
def refusal : Error := .query "refused" none none none

/-- A database with an order, which refuses the query for its parcels. -/
def guarded : Script :=
  { stocked with queries := [⟨.ok [orderRow 1], none⟩, ⟨.err refusal, none⟩] }

/-- A database that gives a parcel its key and refuses the item in it. -/
def full : Script := { quiet with writes := [⟨.ok (some 7), none⟩, ⟨.err refusal, none⟩] }

/-- What is written of `exchanged`. -/
def exchangeChanges : List Change :=
  (registry.compare (some packed) (some exchanged) fun _ _ => true).toOption.getD []

def refusedQuery : Statement :=
  ⟨"SELECT \"id\", \"parent_id\" FROM \"parcels\" WHERE \"parent_id\" IN ($1)", [.bigInt 1]⟩

def refusedInsert : Statement :=
  ⟨"INSERT INTO \"items\" (\"parent_id\") VALUES ($1)", [.bigInt 7]⟩

end Shipping

/-- The second statement of a load and of a run of writing is refused.  It is the last one, and
the error names it with its class. -/
theorem refused_statements_stop :
    ∃ loading writing,
      (load Shipping.registry .postgres 4 Shipping.order .none true).execution Script.environment
        () Shipping.guarded = loading ∧
      (persist Shipping.registry .postgres .transaction Shipping.exchangeChanges
        (some Shipping.packed) .standard).execution Script.environment (some Shipping.exchanged)
        Shipping.full = writing ∧
      (loading.requests.length = 2 ∧ (Outcome.err Shipping.refusal : Outcome (List Row)).ReportedBy
        (ReportsQuery (LoadReads Script.environment Shipping.registry .postgres Shipping.order
          .none Shipping.guarded 1) (.query .connection Shipping.refusedQuery))
        loading.outcome) ∧
      (writing.requests.length = 2 ∧ (Outcome.err Shipping.refusal : Outcome Int).ReportedBy
        (ReportsWrite Shipping.registry .postgres .transaction Shipping.exchangeChanges
          (some Shipping.packed) .standard (.insert .transaction Shipping.refusedInsert))
        writing.outcome) ∧
      loading.outcome = .err (.statement Shipping.refusedQuery.sql [.bigInt 1] (some "Parcel")
        none Shipping.refusal) ∧
      ∃ item, writing.outcome = .err (.statement Shipping.refusedInsert.sql [.bigInt 7]
        (some "Item") (some item) Shipping.refusal) := by
  obtain ⟨hload, hpersist⟩ :=
    failures_stop_sessions Script.environment Shipping.registry .postgres
  refine ⟨_, _, rfl, rfl, ?_, ?_, rfl, _, rfl⟩
  · exact hload 4 Shipping.order .none true Shipping.guarded 1 ⟨_, _⟩ rfl nofun
  · exact hpersist .transaction Shipping.exchangeChanges (some Shipping.packed) .standard
      (some Shipping.exchanged) Shipping.full 1 ⟨_, _⟩ rfl nofun

end AggregateSync
