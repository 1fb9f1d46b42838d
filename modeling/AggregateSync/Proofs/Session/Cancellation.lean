import AggregateSync.Proofs.Connection.Cancellation
import AggregateSync.Proofs.Session.Parts
import AggregateSync.Proofs.Session.Transaction

/-!
# Cancelled sessions

Writing asks before each statement whether it has been cancelled, so a cancellation stops it
there; a transaction is rolled back after that.  Loading never asks: it sends all its queries,
and succeeds, however early it is cancelled.
-/

namespace AggregateSync

open Interaction (Careful)

variable {registry : Registry} {dialect : Dialect}

/-! ## Writing is careful -/

section Writing

variable {channel : Channel} {snapshot : Option Entity} {options : PersistOptions}

theorem careful_execute (channel : Channel) (write : PreparedWrite) (state : Option Entity) :
    Careful true (Task.execute channel write state) :=
  Task.careful_bind (Task.careful_request _ _ state) fun _ => (Task.isQuiet_pure ()).isCareful

theorem isCareful_insertMember (change : Change) :
    (Task.insertMember registry dialect channel snapshot change).IsCareful := by
  refine Task.isCareful_checkCancelled_bind fun _ => ?_
  refine Task.careful_quiet_bind (isQuiet_currentGraph change) fun root _ => ?_
  refine Task.careful_quiet_bind (Task.isQuiet_ofResult _) fun ⟨linked, write⟩ _ => ?_
  refine Task.careful_quiet_bind (Task.isQuiet_setState _) fun _ state => ?_
  dsimp only
  split
  · refine Task.careful_bind (Task.careful_request _ _ state) fun assigned => ?_
    exact ((Task.isQuiet_ofResult _).bind fun saved => (Task.isQuiet_setState _).bind
      fun _ => Task.isQuiet_pure true).isCareful
  · exact Task.careful_bind (careful_execute channel write state)
      fun _ => (Task.isQuiet_pure true).isCareful

theorem isCareful_deleteMember (change : Change) :
    (Task.deleteMember registry dialect channel snapshot options change).IsCareful := by
  refine Task.isCareful_checkCancelled_bind fun _ => ?_
  refine Task.careful_quiet_bind Task.isQuiet_state fun current _ => ?_
  refine Task.careful_quiet_bind (Task.isQuiet_ofResult _) fun write state => ?_
  exact Task.careful_bind (careful_execute channel write state)
    fun _ => (Task.isQuiet_pure true).isCareful

theorem isCareful_updateMember (change : Change) :
    (Task.updateMember registry dialect channel snapshot options change).IsCareful := by
  refine Task.isCareful_checkCancelled_bind fun _ => ?_
  refine Task.careful_quiet_bind (isQuiet_currentGraph change) fun root _ => ?_
  refine Task.careful_quiet_bind (Task.isQuiet_ofResult _) fun ⟨linked, write?⟩ _ => ?_
  refine Task.careful_quiet_bind (Task.isQuiet_setState _) fun _ state => ?_
  cases write? with
  | none => exact ((Task.isQuiet_pure false).isCareful state).asked
  | some write =>
      exact Task.careful_bind (careful_execute channel write state)
        fun _ => (Task.isQuiet_pure true).isCareful

theorem isCareful_persist (changes : List Change) :
    (persist registry dialect channel changes snapshot options).IsCareful := by
  have hcareful := @Task.isCompositional_isCareful (Option Entity)
  exact (compositional_countEach hcareful fun change _ => isCareful_insertMember change).bind
    fun _ => (compositional_countEach hcareful fun change _ => isCareful_deleteMember change).bind
      fun _ => (compositional_countEach hcareful fun change _ => isCareful_updateMember change).bind
        fun _ => (Task.isQuiet_pure _).isCareful

/-- The ends of a transaction are no statements, and what stopped its task is what it reports. -/
theorem isCareful_inTransaction {σ α : Type} {task : Task σ α} (htask : task.IsCareful) :
    (inTransaction task).IsCareful := by
  refine fun before => .ask false .begin rfl _ fun answer => ?_
  cases answer with
  | ok =>
      refine (htask before).andThen ?_ fun reason after =>
        .ask .rollback rfl _ fun _ => .done after
      rintro ⟨outcome, after⟩
      cases outcome with
      | ok a => exact .ask false .commit rfl _ fun answer => .done false _
      | _ => exact .ask false .rollback rfl _ fun answer => .done false _
  | _ => exact .done false _

theorem isCareful_synchronize (config : SyncConfig) :
    (synchronize registry dialect config snapshot).IsCareful :=
  Task.isQuiet_state.isCareful.bind fun _ =>
    (Task.isQuiet_ofResult _).isCareful.bind fun changes =>
      (isCareful_inTransaction (isCareful_persist changes)).bind fun _ =>
        (Task.isQuiet_pure _).isCareful

end Writing

/-! ## Loading is blind -/

theorem isBlind_load (budget : Nat) (root : EntityType) (constraints : Constraints)
    (withChildren : Bool) :
    (load registry dialect budget root constraints withChildren).IsBlind :=
  compositional_load Task.isCompositional_isBlind (fun _ _ _ => Task.isBlind_request _ _) budget
    withChildren

theorem isBlind_loadGraph (budget : Nat) (root : EntityType) (constraints : Constraints)
    (withChildren : Bool) :
    (loadGraph registry dialect budget root constraints withChildren).IsBlind := by
  refine (isBlind_load budget root constraints withChildren).bind fun roots => ?_
  cases roots with
  | none => exact (Task.isQuiet_pure none).isBlind
  | some roots => exact ((Task.isQuiet_ofResult _).bind fun _ => Task.isQuiet_pure _).isBlind

theorem isBlind_fetchByKey (budget : Nat) (type : EntityType) (key : List Value)
    (withChildren : Bool) :
    (fetchByKey registry dialect budget type key withChildren).IsBlind := by
  refine (Task.isQuiet_ofResult _).isBlind.bind fun constraints => ?_
  refine (isBlind_loadGraph budget type constraints withChildren).bind fun found => ?_
  rcases found with _ | _ | ⟨first, rest⟩
  · exact (Task.isQuiet_pure none).isBlind
  · exact (Task.isQuiet_ofResult _).isBlind
  · exact (Task.isQuiet_pure _).isBlind

/-! ## What a cancellation does -/

/-- A task that goes on as though nothing were cancelled.  It heeds a cancellation only if all its
statements come before. -/
def GoesOn {ω σ α : Type} (environment : Environment ω) (task : Task σ α) : Prop :=
  ∀ state world, IgnoresCancellation environment task state world ∧
    (HeedsCancellation environment task state world ↔
      ∀ step ∈ task.steps environment state world, step.request.isStatement = true →
        environment.cancelled step.world = none)

theorem Task.IsBlind.goesOn {ω σ α : Type} {environment : Environment ω} {task : Task σ α}
    (hblind : task.IsBlind) (hkeeps : environment.KeepsCancellation) : GoesOn environment task :=
  fun state world => ⟨hblind.ignoresCancellation environment state world,
    (hblind.ignoresCancellation environment state world).heeds_iff hkeeps⟩

/-- Whenever an operation is cancelled, persisting and synchronizing send no further statement, and
report the reason if they need one.  Loading goes on, in each of its three forms. -/
theorem cancellation_stops_writes {ω : Type} (environment : Environment ω)
    (hkeeps : environment.KeepsCancellation) (registry : Registry) (dialect : Dialect) :
    (∀ channel changes snapshot options current world, HeedsCancellation environment
      (persist registry dialect channel changes snapshot options) current world) ∧
    (∀ config snapshot current world, HeedsCancellation environment
      (synchronize registry dialect config snapshot) current world) ∧
    (∀ budget root constraints withChildren, GoesOn environment
      (load registry dialect budget root constraints withChildren)) ∧
    (∀ budget root constraints withChildren, GoesOn environment
      (loadGraph registry dialect budget root constraints withChildren)) ∧
    (∀ budget type key withChildren, GoesOn environment
      (fetchByKey registry dialect budget type key withChildren)) :=
  ⟨fun _ changes _ _ current world =>
      (isCareful_persist changes).heedsCancellation hkeeps current world,
    fun config _ current world =>
      (isCareful_synchronize config).heedsCancellation hkeeps current world,
    fun budget root constraints withChildren =>
      (isBlind_load budget root constraints withChildren).goesOn hkeeps,
    fun budget root constraints withChildren =>
      (isBlind_loadGraph budget root constraints withChildren).goesOn hkeeps,
    fun budget type key withChildren =>
      (isBlind_fetchByKey budget type key withChildren).goesOn hkeeps⟩

namespace Shipping

/-- The first row that is written is the last before the user cancels. -/
def interrupted : Script := { quiet with writes := [⟨.ok none, some ⟨.user, none⟩⟩] }

/-- Rows for a load that the user has cancelled before it begins. -/
def abandoned : Script := { stocked with cancelled := some ⟨.user, none⟩ }

end Shipping

/-- An order and its two parcels are to be written.  When the user cancels during the first row,
the others are not sent, and the transaction is rolled back. -/
theorem interrupted_write_stops :
    HeedsCancellation Script.environment
      (synchronize Shipping.registry .postgres .standard none) (some Shipping.packed)
      Shipping.interrupted ∧
    ((synchronize Shipping.registry .postgres .standard none).execution Script.environment
      (some Shipping.packed) Shipping.interrupted).outcome = .cancelled ⟨.user, none⟩ ∧
    ((synchronize Shipping.registry .postgres .standard none).execution Script.environment
      (some Shipping.packed) Shipping.interrupted).requests = [.begin,
        .execute .transaction ⟨"INSERT INTO \"orders\" (\"id\") VALUES ($1)", [.bigInt 1]⟩,
        .rollback] := by
  have hheeds := (cancellation_stops_writes Script.environment Script.keepsCancellation
    Shipping.registry .postgres).2.1 .standard none (some Shipping.packed) Shipping.interrupted
  refine ⟨hheeds, ?_, rfl⟩
  exact hheeds.reported _ (@List.mem_of_getElem? _ _ 2 _ rfl) rfl _ rfl

/-- A load that is cancelled before it begins sends all its queries and succeeds. -/
theorem abandoned_load_goes_on :
    ((load Shipping.registry .sqlite 4 Shipping.order .none true).execution Script.environment ()
      Shipping.abandoned).outcome = .ok (some Shipping.stockedTrees) ∧
    ¬ HeedsCancellation Script.environment
      (load Shipping.registry .sqlite 4 Shipping.order .none true) () Shipping.abandoned := by
  refine ⟨rfl, fun hheeds => ?_⟩
  have hnone := hheeds.attentive _ (@List.mem_of_getElem? _ _ 0 _ rfl) rfl
  cases hnone

end AggregateSync
