import AggregateSync.Connection.Script
import AggregateSync.Proofs.Connection.Composition
import AggregateSync.Proofs.Connection.Steps

/-!
# Cancellation

An operation can be cancelled while any request is under way, and learns of it only if it asks.
An interaction is careful if it asks before every statement, after all that came before, and
once it has heard of a cancellation sends no statement and reports the reason.  A careful
interaction stops before the next statement, whenever the cancellation comes.  One that never
asks runs as though there were none.
-/

namespace AggregateSync

/-- Is the request a statement?  The ends of a transaction are none. -/
def Request.isStatement : Request → Bool
  | query _ _ | execute _ _ | insert _ _ => true
  | begin | commit | rollback => false

namespace Environment

variable {ω : Type}

/-- The environment in which nothing is ever cancelled, with the same answers. -/
def uncancelled (environment : Environment ω) : Environment ω :=
  { environment with cancelled := fun _ => none }

/-- What has been cancelled stays so, for the reason that was first given. -/
def KeepsCancellation (environment : Environment ω) : Prop :=
  ∀ request world reason, environment.cancelled world = some reason →
    environment.cancelled (environment.answer request world).2 = some reason

end Environment

/-- A run stops before the next statement after a cancellation.  What is needed is known from the
run in which nothing is cancelled. -/
structure HeedsCancellation {ω σ α : Type} (environment : Environment ω) (task : Task σ α)
    (state : σ) (world : ω) : Prop where
  /-- No statement is sent while the operation is cancelled. -/
  attentive : ∀ step ∈ task.steps environment state world, step.request.isStatement = true →
    environment.cancelled step.world = none
  /-- No statement is sent after a request during which the operation was cancelled. -/
  final : ∀ earlier step later, task.steps environment state world = earlier ++ step :: later →
    environment.cancelled (step.after environment) ≠ none →
    ∀ other ∈ later, other.request.isStatement = false
  /-- If a statement is needed when the operation is cancelled, the reason is reported. -/
  reported : ∀ step ∈ task.steps environment.uncancelled state world,
    step.request.isStatement = true → ∀ reason, environment.cancelled step.world = some reason →
      (task.execution environment state world).outcome = .cancelled reason

/-- A run is the one in which nothing is cancelled. -/
structure IgnoresCancellation {ω σ α : Type} (environment : Environment ω) (task : Task σ α)
    (state : σ) (world : ω) : Prop where
  execution : task.execution environment state world =
    task.execution environment.uncancelled state world
  steps : task.steps environment state world = task.steps environment.uncancelled state world

namespace Interaction

variable {σ ω α β : Type}

/-- Sends no statement and ends in a cancellation. -/
inductive Stops (reason : CancelReason) : Interaction (Outcome α × σ) → Prop
  | done (state : σ) : Stops reason (done (.cancelled reason, state))
  | ask (r : Request) (hr : r.isStatement = false)
      (next : Outcome r.Answer → Interaction (Outcome α × σ))
      (hnext : ∀ answer, Stops reason (next answer)) : Stops reason (ask r next)

/-- Asks whether it has been cancelled before every statement, unless it has `asked` already
since the last request, and stops if so. -/
inductive Careful : Bool → Interaction (Outcome α × σ) → Prop
  | done (asked : Bool) (result : Outcome α × σ) : Careful asked (done result)
  | statement (r : Request) (next : Outcome r.Answer → Interaction (Outcome α × σ))
      (hnext : ∀ answer, Careful false (next answer)) : Careful true (ask r next)
  | ask (asked : Bool) (r : Request) (hr : r.isStatement = false)
      (next : Outcome r.Answer → Interaction (Outcome α × σ))
      (hnext : ∀ answer, Careful false (next answer)) : Careful asked (ask r next)
  | poll (asked : Bool) (next : Option CancelReason → Interaction (Outcome α × σ))
      (hsome : ∀ reason, Stops reason (next (some reason)))
      (hnone : Careful true (next none)) : Careful asked (poll next)

/-- Never asks whether it has been cancelled. -/
inductive Blind : Interaction α → Prop
  | done (a : α) : Blind (done a)
  | ask (r : Request) (next : Outcome r.Answer → Interaction α)
      (hnext : ∀ answer, Blind (next answer)) : Blind (ask r next)

/-! ## Chains -/

theorem Stops.andThen {reason : CancelReason} {first : Interaction (Outcome α × σ)}
    {next : Outcome α × σ → Interaction (Outcome β × σ)} (hfirst : Stops reason first)
    (hnext : ∀ state, Stops reason (next (.cancelled reason, state))) :
    Stops reason (first.andThen next) := by
  induction hfirst with
  | done state => exact hnext state
  | ask r hr rest _ ih => exact .ask r hr _ ih

theorem Careful.asked {asked : Bool} {interaction : Interaction (Outcome α × σ)}
    (hcareful : Careful false interaction) : Careful asked interaction := by
  cases hcareful with
  | done _ result => exact .done asked result
  | ask _ r hr next hnext => exact .ask asked r hr next hnext
  | poll _ next hsome hnone => exact .poll asked next hsome hnone

theorem Careful.andThen {asked : Bool} {first : Interaction (Outcome α × σ)}
    {next : Outcome α × σ → Interaction (Outcome β × σ)} (hfirst : Careful asked first)
    (hnext : ∀ result, Careful false (next result))
    (hstops : ∀ reason state, Stops reason (next (.cancelled reason, state))) :
    Careful asked (first.andThen next) := by
  induction hfirst with
  | done _ result => exact (hnext result).asked
  | statement r rest _ ih => exact .statement r _ ih
  | ask _ r hr rest _ ih => exact .ask _ r hr _ ih
  | poll _ rest hsome _ ih =>
      exact .poll _ _ (fun reason => (hsome reason).andThen (hstops reason)) ih

theorem Blind.andThen {first : Interaction α} {next : α → Interaction β} (hfirst : Blind first)
    (hnext : ∀ a, Blind (next a)) : Blind (first.andThen next) := by
  induction hfirst with
  | done a => exact hnext a
  | ask r rest _ ih => exact .ask r _ ih

/-! ## What careful interactions do -/

section Runs

variable {environment : Environment ω} {interaction : Interaction (Outcome α × σ)} {world : ω}

theorem Stops.outcome_eq {reason : CancelReason} (hstops : Stops reason interaction) :
    (interaction.run environment world).1.1 = .cancelled reason := by
  induction hstops generalizing world with
  | done state => rfl
  | ask r _ next _ ih => exact ih _

theorem Stops.not_isStatement {reason : CancelReason} (hstops : Stops reason interaction) :
    ∀ step ∈ interaction.steps environment world, step.request.isStatement = false := by
  induction hstops generalizing world with
  | done state => simp [steps]
  | ask r hr next _ ih => exact List.forall_mem_cons.2 ⟨hr, ih _⟩

/-- A cancellation is seen by all that comes later, also in the run without it. -/
theorem cancelled_of_mem_steps (hkeeps : environment.KeepsCancellation)
    (poll : ω → Option CancelReason) {interaction : Interaction α} {reason : CancelReason}
    (hcancelled : environment.cancelled world = some reason) :
    ∀ step ∈ interaction.steps { environment with cancelled := poll } world,
      environment.cancelled step.world = some reason := by
  induction interaction generalizing world with
  | done a => simp [steps]
  | ask r next ih =>
      exact List.forall_mem_cons.2 ⟨hcancelled, ih _ (hkeeps r world reason hcancelled)⟩
  | poll next ih => exact ih _ hcancelled

/-- A careful interaction sends no statement while it is cancelled, and if one is needed then, it
reports the reason. -/
theorem Careful.heeds {asked : Bool} (hcareful : Careful asked interaction)
    (hkeeps : environment.KeepsCancellation) (world : ω)
    (hasked : asked = true → environment.cancelled world = none) :
    (∀ step ∈ interaction.steps environment world, step.request.isStatement = true →
      environment.cancelled step.world = none) ∧
    (∀ step ∈ interaction.steps environment.uncancelled world,
      step.request.isStatement = true → ∀ reason, environment.cancelled step.world = some reason →
        (interaction.run environment world).1.1 = .cancelled reason) := by
  induction hcareful generalizing world with
  | done _ result => exact ⟨by simp [steps], by simp [steps]⟩
  | statement r next _ ih =>
      obtain ⟨hattentive, hreported⟩ :=
        ih (environment.answer r world).1 (environment.answer r world).2
          fun hasked => absurd hasked Bool.false_ne_true
      refine ⟨List.forall_mem_cons.2 ⟨fun _ => hasked rfl, hattentive⟩,
        List.forall_mem_cons.2 ⟨fun _ reason hcancelled => ?_, hreported⟩⟩
      rw [hasked rfl] at hcancelled
      cases hcancelled
  | ask _ r hr next _ ih =>
      obtain ⟨hattentive, hreported⟩ :=
        ih (environment.answer r world).1 (environment.answer r world).2
          fun hasked => absurd hasked Bool.false_ne_true
      refine ⟨List.forall_mem_cons.2 ⟨fun hstatement => ?_, hattentive⟩,
        List.forall_mem_cons.2 ⟨fun hstatement => ?_, hreported⟩⟩
      all_goals
        rw [hr] at hstatement
        cases hstatement
  | poll _ next hsome _ ih =>
      cases hcancelled : environment.cancelled world with
      | none =>
          rw [steps, run, hcancelled]
          exact ih world fun _ => hcancelled
      | some reason =>
          rw [steps, run, hcancelled]
          refine ⟨fun step hstep hstatement => ?_, fun step hstep _ reason' hreason => ?_⟩
          · rw [(hsome reason).not_isStatement step hstep] at hstatement
            cases hstatement
          · -- the cancellation that the next statement would have met is this one
            have hsame := cancelled_of_mem_steps hkeeps (fun _ => none) hcancelled step hstep
            rw [hreason] at hsame
            rw [Option.some.inj hsame]
            exact (hsome reason).outcome_eq

theorem Blind.run_eq {interaction : Interaction α} (hblind : Blind interaction) :
    interaction.run environment world = interaction.run environment.uncancelled world := by
  induction hblind generalizing world with
  | done a => rfl
  | ask r next _ ih => exact ih _

theorem Blind.steps_eq {interaction : Interaction α} (hblind : Blind interaction) :
    interaction.steps environment world = interaction.steps environment.uncancelled world := by
  induction hblind generalizing world with
  | done a => rfl
  | ask r next _ ih => exact congrArg (_ :: ·) (ih _)

end Runs

end Interaction

namespace Task

open Interaction (Careful Stops Blind)

variable {σ ω α β : Type}

/-! ## Careful tasks -/

/-- The task is careful from every state. -/
def IsCareful (task : Task σ α) : Prop := ∀ state, Careful false (task state)

theorem IsQuiet.isCareful {task : Task σ α} (hquiet : task.IsQuiet) : task.IsCareful := by
  intro state
  obtain ⟨result, hresult⟩ := hquiet state
  rw [hresult]
  exact .done false result

theorem careful_bind {asked : Bool} {first : Task σ α} {next : α → Task σ β} {state : σ}
    (hfirst : Careful asked (first state)) (hnext : ∀ a, (next a).IsCareful) :
    Careful asked ((first >>= next) state) := by
  refine hfirst.andThen ?_ fun reason after => .done after
  rintro ⟨outcome, after⟩
  cases outcome with
  | ok a => exact hnext a after
  | _ => exact .done false _

theorem IsCareful.bind {first : Task σ α} {next : α → Task σ β} (hfirst : first.IsCareful)
    (hnext : ∀ a, (next a).IsCareful) : (first >>= next).IsCareful :=
  fun state => careful_bind (hfirst state) hnext

theorem isCompositional_isCareful : IsCompositional fun {_} (task : Task σ _) => task.IsCareful :=
  ⟨IsQuiet.isCareful, IsCareful.bind⟩

/-- Who has asked may go on as one who has. -/
theorem isCareful_checkCancelled_bind {next : Unit → Task σ α}
    (hnext : ∀ state, Careful true (next () state)) : (checkCancelled >>= next).IsCareful :=
  fun state => .poll false _ (fun _ => .done state) (hnext state)

/-- What makes no request leaves no time for a cancellation. -/
theorem careful_quiet_bind {first : Task σ α} {next : α → Task σ β} {state : σ}
    (hfirst : first.IsQuiet) (hnext : ∀ a state, Careful true (next a state)) :
    Careful true ((first >>= next) state) := by
  change Careful true (first.andThen next state)
  obtain ⟨⟨outcome, after⟩, hresult⟩ := hfirst state
  rw [andThen, hresult]
  cases outcome with
  | ok a => exact hnext a after
  | _ => exact .done true _

theorem careful_request (r : Request) (wrap : Error → Error) (state : σ) :
    Careful true ((request r wrap : Task σ r.Answer) state) :=
  .statement r _ fun _ => .done false _

/-- Where no statement is sent while the operation is cancelled, none is sent after that. -/
theorem not_isStatement_of_attentive {task : Task σ α} {environment : Environment ω}
    (hkeeps : environment.KeepsCancellation) {state : σ} {world : ω}
    (hattentive : ∀ step ∈ task.steps environment state world,
      step.request.isStatement = true → environment.cancelled step.world = none)
    {earlier later : List (Step ω)} {step : Step ω}
    (hsteps : task.steps environment state world = earlier ++ step :: later)
    (hcancelled : environment.cancelled (step.after environment) ≠ none) :
    ∀ other ∈ later, other.request.isStatement = false := by
  intro other hother
  obtain ⟨reason, hreason⟩ := Option.ne_none_iff_exists'.1 hcancelled
  obtain ⟨rest, rfl⟩ := Interaction.exists_rest_of_steps hsteps
  have hseen := Interaction.cancelled_of_mem_steps hkeeps environment.cancelled hreason other hother
  have hmem : other ∈ task.steps environment state world := by
    rw [hsteps]
    exact List.mem_append_right _ (List.mem_cons_of_mem _ hother)
  by_contra hstatement
  rw [hattentive other hmem (by simpa using hstatement)] at hseen
  cases hseen

/-- A careful task stops before the next statement. -/
theorem IsCareful.heedsCancellation {task : Task σ α} (hcareful : task.IsCareful)
    {environment : Environment ω} (hkeeps : environment.KeepsCancellation) (state : σ) (world : ω) :
    HeedsCancellation environment task state world := by
  obtain ⟨hattentive, hreported⟩ := (hcareful state).heeds hkeeps world nofun
  exact ⟨hattentive, fun _ _ _ => not_isStatement_of_attentive hkeeps hattentive, hreported⟩

/-! ## Blind tasks -/

/-- The task never asks whether it has been cancelled. -/
def IsBlind (task : Task σ α) : Prop := ∀ state, Blind (task state)

theorem IsBlind.bind {first : Task σ α} {next : α → Task σ β} (hfirst : first.IsBlind)
    (hnext : ∀ a, (next a).IsBlind) : (first >>= next).IsBlind := by
  refine fun state => (hfirst state).andThen ?_
  rintro ⟨outcome, after⟩
  cases outcome with
  | ok a => exact hnext a after
  | _ => exact .done _

theorem IsQuiet.isBlind {task : Task σ α} (hquiet : task.IsQuiet) : task.IsBlind := by
  intro state
  obtain ⟨result, hresult⟩ := hquiet state
  rw [hresult]
  exact .done result

theorem isCompositional_isBlind : IsCompositional fun {_} (task : Task σ _) => task.IsBlind :=
  ⟨IsQuiet.isBlind, IsBlind.bind⟩

theorem isBlind_request (r : Request) (wrap : Error → Error) :
    (request r wrap : Task σ r.Answer).IsBlind := fun _ => .ask r _ fun _ => .done _

theorem IsBlind.ignoresCancellation {task : Task σ α} (hblind : task.IsBlind)
    (environment : Environment ω) (state : σ) (world : ω) :
    IgnoresCancellation environment task state world := by
  have hsteps : task.steps environment state world =
      task.steps environment.uncancelled state world := (hblind state).steps_eq
  refine ⟨?_, hsteps⟩
  have hrequests := congrArg (List.map Step.request) hsteps
  rw [map_request_steps, map_request_steps] at hrequests
  rw [execution, (hblind state).run_eq]
  exact congrArg (Execution.mk _ _ _) hrequests

end Task

/-- Who ignores cancellation heeds one only by being done with statements. -/
theorem IgnoresCancellation.heeds_iff {ω σ α : Type} {environment : Environment ω}
    {task : Task σ α} {state : σ} {world : ω} (hkeeps : environment.KeepsCancellation)
    (hignores : IgnoresCancellation environment task state world) :
    HeedsCancellation environment task state world ↔
      ∀ step ∈ task.steps environment state world, step.request.isStatement = true →
        environment.cancelled step.world = none := by
  refine ⟨HeedsCancellation.attentive, fun hattentive => ⟨hattentive,
    fun _ _ _ => Task.not_isStatement_of_attentive hkeeps hattentive,
    fun step hstep hstatement reason hcancelled => ?_⟩⟩
  rw [← hignores.steps] at hstep
  rw [hattentive step hstep hstatement] at hcancelled
  cases hcancelled

/-! ## Scripts -/

namespace Script

variable {script : Script} {reason : CancelReason}

theorem cancelled_nextRows (hcancelled : script.cancelled = some reason) :
    script.nextRows.2.cancelled = some reason := by
  rw [nextRows]
  split
  · exact hcancelled
  · rw [cancelling, hcancelled, Option.some_or]

theorem cancelled_nextNumber (hcancelled : script.cancelled = some reason) (usual : Nat → Int) :
    (script.nextNumber usual).2.cancelled = some reason := by
  rw [nextNumber]
  split
  · exact hcancelled
  · rw [cancelling, hcancelled, Option.some_or]

/-- In a script, the first cancellation stays. -/
theorem keepsCancellation : Script.environment.KeepsCancellation := by
  intro request script reason hcancelled
  change script.cancelled = some reason at hcancelled
  cases request with
  | query channel statement =>
      have hlogged : (script.logged (.query statement)).cancelled = some reason := hcancelled
      exact cancelled_nextRows hlogged
  | execute channel statement =>
      have hlogged : (script.logged (.execute statement)).cancelled = some reason := hcancelled
      simpa only [environment, answer] using cancelled_nextNumber hlogged fun _ => 1
  | insert channel statement =>
      have hlogged : (script.logged (.insert statement)).cancelled = some reason := hcancelled
      exact cancelled_nextNumber hlogged _
  | begin | commit | rollback => exact hcancelled

end Script

end AggregateSync
