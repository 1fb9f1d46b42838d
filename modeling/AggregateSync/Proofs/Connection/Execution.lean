import AggregateSync.Connection.Interaction
import AggregateSync.Proofs.Result

/-!
# Carrying out tasks

An execution of a task in an environment is its outcome together with the state, the
environment and the requests that were made, in order.  Each way of building tasks has
one equation here, so that no other module follows an interaction step by step.
-/

namespace AggregateSync

namespace Interaction

variable {ω α β : Type}

/-- The requests that an interaction makes, in order. -/
def requests (environment : Environment ω) : Interaction α → ω → List Request
  | done _, _ => []
  | ask r next, world =>
    let (answer, after) := environment.answer r world
    r :: (next answer).requests environment after
  | poll next, world => (next (environment.cancelled world)).requests environment world

theorem run_andThen (environment : Environment ω) (first : Interaction α)
    (next : α → Interaction β) (world : ω) :
    (first.andThen next).run environment world =
      (next (first.run environment world).1).run environment
        (first.run environment world).2 := by
  induction first generalizing world with
  | done a => rfl
  | ask r rest ih => exact ih _ _
  | poll rest ih => exact ih _ _

theorem requests_andThen (environment : Environment ω) (first : Interaction α)
    (next : α → Interaction β) (world : ω) :
    (first.andThen next).requests environment world =
      first.requests environment world ++
        (next (first.run environment world).1).requests environment
          (first.run environment world).2 := by
  induction first generalizing world with
  | done a => rfl
  | ask r rest ih => exact congrArg (r :: ·) (ih _ _)
  | poll rest ih => exact ih _ _

end Interaction

namespace Outcome

variable {α : Type} {allowed permitted : Error → Prop}

/-- The outcome is an allowed error, if it is an error. -/
def FailsWithin (allowed : Error → Prop) (outcome : Outcome α) : Prop :=
  ∀ e, outcome = .err e → allowed e

theorem failsWithin_ok (a : α) : (ok a).FailsWithin allowed := by
  rintro e ⟨⟩

theorem FailsWithin.mono {outcome : Outcome α} (houtcome : outcome.FailsWithin allowed)
    (hmore : ∀ e, allowed e → permitted e) : outcome.FailsWithin permitted :=
  fun e he => hmore e (houtcome e he)

end Outcome

/-- What came of a task: its outcome, its state and the environment afterwards, and the
requests that it made. -/
structure Execution (σ ω α : Type) where
  outcome : Outcome α
  state : σ
  world : ω
  requests : List Request

namespace Execution

variable {σ ω α β : Type}

/-- Goes on after success. -/
def andThen (first : Execution σ ω α) (next : α → σ → ω → Execution σ ω β) :
    Execution σ ω β :=
  match first.outcome with
  | .ok a =>
    let second := next a first.state first.world
    { second with requests := first.requests ++ second.requests }
  | .err e => ⟨.err e, first.state, first.world, first.requests⟩
  | .cancelled reason => ⟨.cancelled reason, first.state, first.world, first.requests⟩
  | .panicked detail => ⟨.panicked detail, first.state, first.world, first.requests⟩

/-- A chain succeeds exactly if both parts do. -/
theorem andThen_eq_ok {first : Execution σ ω α} {next : α → σ → ω → Execution σ ω β}
    {b : β} {state : σ} {world : ω} {requests : List Request} :
    first.andThen next = ⟨.ok b, state, world, requests⟩ ↔
      ∃ a middle between asked others, first = ⟨.ok a, middle, between, asked⟩ ∧
        next a middle between = ⟨.ok b, state, world, others⟩ ∧
        requests = asked ++ others := by
  obtain ⟨outcome, middle, between, asked⟩ := first
  cases outcome with
  | ok a =>
      simp only [andThen, mk.injEq, Outcome.ok.injEq]
      constructor
      · rintro ⟨houtcome, rfl, rfl, rfl⟩
        refine ⟨a, middle, between, asked, _, ⟨rfl, rfl, rfl, rfl⟩, ?_, rfl⟩
        rw [← houtcome]
      · rintro ⟨_, _, _, _, others, ⟨rfl, rfl, rfl, rfl⟩, hnext, rfl⟩
        rw [hnext]
        exact ⟨rfl, rfl, rfl, rfl⟩
  | _ => simp [andThen]

/-- Whether the task succeeded. -/
def succeeds (execution : Execution σ ω α) : Bool :=
  match execution.outcome with
  | .ok _ => true
  | _ => false

theorem succeeds_iff {execution : Execution σ ω α} : execution.succeeds = true ↔
    ∃ a state world requests, execution = ⟨.ok a, state, world, requests⟩ := by
  obtain ⟨outcome, state, world, requests⟩ := execution
  cases outcome with
  | ok a => exact ⟨fun _ => ⟨a, state, world, requests, rfl⟩, fun _ => rfl⟩
  | _ => simp [succeeds]

end Execution

namespace Task

variable {σ ω α β : Type} (environment : Environment ω)

/-- Carries out a task. -/
def execution (task : Task σ α) (state : σ) (world : ω) : Execution σ ω α :=
  let result := (task state).run environment world
  ⟨result.1.1, result.1.2, result.2, (task state).requests environment world⟩

theorem execution_bind (first : Task σ α) (next : α → Task σ β) (state : σ) (world : ω) :
    (first >>= next).execution environment state world =
      (first.execution environment state world).andThen fun a after between =>
        (next a).execution environment after between := by
  change (first.andThen next).execution environment state world = _
  rw [execution, execution, andThen, Interaction.run_andThen, Interaction.requests_andThen]
  obtain ⟨⟨outcome, after⟩, between⟩ := (first state).run environment world
  cases outcome <;> simp [Execution.andThen, Interaction.run, Interaction.requests, execution]

theorem execution_pure (a : α) (state : σ) (world : ω) :
    (pure a : Task σ α).execution environment state world = ⟨.ok a, state, world, []⟩ := rfl

theorem execution_ofResult (result : Result α) (state : σ) (world : ω) :
    (ofResult result : Task σ α).execution environment state world =
      ⟨.ofResult result, state, world, []⟩ := rfl

theorem execution_state (state : σ) (world : ω) :
    (Task.state : Task σ σ).execution environment state world =
      ⟨.ok state, state, world, []⟩ := rfl

theorem execution_setState (new state : σ) (world : ω) :
    (setState new : Task σ Unit).execution environment state world =
      ⟨.ok (), new, world, []⟩ := rfl

theorem execution_checkCancelled (state : σ) (world : ω) :
    (checkCancelled : Task σ Unit).execution environment state world =
      ⟨match environment.cancelled world with
        | some reason => .cancelled reason
        | none => .ok (), state, world, []⟩ := by
  rw [execution, checkCancelled, Interaction.run, Interaction.requests]
  cases environment.cancelled world <;> rfl

theorem execution_request (r : Request) (wrap : Error → Error) (state : σ) (world : ω) :
    (request r wrap : Task σ r.Answer).execution environment state world =
      ⟨(environment.answer r world).1.mapError wrap, state, (environment.answer r world).2,
        [r]⟩ := rfl

variable {environment} in
/-- A chain of tasks succeeds exactly if each does, one where the other left off. -/
theorem execution_bind_eq_ok {first : Task σ α} {next : α → Task σ β} {state after : σ}
    {world later : ω} {b : β} {requests : List Request} :
    (first >>= next).execution environment state world = ⟨.ok b, after, later, requests⟩ ↔
      ∃ a middle between asked others,
        first.execution environment state world = ⟨.ok a, middle, between, asked⟩ ∧
        (next a).execution environment middle between = ⟨.ok b, after, later, others⟩ ∧
        requests = asked ++ others := by
  rw [execution_bind, Execution.andThen_eq_ok]

theorem execution_checkCancelled_bind (next : Unit → Task σ α) (state : σ)
    (world : ω) : (checkCancelled >>= next).execution environment state world =
      match environment.cancelled world with
      | some reason => ⟨.cancelled reason, state, world, []⟩
      | none => (next ()).execution environment state world := by
  rw [execution_bind, execution_checkCancelled]
  cases environment.cancelled world with
  | none => simp [Execution.andThen]
  | some reason => rfl

theorem execution_ofResult_bind (result : Result α) (next : α → Task σ β)
    (state : σ) (world : ω) :
    (ofResult result >>= next).execution environment state world =
      match result with
      | .ok a => (next a).execution environment state world
      | .error e => ⟨.err e, state, world, []⟩ := by
  rw [execution_bind, execution_ofResult]
  cases result with
  | ok a => simp [Execution.andThen, Outcome.ofResult]
  | error e => rfl

theorem execution_setState_bind (new : σ) (next : Unit → Task σ β)
    (state : σ) (world : ω) :
    (setState new >>= next).execution environment state world =
      (next ()).execution environment new world := by
  rw [execution_bind, execution_setState]
  simp [Execution.andThen]

theorem execution_state_bind (next : σ → Task σ β) (state : σ) (world : ω) :
    (Task.state >>= next).execution environment state world =
      (next state).execution environment state world := by
  rw [execution_bind, execution_state]
  simp [Execution.andThen]

variable {environment} in
/-- A chain that begins with a result succeeds exactly if the result is there and the rest
succeeds with it. -/
theorem execution_ofResult_bind_eq_ok {result : Result α} {next : α → Task σ β}
    {state after : σ} {world later : ω} {b : β} {requests : List Request} :
    (ofResult result >>= next).execution environment state world =
        ⟨.ok b, after, later, requests⟩ ↔
      ∃ a, result = .ok a ∧
        (next a).execution environment state world = ⟨.ok b, after, later, requests⟩ := by
  rw [execution_ofResult_bind]
  cases result <;> simp

/-! ## What a task may fail with -/

section Failures

variable {allowed : Error → Prop} {environment}

/-- Tasks fail, one after the other, with allowed errors only. -/
theorem bind_failsWithin {first : Task σ α} {next : α → Task σ β} {state : σ} {world : ω}
    (hfirst : (first.execution environment state world).outcome.FailsWithin allowed)
    (hnext : ∀ a middle between asked,
      first.execution environment state world = ⟨.ok a, middle, between, asked⟩ →
        ((next a).execution environment middle between).outcome.FailsWithin allowed) :
    ((first >>= next).execution environment state world).outcome.FailsWithin allowed := by
  rw [execution_bind]
  cases hexecution : first.execution environment state world with
  | mk outcome middle between asked =>
      rw [hexecution] at hfirst
      cases outcome with
      | ok a => exact hnext a middle between asked hexecution
      | err e =>
          rintro _ ⟨⟩
          exact hfirst e rfl
      | cancelled reason => rintro e ⟨⟩
      | panicked detail => rintro e ⟨⟩

theorem ofResult_bind_failsWithin {result : Result α} {next : α → Task σ β} {state : σ}
    {world : ω} (hresult : Result.FailsWithin allowed result)
    (hnext : ∀ a, result = .ok a →
      ((next a).execution environment state world).outcome.FailsWithin allowed) :
    ((ofResult result >>= next).execution environment state world).outcome.FailsWithin
      allowed := by
  rw [execution_ofResult_bind]
  cases result with
  | ok a => exact hnext a rfl
  | error e =>
      rintro _ ⟨⟩
      exact hresult e rfl

/-- A request fails with what its errors are wrapped in. -/
theorem request_failsWithin (r : Request) {wrap : Error → Error} (hwrap : ∀ e, allowed (wrap e))
    (state : σ) (world : ω) :
    ((request r wrap).execution environment state world).outcome.FailsWithin allowed := by
  rw [execution_request]
  cases (environment.answer r world).1 with
  | err e =>
      rintro _ ⟨⟩
      exact hwrap e
  | _ => rintro e ⟨⟩

end Failures

/-! ## What a task may ask -/

/-- Whatever the answers are, all requests of the task are of one kind. -/
def AsksOnly (P : Request → Prop) (task : Task σ α) : Prop :=
  ∀ (ω : Type) (environment : Environment ω) (state : σ) (world : ω),
    ∀ request ∈ (task.execution environment state world).requests, P request

namespace AsksOnly

variable {P : Request → Prop}

theorem bind {first : Task σ α} {next : α → Task σ β} (hfirst : first.AsksOnly P)
    (hnext : ∀ a, (next a).AsksOnly P) : (first >>= next).AsksOnly P := by
  intro ω environment state world request hrequest
  rw [execution_bind] at hrequest
  cases hexecution : first.execution environment state world with
  | mk outcome middle between asked =>
      have hasked : ∀ request ∈ asked, P request := by
        intro request hrequest
        apply hfirst ω environment state world
        rwa [hexecution]
      rw [hexecution] at hrequest
      cases outcome with
      | ok a =>
          rcases List.mem_append.1 hrequest with hleft | hright
          · exact hasked request hleft
          · exact hnext a ω environment middle between request hright
      | _ => exact hasked request hrequest

theorem checkCancelled : (Task.checkCancelled : Task σ Unit).AsksOnly P := by
  intro ω environment state world request hrequest
  rw [execution_checkCancelled] at hrequest
  cases hrequest

theorem request {r : Request} (hr : P r) (wrap : Error → Error) :
    (Task.request r wrap : Task σ r.Answer).AsksOnly P := by
  intro ω environment state world request hrequest
  obtain rfl := List.mem_singleton.1 hrequest
  exact hr

end AsksOnly

end Task

end AggregateSync
