import AggregateSync.Proofs.Connection.Execution

/-!
# The steps of an interaction

A step is a request together with the environment that it meets, so that the answer can be
told from it.  What is said of every answer along a run, or of what an environment has become
by the time of a request, is said of steps.
-/

namespace AggregateSync

/-- A request and the state of the environment that it is made in. -/
structure Step (ω : Type) where
  request : Request
  world : ω

namespace Step

variable {ω : Type}

/-- The answer to a request for rows. -/
def rows? (environment : Environment ω) (step : Step ω) : Option (Outcome (List Row)) :=
  match step.request with
  | .query channel statement =>
    some (environment.answer (.query channel statement) step.world).1
  | _ => none

/-- The environment after the request. -/
def after (environment : Environment ω) (step : Step ω) : ω :=
  (environment.answer step.request step.world).2

end Step

/-- Requests that are made one after the other, each with the environment that it meets. -/
def Environment.replay {ω : Type} (environment : Environment ω) : List Request → ω → List (Step ω)
  | [], _ => []
  | r :: rest, world => ⟨r, world⟩ :: environment.replay rest (environment.answer r world).2

namespace Interaction

variable {ω α : Type}

/-- The requests of an interaction, each with the environment that it meets. -/
def steps (environment : Environment ω) : Interaction α → ω → List (Step ω)
  | done _, _ => []
  | ask r next, world =>
    let (answer, after) := environment.answer r world
    ⟨r, world⟩ :: (next answer).steps environment after
  | poll next, world => (next (environment.cancelled world)).steps environment world

theorem map_request_steps (environment : Environment ω) (interaction : Interaction α) (world : ω) :
    (interaction.steps environment world).map Step.request =
      interaction.requests environment world := by
  induction interaction generalizing world with
  | done a => rfl
  | ask r next ih => exact congrArg (r :: ·) (ih _ _)
  | poll next ih => exact ih _ _

/-- The requests tell the steps. -/
theorem steps_eq_replay (environment : Environment ω) (interaction : Interaction α) (world : ω) :
    interaction.steps environment world =
      environment.replay (interaction.requests environment world) world := by
  induction interaction generalizing world with
  | done a => rfl
  | ask r next ih => exact congrArg (_ :: ·) (ih _ _)
  | poll next ih => exact ih _ _

/-- What follows a step is an interaction that begins where the step ends. -/
theorem exists_rest_of_steps {environment : Environment ω} {interaction : Interaction α}
    {world : ω} {earlier later : List (Step ω)} {step : Step ω}
    (hsteps : interaction.steps environment world = earlier ++ step :: later) :
    ∃ rest : Interaction α, later = rest.steps environment (step.after environment) := by
  induction interaction generalizing world earlier with
  | done a => exact absurd hsteps (by simp [steps])
  | ask r next ih =>
      cases earlier with
      | nil =>
          obtain ⟨rfl, hlater⟩ := List.cons.inj hsteps
          exact ⟨_, hlater.symm⟩
      | cons first earlier => exact ih _ (List.cons.inj hsteps).2
  | poll next ih => exact ih _ hsteps

end Interaction

namespace Task

variable {σ ω α : Type} (environment : Environment ω)

/-- The requests of a task, each with the environment that it meets. -/
def steps (task : Task σ α) (state : σ) (world : ω) : List (Step ω) :=
  (task state).steps environment world

theorem map_request_steps (task : Task σ α) (state : σ) (world : ω) :
    (task.steps environment state world).map Step.request =
      (task.execution environment state world).requests :=
  Interaction.map_request_steps environment (task state) world

theorem steps_eq_replay (task : Task σ α) (state : σ) (world : ω) :
    task.steps environment state world =
      environment.replay (task.execution environment state world).requests world :=
  Interaction.steps_eq_replay environment (task state) world

end Task

end AggregateSync
