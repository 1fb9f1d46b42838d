import AggregateSync.Proofs.Connection.Steps
import AggregateSync.Proofs.Mapping.Width
import AggregateSync.Session.Load

/-!
# Two runs of a reading task

Two databases answer alike if their answers differ only in the widths of integers.  A task that
reads, and goes on alike after answers that are alike, makes the same requests to both but for
widths, and ends alike.
-/

namespace AggregateSync

/-- Statements of one text whose parameters are of one key form. -/
structure Statement.Alike (statement other : Statement) : Prop where
  sql : statement.sql = other.sql
  params : List.Forall₂ Value.SameForm statement.params other.params

/-- Queries to one place with statements that are alike. -/
inductive Request.Alike : Request → Request → Prop
  | query (channel : Channel) {statement statement' : Statement}
      (hstatement : statement.Alike statement') :
      Alike (.query channel statement) (.query channel statement')

/-- Outcomes of one kind: related values, errors that are alike, or one cancellation or panic. -/
inductive Outcome.Related {α β : Type} (R : α → β → Prop) : Outcome α → Outcome β → Prop
  | ok {a : α} {b : β} (hresults : R a b) : Related R (.ok a) (.ok b)
  | err {e e' : Error} (herrors : e.Alike e') : Related R (.err e) (.err e')
  | cancelled (reason : CancelReason) : Related R (.cancelled reason) (.cancelled reason)
  | panicked (detail : String) : Related R (.panicked detail) (.panicked detail)

/-- Answers to a query: rows that are alike, or the same failure. -/
inductive AnswerAlike : Outcome (List Row) → Outcome (List Row) → Prop
  | rows {rows rows' : List Row} (hrows : List.Forall₂ Row.Alike rows rows') :
      AnswerAlike (.ok rows) (.ok rows')
  | failure (outcome : Outcome (List Row)) : AnswerAlike outcome outcome

/-- Requests for rows that stand at one place of two runs are answered alike. -/
def AnsweredAlike {ω ω' : Type} (environment : Environment ω) (environment' : Environment ω')
    (steps : List (Step ω)) (steps' : List (Step ω')) : Prop :=
  ∀ (index : Nat) (step : Step ω) (step' : Step ω'), steps[index]? = some step →
    steps'[index]? = some step' → ∀ rows rows', step.rows? environment = some rows →
      step'.rows? environment' = some rows' → AnswerAlike rows rows'

namespace Interaction

variable {α β γ δ : Type} {R : α → β → Prop} {S : γ → δ → Prop}

/-- Interactions that ask for rows alike, go on alike after answers that are alike, and end in
related results. -/
inductive Related (R : α → β → Prop) : Interaction α → Interaction β → Prop
  | done {a : α} {b : β} (hresults : R a b) : Related R (done a) (done b)
  | query (channel : Channel) {statement statement' : Statement}
      (hstatement : statement.Alike statement')
      (next : Outcome (List Row) → Interaction α) (next' : Outcome (List Row) → Interaction β)
      (hnext : ∀ rows rows', AnswerAlike rows rows' → Related R (next rows) (next' rows')) :
      Related R (ask (.query channel statement) next) (ask (.query channel statement') next')

theorem Related.andThen {first : Interaction α} {first' : Interaction β}
    {next : α → Interaction γ} {next' : β → Interaction δ} (hfirst : Related R first first')
    (hnext : ∀ a b, R a b → Related S (next a) (next' b)) :
    Related S (first.andThen next) (first'.andThen next') := by
  induction hfirst with
  | done hresults => exact hnext _ _ hresults
  | query channel hstatement rest rest' _ ih => exact .query channel hstatement _ _ ih

section Runs

variable {ω ω' : Type} {environment : Environment ω} {environment' : Environment ω'}

/-- Related interactions make like requests and end in related results, where the answers are
alike. -/
theorem Related.run {interaction : Interaction α} {interaction' : Interaction β}
    (hrelated : Related R interaction interaction') {world : ω} {world' : ω'}
    (hanswers : AnsweredAlike environment environment' (interaction.steps environment world)
      (interaction'.steps environment' world')) :
    List.Forall₂ Request.Alike (interaction.requests environment world)
        (interaction'.requests environment' world') ∧
      R (interaction.run environment world).1 (interaction'.run environment' world').1 := by
  induction hrelated generalizing world world' with
  | done hresults => exact ⟨.nil, hresults⟩
  | query channel hstatement next next' _ ih =>
      have hrows := hanswers 0 _ _ rfl rfl _ _ rfl rfl
      obtain ⟨hrequests, hresults⟩ := ih _ _ hrows
        fun index step step' hstep hstep' => hanswers (index + 1) step step' hstep hstep'
      exact ⟨.cons (.query channel hstatement) hrequests, hresults⟩

end Runs

end Interaction

namespace Task

variable {α β γ δ : Type} {R : α → β → Prop} {S : γ → δ → Prop}

/-- Tasks without a state whose runs go on alike. -/
def Related (R : α → β → Prop) (task : Task Unit α) (task' : Task Unit β) : Prop :=
  Interaction.Related (fun result result' => Outcome.Related R result.1 result'.1) (task ())
    (task' ())

theorem Related.bind {first : Task Unit α} {first' : Task Unit β} {next : α → Task Unit γ}
    {next' : β → Task Unit δ} (hfirst : Related R first first')
    (hnext : ∀ a b, R a b → Related S (next a) (next' b)) :
    Related S (first >>= next) (first' >>= next') := by
  refine hfirst.andThen ?_
  rintro ⟨outcome, _⟩ ⟨outcome', _⟩ (hresults | herrors | reason | detail)
  · exact hnext _ _ hresults
  · exact .done (.err herrors)
  · exact .done (.cancelled reason)
  · exact .done (.panicked detail)

theorem related_pure {a : α} {b : β} (hresults : R a b) :
    Related R (pure a : Task Unit α) (pure b : Task Unit β) := .done (.ok hresults)

theorem related_ofResult {result : Result α} {result' : Result β}
    (hresults : Result.Related Error.Alike R result result') :
    Related R (ofResult result) (ofResult result') := by
  cases hresults with
  | ok hresults => exact .done (.ok hresults)
  | error herrors => exact .done (.err herrors)

/-- What follows one and the same result is related if it is after success. -/
theorem related_ofResult_bind {ε : Type} (result : Result ε) {next : ε → Task Unit α}
    {next' : ε → Task Unit β} (hnext : ∀ a, Related R (next a) (next' a)) :
    Related R (ofResult result >>= next) (ofResult result >>= next') := by
  cases result with
  | ok a => exact hnext a
  | error e => exact .done (.err (.same e))

/-- Queries whose statements are alike. -/
theorem related_queryRows (type : EntityType) {statement statement' : Statement}
    (hstatement : statement.Alike statement') :
    Related (List.Forall₂ Row.Alike) (queryRows type statement) (queryRows type statement') := by
  refine .query .connection hstatement _ _ fun rows rows' hrows => .done ?_
  cases hrows with
  | rows hrows => exact .ok hrows
  | failure =>
      cases rows with
      | ok rows => exact .ok (List.forall₂_same.2 fun row _ => .refl row)
      | err e =>
          dsimp only [Outcome.mapError]
          rw [hstatement.sql]
          exact .err (.statement _ hstatement.params _ _ e)
      | cancelled reason => exact .cancelled reason
      | panicked detail => exact .panicked detail

/-- Where the answers are alike, so are the requests and the outcomes of related tasks. -/
theorem Related.execution {task : Task Unit α} {task' : Task Unit β}
    (hrelated : Related R task task') {ω ω' : Type} {environment : Environment ω}
    {environment' : Environment ω'} {world : ω} {world' : ω'}
    (hanswers : AnsweredAlike environment environment' (task.steps environment () world)
      (task'.steps environment' () world')) :
    List.Forall₂ Request.Alike (task.execution environment () world).requests
        (task'.execution environment' () world').requests ∧
      Outcome.Related R (task.execution environment () world).outcome
        (task'.execution environment' () world').outcome :=
  Interaction.Related.run hrelated hanswers

end Task

end AggregateSync
