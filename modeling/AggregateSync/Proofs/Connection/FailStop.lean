import AggregateSync.Proofs.Connection.Composition
import AggregateSync.Proofs.Connection.Steps

/-!
# Stopping at a failure

A request fails with an error, or is cancelled, or whatever answers it panics.  An interaction is
fail-stop if it ends with the first request that fails: a cancellation or a panic is its outcome
as it is, an error is reported in another, which tells of the request.  Which errors report which
is a relation here, and each operation has its own.
-/

namespace AggregateSync

namespace Outcome

variable {α β : Type}

/-- The outcome of an operation that a failed answer ended: an error that reports that of the
answer, or the same cancellation or panic. -/
inductive ReportedBy (reports : Error → Error → Prop) : Outcome α → Outcome β → Prop
  | err {e reported : Error} (hreports : reports e reported) :
      ReportedBy reports (.err e) (.err reported)
  | cancelled (reason : CancelReason) : ReportedBy reports (.cancelled reason) (.cancelled reason)
  | panicked (detail : String) : ReportedBy reports (.panicked detail) (.panicked detail)

variable {reports : Error → Error → Prop} {answer : Outcome α}

/-- Who wraps errors as they are to be reported reports a failed answer. -/
theorem reportedBy_mapError {wrap : Error → Error} (hwrap : ∀ e, reports e (wrap e))
    (hfails : ∀ a, answer ≠ ok a) : answer.ReportedBy reports (answer.mapError wrap) := by
  cases answer with
  | ok a => exact absurd rfl (hfails a)
  | err e => exact .err (hwrap e)
  | cancelled reason => exact .cancelled reason
  | panicked detail => exact .panicked detail

end Outcome

/-- If any request of a run fails, it is the last one, and its failure is what the run reports.
How it is reported may depend on how many requests came before. -/
def StopsAtFailure {ω σ α : Type} (reports : Nat → Request → Error → Error → Prop)
    (environment : Environment ω) (task : Task σ α) (state : σ) (world : ω) : Prop :=
  ∀ (k : Nat) (step : Step ω), (task.steps environment state world)[k]? = some step →
    (∀ a, (environment.answer step.request step.world).1 ≠ .ok a) →
    (task.execution environment state world).requests.length = k + 1 ∧
      (environment.answer step.request step.world).1.ReportedBy (reports k step.request)
        (task.execution environment state world).outcome

namespace Interaction

variable {ω σ α : Type} {reports : Request → Error → Error → Prop}

/-- Ends with the report of the failure after any request that fails. -/
inductive FailStop (reports : Request → Error → Error → Prop) :
    Interaction (Outcome α × σ) → Prop
  | done (result : Outcome α × σ) : FailStop reports (done result)
  | ask (r : Request) (next : Outcome r.Answer → Interaction (Outcome α × σ))
      (hfails : ∀ answer : Outcome r.Answer, (∀ a, answer ≠ .ok a) →
        ∃ outcome state, next answer = done (outcome, state) ∧
          answer.ReportedBy (reports r) outcome)
      (hok : ∀ a, FailStop reports (next (.ok a))) : FailStop reports (ask r next)
  | poll (next : Option CancelReason → Interaction (Outcome α × σ))
      (hnext : ∀ reason, FailStop reports (next reason)) : FailStop reports (poll next)

section Requests

variable (environment : Environment ω) (r : Request) (next : Outcome r.Answer → Interaction α)
  (world : ω)

theorem run_ask : (ask r next).run environment world =
    (next (environment.answer r world).1).run environment (environment.answer r world).2 := rfl

theorem requests_ask : (ask r next).requests environment world =
    r :: (next (environment.answer r world).1).requests environment
      (environment.answer r world).2 := rfl

theorem steps_ask : (ask r next).steps environment world =
    ⟨r, world⟩ :: (next (environment.answer r world).1).steps environment
      (environment.answer r world).2 := rfl

end Requests

/-- No request comes after one that fails, and the failure is reported. -/
theorem FailStop.reportedBy {environment : Environment ω}
    {interaction : Interaction (Outcome α × σ)} (hfailStop : FailStop reports interaction)
    {world : ω} {k : Nat} {step : Step ω}
    (hstep : (interaction.steps environment world)[k]? = some step)
    (hfails : ∀ a, (environment.answer step.request step.world).1 ≠ .ok a) :
    (interaction.requests environment world).length = k + 1 ∧
      (environment.answer step.request step.world).1.ReportedBy (reports step.request)
        (interaction.run environment world).1.1 := by
  induction hfailStop generalizing world k with
  | done result => cases hstep
  | poll next _ ih => exact ih _ hstep
  | ask r next hlast _ ih =>
      rw [steps_ask] at hstep
      rw [requests_ask, run_ask]
      cases k with
      | zero =>
          -- the failed request is this one
          obtain rfl := Option.some.inj hstep
          obtain ⟨outcome, state, hdone, hreported⟩ := hlast _ hfails
          rw [hdone]
          exact ⟨rfl, hreported⟩
      | succ k =>
          rw [List.getElem?_cons_succ] at hstep
          by_cases hanswer : ∀ a, (environment.answer r world).1 ≠ .ok a
          · -- nothing comes after this one if it fails
            obtain ⟨outcome, state, hdone, _⟩ := hlast _ hanswer
            rw [hdone] at hstep
            cases hstep
          · obtain ⟨a, ha⟩ := not_forall_not.1 hanswer
            rw [ha] at hstep ⊢
            obtain ⟨hlength, hreported⟩ := ih a hstep
            exact ⟨congrArg (· + 1) hlength, hreported⟩

end Interaction

namespace Task

open Interaction (FailStop)

variable {ω σ α β : Type} {reports : Request → Error → Error → Prop}

/-- The task is fail-stop from every state. -/
def IsFailStop (reports : Request → Error → Error → Prop) (task : Task σ α) : Prop :=
  ∀ state, FailStop reports (task state)

theorem IsFailStop.stopsAtFailure {task : Task σ α} (htask : task.IsFailStop reports)
    (environment : Environment ω) (state : σ) (world : ω) :
    StopsAtFailure (fun _ => reports) environment task state world :=
  fun _ _ hstep hfails => (htask state).reportedBy hstep hfails

theorem IsQuiet.isFailStop {task : Task σ α} (hquiet : task.IsQuiet) :
    task.IsFailStop reports := by
  intro state
  obtain ⟨result, hresult⟩ := hquiet state
  rw [hresult]
  exact .done result

theorem isFailStop_checkCancelled : (checkCancelled : Task σ Unit).IsFailStop reports :=
  fun state => .poll _ fun reason => by cases reason <;> exact .done _

/-- A request is fail-stop if its errors are wrapped as they are to be reported. -/
theorem isFailStop_request (r : Request) {wrap : Error → Error}
    (hwrap : ∀ e, reports r e (wrap e)) :
    (request r wrap : Task σ r.Answer).IsFailStop reports :=
  fun state => .ask r _
    (fun _ hfails => ⟨_, state, rfl, Outcome.reportedBy_mapError hwrap hfails⟩)
    fun _ => .done _

/-- What ends one task of a chain ends the chain. -/
theorem IsFailStop.bind {first : Task σ α} {next : α → Task σ β}
    (hfirst : first.IsFailStop reports) (hnext : ∀ a, (next a).IsFailStop reports) :
    (first >>= next).IsFailStop reports := by
  intro state
  change FailStop reports (first.andThen next state)
  have hstart := hfirst state
  rw [andThen]
  generalize first state = interaction at hstart ⊢
  induction hstart with
  | done result =>
      obtain ⟨outcome, after⟩ := result
      cases outcome with
      | ok a => exact hnext a after
      | _ => exact .done _
  | ask r rest hlast _ ih =>
      refine .ask r _ (fun answer hfails => ?_) ih
      obtain ⟨outcome, after, hdone, hreported⟩ := hlast answer hfails
      rw [hdone]
      cases hreported with
      | err hreports => exact ⟨_, after, rfl, .err hreports⟩
      | cancelled reason => exact ⟨_, after, rfl, .cancelled reason⟩
      | panicked detail => exact ⟨_, after, rfl, .panicked detail⟩
  | poll rest _ ih => exact .poll _ ih

theorem isCompositional_isFailStop (reports : Request → Error → Error → Prop) :
    IsCompositional fun {_} (task : Task σ _) => task.IsFailStop reports :=
  ⟨IsQuiet.isFailStop, IsFailStop.bind⟩

end Task

end AggregateSync
