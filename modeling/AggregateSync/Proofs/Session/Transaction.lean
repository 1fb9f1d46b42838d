import AggregateSync.Proofs.Session.Schedule
import AggregateSync.Session.Synchronize

/-!
# Transactions

A transaction adds one request before what it encloses and, once it has begun, one
after it.  It succeeds only if both succeed and what it encloses does.
-/

namespace AggregateSync

namespace Task

variable {σ ω α : Type} {environment : Environment ω}

/-- How a transaction ends that has begun. -/
def ending (environment : Environment ω) (run : Execution σ ω α) : Execution σ ω α :=
  match run.outcome with
  | .ok a =>
    let answer := environment.answer .commit run.world
    ⟨answer.1.map fun _ => a, run.state, answer.2, .begin :: (run.requests ++ [.commit])⟩
  | failure =>
    let answer := environment.answer .rollback run.world
    ⟨failure, run.state, answer.2, .begin :: (run.requests ++ [.rollback])⟩

/-- The end of a transaction leaves the state as it is. -/
@[simp]
theorem state_ending (run : Execution σ ω α) : (ending environment run).state = run.state := by
  obtain ⟨outcome, state, world, requests⟩ := run
  cases outcome <;> rfl

theorem execution_inTransaction (task : Task σ α) (state : σ) (world : ω) :
    (inTransaction task).execution environment state world =
      match environment.answer .begin world with
      | (.ok (), begun) => ending environment (task.execution environment state begun)
      | (.err e, begun) => ⟨.err e, state, begun, [.begin]⟩
      | (.cancelled reason, begun) => ⟨.cancelled reason, state, begun, [.begin]⟩
      | (.panicked detail, begun) => ⟨.panicked detail, state, begun, [.begin]⟩ := by
  rw [execution, inTransaction, Interaction.run, Interaction.requests]
  obtain ⟨outcome, begun⟩ := environment.answer .begin world
  cases outcome with
  | ok a =>
      simp only [Interaction.run_andThen, Interaction.requests_andThen, execution]
      obtain ⟨⟨outcome, after⟩, finished⟩ := (task state).run environment begun
      cases outcome <;> rfl
  | _ => rfl

/-- A transaction succeeds only if it is begun and committed around a success. -/
theorem execution_inTransaction_eq_ok {task : Task σ α} {state after : σ} {world later : ω}
    {a : α} {requests : List Request}
    (hok : (inTransaction task).execution environment state world =
      ⟨.ok a, after, later, requests⟩) :
    ∃ begun finished asked, environment.answer .begin world = (.ok (), begun) ∧
      task.execution environment state begun = ⟨.ok a, after, finished, asked⟩ ∧
      environment.answer .commit finished = (.ok (), later) ∧
      requests = .begin :: (asked ++ [.commit]) := by
  rw [execution_inTransaction] at hok
  cases hbegin : environment.answer .begin world with
  | mk outcome begun =>
      rw [hbegin] at hok
      cases outcome with
      | ok =>
          replace hok : ending environment (task.execution environment state begun) =
            ⟨.ok a, after, later, requests⟩ := hok
          cases htask : task.execution environment state begun with
          | mk outcome middle finished asked =>
              rw [htask] at hok
              cases outcome with
              | ok b =>
                  rw [ending] at hok
                  cases hcommit : environment.answer .commit finished with
                  | mk outcome last =>
                      simp only [hcommit] at hok
                      cases outcome with
                      | ok =>
                          cases hok
                          exact ⟨begun, finished, asked, rfl, htask, hcommit, rfl⟩
                      | _ => cases hok
              | _ => cases hok
      | _ => cases hok

end Task

/-- One outcome is the failure that the other is. -/
inductive Outcome.FailsAs {α β : Type} : Outcome α → Outcome β → Prop
  | err (e : Error) : FailsAs (.err e) (.err e)
  | cancelled (reason : CancelReason) : FailsAs (.cancelled reason) (.cancelled reason)
  | panicked (detail : String) : FailsAs (.panicked detail) (.panicked detail)

/-- A run puts a transaction around a writing.  It commits exactly if the writing succeeds,
and a writing that fails decides how the run ends, whatever becomes of the rollback. -/
structure Brackets {σ ω α β : Type} (environment : Environment ω) (writing : Execution σ ω α)
    (run : Execution σ ω β) (last : Request) : Prop where
  requests : run.requests = .begin :: (writing.requests ++ [last])
  closes : last = .commit ∨ last = .rollback
  commits : last = .commit ↔ writing.succeeds = true
  succeeds : run.succeeds = true ↔
    last = .commit ∧ (environment.answer .commit writing.world).1 = .ok ()
  fails : writing.succeeds = false → run.outcome.FailsAs writing.outcome

section Brackets

variable {σ ω α β : Type} {environment : Environment ω} {writing : Execution σ ω α}
  {run : Execution σ ω β}

theorem Outcome.FailsAs.not_succeeds (hfails : run.outcome.FailsAs writing.outcome) :
    run.succeeds = false ∧ writing.succeeds = false := by
  obtain ⟨_, _, _, _⟩ := run
  obtain ⟨_, _, _, _⟩ := writing
  cases hfails <;> exact ⟨rfl, rfl⟩

theorem Brackets.of_rollback
    (hrequests : run.requests = .begin :: (writing.requests ++ [.rollback]))
    (hfails : run.outcome.FailsAs writing.outcome) :
    Brackets environment writing run .rollback := by
  obtain ⟨hrun, hwriting⟩ := hfails.not_succeeds
  have hrollback : ¬ (Request.rollback = .commit) := Request.noConfusion
  constructor
  case requests => exact hrequests
  case closes => exact .inr rfl
  case commits => exact iff_of_false hrollback (ne_of_eq_of_ne hwriting Bool.false_ne_true)
  case succeeds =>
    exact iff_of_false (ne_of_eq_of_ne hrun Bool.false_ne_true) fun hboth => hrollback hboth.1
  case fails => exact fun _ => hfails

/-- A transaction that has begun brackets what it encloses, also if the result is put into
other words. -/
theorem Task.ending_brackets (environment : Environment ω) (writing : Execution σ ω α)
    (summarize : α → β) :
    ∃ last, Brackets environment writing
      ((ending environment writing).andThen fun a after later =>
        ⟨.ok (summarize a), after, later, []⟩) last := by
  obtain ⟨outcome, state, world, requests⟩ := writing
  cases outcome with
  | ok a =>
      refine ⟨.commit, ?_⟩
      constructor
      case closes => exact .inl rfl
      case commits => exact iff_of_true rfl rfl
      case fails => exact fun hfails => absurd hfails.symm Bool.false_ne_true
      case requests =>
        simp only [ending]
        cases (environment.answer .commit world).1 <;>
          simp [Execution.andThen, Outcome.map, Outcome.andThen]
      case succeeds =>
        simp only [ending]
        cases (environment.answer .commit world).1 <;>
          simp [Execution.succeeds, Execution.andThen, Outcome.map, Outcome.andThen]
  | err e => exact ⟨.rollback, .of_rollback rfl (.err e)⟩
  | cancelled reason => exact ⟨.rollback, .of_rollback rfl (.cancelled reason)⟩
  | panicked detail => exact ⟨.rollback, .of_rollback rfl (.panicked detail)⟩

end Brackets

/-- A synchronization compares its graphs and writes their difference in a transaction. -/
theorem execution_synchronize {ω : Type} (environment : Environment ω) (registry : Registry)
    (dialect : Dialect) (config : SyncConfig) (snapshot current : Option Entity) (world : ω) :
    (synchronize registry dialect config snapshot).execution environment current world =
      match registry.compare snapshot current config.filter with
      | .error e => ⟨.err e, current, world, []⟩
      | .ok changes =>
        ((inTransaction (persist registry dialect .transaction changes snapshot
          config.persistOptions)).execution environment current world).andThen
            fun statements after later =>
              ⟨.ok (ChangeSummary.ofChanges changes statements), after, later, []⟩ := by
  rw [synchronize, Task.execution_state_bind, Task.execution_ofResult_bind]
  cases registry.compare snapshot current config.filter with
  | error e => rfl
  | ok changes => exact Task.execution_bind environment _ _ current world

section Success

variable {ω : Type} {environment : Environment ω} {registry : Registry} {dialect : Dialect}
  {config : SyncConfig} {snapshot current after : Option Entity} {world later : ω}
  {summary : ChangeSummary} {requests : List Request}

/-- A synchronization that succeeds summarizes the difference of its graphs and the statements
that wrote it. -/
theorem synchronize_eq_ok_ofChanges
    (hok : (synchronize registry dialect config snapshot).execution environment current world =
      ⟨.ok summary, after, later, requests⟩) :
    ∃ changes begun finished asked counts,
      registry.compare snapshot current config.filter = .ok changes ∧
      environment.answer .begin world = (.ok (), begun) ∧
      (persist registry dialect .transaction changes snapshot config.persistOptions).execution
        environment current begun = ⟨.ok counts, after, finished, asked⟩ ∧
      environment.answer .commit finished = (.ok (), later) ∧
      requests = .begin :: (asked ++ [.commit]) ∧
      summary = ChangeSummary.ofChanges changes counts := by
  rw [synchronize, Task.execution_state_bind] at hok
  obtain ⟨changes, hcompare, hrest⟩ := Task.execution_ofResult_bind_eq_ok.1 hok
  obtain ⟨counts, _, _, sent, last, htransaction, hlast, hsent⟩ :=
    Task.execution_bind_eq_ok.1 hrest
  rw [Task.execution_pure] at hlast
  cases hlast
  obtain ⟨begun, finished, asked, hbegin, hpersist, hcommit, rfl⟩ :=
    Task.execution_inTransaction_eq_ok htransaction
  refine ⟨changes, begun, finished, asked, counts, hcompare, hbegin, hpersist, hcommit, ?_, rfl⟩
  rw [hsent, List.append_nil]

/-- A synchronization that succeeds wrote the difference of its graphs. -/
theorem synchronize_eq_ok
    (hok : (synchronize registry dialect config snapshot).execution environment current world =
      ⟨.ok summary, after, later, requests⟩) :
    ∃ changes begun finished asked counts,
      registry.compare snapshot current config.filter = .ok changes ∧
      environment.answer .begin world = (.ok (), begun) ∧
      (persist registry dialect .transaction changes snapshot config.persistOptions).execution
        environment current begun = ⟨.ok counts, after, finished, asked⟩ ∧
      environment.answer .commit finished = (.ok (), later) ∧
      requests = .begin :: (asked ++ [.commit]) := by
  obtain ⟨changes, begun, finished, asked, counts, hcompare, hbegin, hpersist, hcommit,
    hrequests, _⟩ := synchronize_eq_ok_ofChanges hok
  exact ⟨changes, begun, finished, asked, counts, hcompare, hbegin, hpersist, hcommit, hrequests⟩

end Success

end AggregateSync
