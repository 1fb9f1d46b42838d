import AggregateSync.Proofs.Connection.Execution

/-!
# Tasks and their parts

Much of what is said of a task is said of every request that it may make, and so it is true of a
chain of tasks if it is true of each.  A property of this kind is compositional: the parts that
make no request have it, and chains keep it.  What an operation is made of can then be followed
once for all these properties.
-/

namespace AggregateSync

namespace Task

variable {σ α β : Type}

/-! ## Tasks without requests -/

/-- The task makes no request and asks nothing. -/
def IsQuiet (task : Task σ α) : Prop := ∀ state, ∃ result, task state = .done result

theorem isQuiet_ofResult (result : Result α) : (ofResult result : Task σ α).IsQuiet :=
  fun _ => ⟨_, rfl⟩

theorem isQuiet_state : (Task.state : Task σ σ).IsQuiet := fun _ => ⟨_, rfl⟩

theorem isQuiet_setState (new : σ) : (setState new).IsQuiet := fun _ => ⟨_, rfl⟩

theorem isQuiet_pure (a : α) : (pure a : Task σ α).IsQuiet := fun _ => ⟨_, rfl⟩

theorem IsQuiet.bind {first : Task σ α} {next : α → Task σ β} (hfirst : first.IsQuiet)
    (hnext : ∀ a, (next a).IsQuiet) : (first >>= next).IsQuiet := by
  intro state
  change ∃ result, first.andThen next state = .done result
  obtain ⟨⟨outcome, after⟩, hresult⟩ := hfirst state
  rw [andThen, hresult]
  cases outcome with
  | ok a => exact hnext a after
  | _ => exact ⟨_, rfl⟩

/-! ## Compositional properties -/

/-- A property that tasks without requests have, and a chain if each of its tasks has it. -/
structure IsCompositional (P : ∀ {α : Type}, Task σ α → Prop) : Prop where
  quiet : ∀ {α : Type} {task : Task σ α}, task.IsQuiet → P task
  bind : ∀ {α β : Type} {first : Task σ α} {next : α → Task σ β},
    P first → (∀ a, P (next a)) → P (first >>= next)

namespace IsCompositional

variable {P : ∀ {α : Type}, Task σ α → Prop}

/-- What follows a result may use what the result is. -/
theorem ofResult_bind (hP : IsCompositional P) {result : Result α} {next : α → Task σ β}
    (hnext : ∀ a, result = .ok a → P (next a)) : P (ofResult result >>= next) := by
  cases result with
  | ok a =>
      have hvalue : (ofResult (.ok a) >>= next) = next a := rfl
      rw [hvalue]
      exact hnext a rfl
  | error e => exact hP.quiet fun _ => ⟨_, rfl⟩

end IsCompositional

theorem isCompositional_asksOnly (Q : Request → Prop) :
    IsCompositional fun {_} (task : Task σ _) => task.AsksOnly Q := by
  refine ⟨fun hquiet ω environment state world request hrequest => ?_, AsksOnly.bind⟩
  obtain ⟨result, hresult⟩ := hquiet state
  rw [execution, hresult] at hrequest
  cases hrequest

end Task

end AggregateSync
