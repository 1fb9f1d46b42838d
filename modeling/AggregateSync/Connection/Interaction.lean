import AggregateSync.Row
import AggregateSync.Sql.Dialect

/-!
# Interactions with a database

What is done to a database is described before it is done.  An interaction either
ends, or makes a request and goes on with the answer, or asks whether it has been
cancelled and goes on with that.  An environment gives the answers, whatever they
are, and running an interaction in it makes the requests in their order.  A task is
an interaction that carries a state; it stops at the first step that does not
succeed and leaves the state as that step found it.
-/

namespace AggregateSync

inductive CancelKind where
  | user
  | timeout
  | shutdown
  deriving DecidableEq, Repr

namespace CancelKind

def names : List (String × CancelKind) :=
  [("User", user), ("Timeout", timeout), ("Shutdown", shutdown)]

end CancelKind

structure CancelReason where
  kind : CancelKind
  detail : Option String
  deriving DecidableEq, Repr

/-- How an operation ends. -/
inductive Outcome (α : Type) where
  | ok (a : α)
  | err (e : Error)
  | cancelled (reason : CancelReason)
  | panicked (detail : String)

/-- Where a statement is sent: to the connection itself or to the open transaction. -/
inductive Channel where
  | connection
  | transaction
  deriving DecidableEq, Repr

/-- What is asked of a database. -/
inductive Request where
  /-- The rows of a query. -/
  | query (channel : Channel) (statement : Statement)
  /-- The effect of a statement, answered by the number of rows. -/
  | execute (channel : Channel) (statement : Statement)
  /-- A new row, answered by its generated key. -/
  | insert (channel : Channel) (statement : Statement)
  | begin
  | commit
  | rollback

namespace Request

abbrev Answer : Request → Type
  | query _ _ => List Row
  | execute _ _ => Nat
  | insert _ _ => Int
  | begin | commit | rollback => Unit

end Request

namespace Outcome

def ofResult {α : Type} : Result α → Outcome α
  | .ok a => ok a
  | .error e => err e

def andThen {α β : Type} (outcome : Outcome α) (next : α → Outcome β) : Outcome β :=
  match outcome with
  | ok a => next a
  | err e => err e
  | cancelled reason => cancelled reason
  | panicked detail => panicked detail

def map {α β : Type} (f : α → β) (outcome : Outcome α) : Outcome β :=
  outcome.andThen fun a => ok (f a)

def mapError {α : Type} (f : Error → Error) : Outcome α → Outcome α
  | err e => err (f e)
  | outcome => outcome

end Outcome

/-- A description of what is asked of a database and what follows from the answers. -/
inductive Interaction (α : Type) where
  | done (a : α)
  | ask (request : Request) (next : Outcome request.Answer → Interaction α)
  | poll (next : Option CancelReason → Interaction α)

/-- What answers an interaction, and how it changes by that. -/
structure Environment (σ : Type) where
  answer : (request : Request) → σ → Outcome request.Answer × σ
  cancelled : σ → Option CancelReason

namespace Interaction

def andThen {α β : Type} (first : Interaction α) (next : α → Interaction β) :
    Interaction β :=
  match first with
  | done a => next a
  | ask request rest => ask request fun answer => (rest answer).andThen next
  | poll rest => poll fun reason => (rest reason).andThen next

instance : Monad Interaction where
  pure := done
  bind := andThen

def run {σ α : Type} (environment : Environment σ) : Interaction α → σ → α × σ
  | done a, state => (a, state)
  | ask r next, state =>
    let (answer, after) := environment.answer r state
    (next answer).run environment after
  | poll next, state => (next (environment.cancelled state)).run environment state

end Interaction

/-- An interaction with a state, which ends at the first failure. -/
def Task (σ α : Type) := σ → Interaction (Outcome α × σ)

namespace Task

variable {σ α β : Type}

def succeed (a : α) : Task σ α := fun state => .done (.ok a, state)

/-- Goes on after success. -/
def andThen (first : Task σ α) (next : α → Task σ β) : Task σ β := fun state =>
  (first state).andThen fun
    | (.ok a, after) => next a after
    | (.err e, after) => .done (.err e, after)
    | (.cancelled reason, after) => .done (.cancelled reason, after)
    | (.panicked detail, after) => .done (.panicked detail, after)

instance : Monad (Task σ) where
  pure := succeed
  bind := andThen

def ofResult (result : Result α) : Task σ α := fun state =>
  .done (.ofResult result, state)

def state : Task σ σ := fun current => .done (.ok current, current)

def setState (new : σ) : Task σ Unit := fun _ => .done (.ok (), new)

def checkCancelled : Task σ Unit := fun current =>
  .poll fun
    | some reason => .done (.cancelled reason, current)
    | none => .done (.ok (), current)

/-- Makes a request; an error of the database is wrapped by `wrap`. -/
def request (r : Request) (wrap : Error → Error) : Task σ r.Answer := fun current =>
  .ask r fun answer => .done (answer.mapError wrap, current)

end Task

end AggregateSync
