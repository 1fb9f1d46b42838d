import AggregateSync.Connection.Interaction

/-!
# Scripted connections

A scripted connection answers from prepared replies in the order of the calls and
keeps a log of them.  Where no reply is left, queries find nothing, a statement
affects one row, and an inserted row gets the number of writes so far plus one
hundred as its key.
-/

namespace AggregateSync

/-- A prepared reply: an outcome, and a cancellation that happens just before it. -/
structure Reply (α : Type) where
  outcome : Outcome α
  cancels : Option CancelReason

inductive Call where
  | query (statement : Statement)
  | execute (statement : Statement)
  | insert (statement : Statement)
  | begin
  | commit
  | rollback

/-- What is prepared, what was asked, and whether the operation is cancelled. -/
structure Script where
  queries : List (Reply (List Row))
  /-- The replies to writes; the number is the affected rows or the generated key,
  and a reply without one is the usual answer. -/
  writes : List (Reply (Option Int))
  begin : Outcome Unit
  commit : Outcome Unit
  rollback : Outcome Unit
  cancelled : Option CancelReason
  /-- How many writes there were. -/
  written : Nat
  /-- The calls, the latest first. -/
  calls : List Call

namespace Script

def logged (script : Script) (call : Call) : Script :=
  { script with calls := call :: script.calls }

/-- The script after a cancellation; the first reason stays. -/
def cancelling (script : Script) (reason : Option CancelReason) : Script :=
  { script with cancelled := script.cancelled.or reason }

def nextRows (script : Script) : Outcome (List Row) × Script :=
  match script.queries with
  | [] => (.ok [], script)
  | reply :: rest =>
    (reply.outcome, { script with queries := rest }.cancelling reply.cancels)

/-- The next reply to a write, `usual` telling the answer from the number of writes. -/
def nextNumber (script : Script) (usual : Nat → Int) : Outcome Int × Script :=
  let count := script.written + 1
  match script.writes with
  | [] => (.ok (usual count), { script with written := count })
  | reply :: rest =>
    (reply.outcome.map fun number => number.getD (usual count),
      { script with writes := rest, written := count }.cancelling reply.cancels)

def answer : (request : Request) → Script → Outcome request.Answer × Script
  | .query _ statement, script => (script.logged (.query statement)).nextRows
  | .execute _ statement, script =>
    let (outcome, after) := (script.logged (.execute statement)).nextNumber fun _ => 1
    (outcome.map Int.toNat, after)
  | .insert _ statement, script =>
    (script.logged (.insert statement)).nextNumber fun count => 100 + count
  | .begin, script => (script.begin, script.logged .begin)
  | .commit, script => (script.commit, script.logged .commit)
  | .rollback, script => (script.rollback, script.logged .rollback)

def environment : Environment Script := ⟨answer, Script.cancelled⟩

end Script

end AggregateSync
