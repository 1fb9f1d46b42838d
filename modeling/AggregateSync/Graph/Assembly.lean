import AggregateSync.Mapping.Registry

/-!
# Assembling loaded entities

Entities are loaded level by level before any of them is put into its parent.  Until
then they stand in a list of nodes, each with the number of the node that it was loaded
for.  Assembling moves every entity into its parent, the deepest level first, so that an
entity leaves its node with everything below it attached; in the end only the roots are
left.  A node that its entity has left cannot be used again, which is an internal error.
-/

namespace AggregateSync

/-- A loaded entity and where it belongs. -/
structure LoadedNode where
  /-- The entity, until it is attached. -/
  entity : Option Entity
  /-- The number of the node that it was loaded for.  A root has none. -/
  parent : Option Nat
  /-- The index of the relation that it was loaded for. -/
  relation : Nat

/-- The error of a node that its entity has left. -/
def alreadyAttached (number : Nat) : Error :=
  .custom ("loaded node " ++ toString number ++ " was already attached")

def loadedForNobody (number : Nat) : Error :=
  .custom ("loaded child " ++ toString number ++ " has no parent")

/-- The node of a number, with its entity. -/
def occupied (nodes : List LoadedNode) (number : Nat) : Result (LoadedNode × Entity) :=
  match nodes[number]? with
  | none => .error (alreadyAttached number)
  | some node =>
    match node.entity with
    | some e => .ok (node, e)
    | none => .error (alreadyAttached number)

def attachNode (registry : Registry) (nodes : List LoadedNode) (number : Nat) :
    Result (List LoadedNode) := do
  let (node, child) ← occupied nodes number
  let vacated := nodes.set number { node with entity := none }
  let owner ← match node.parent with
    | some owner => pure owner
    | none => .error (loadedForNobody number)
  let (above, parent) ← occupied vacated owner
  let mapping ← registry.mappingFor parent
  let relation ← mapping.relationAt node.relation
  let completed ← relation.attach parent child
  return vacated.set owner { above with entity := some completed }

def takeEntities : List Nat → List LoadedNode → Result (List Entity)
  | [], _ => .ok []
  | number :: rest, nodes => do
    let (node, e) ← occupied nodes number
    let others ← takeEntities rest (nodes.set number { node with entity := none })
    return e :: others

/-- The roots of loaded nodes with everything below them.  The nodes are given by level,
the roots first, and are attached from the deepest level up. -/
def assemble (registry : Registry) (nodes : List LoadedNode) :
    List (List Nat) → Result (List Entity)
  | [] => .ok []
  | roots :: below => do
    let complete ← below.reverse.flatten.foldlM (attachNode registry) nodes
    takeEntities roots complete

end AggregateSync
