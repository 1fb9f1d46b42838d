import AggregateSync.Graph.Path

/-!
# Traversal

A traversal lists the members of an aggregate, each before its descendants, the
relations in declaration order and the children in the order of their slot.  Two
relations of a class may share a slot; its children are then visited through the
first of them only, so every entity is listed once.
-/

namespace AggregateSync

/-- A member of an aggregate as a traversal finds it. -/
structure Member where
  /-- The identity, unless the entity was never saved. -/
  key : Option IdentityKey
  entity : Entity
  mapping : ClassMapping
  path : Path
  /-- The number of the parent in the traversal. -/
  parent : Option Nat
  /-- The index of the relation that holds the member. -/
  relation : Option Nat
  /-- The numbers of the children in the traversal. -/
  children : List Nat

namespace Member

/-- How many steps the member is away from the root. -/
def depth (member : Member) : Nat := member.path.length

end Member

/-- The traversal of one subtree, given its path, the number of its parent, the index
of its relation and its own number. -/
abbrev Visit := Path → Option Nat → Option Nat → Nat → Result (List Member)

/-- Visits the children of a relation from a position on, numbering members from
`next`; gives the numbers of the children and all members below. -/
def visitChildren (path : Path) (parent relation : Nat) :
    Nat → Nat → List Visit → Result (List Nat × List Member)
  | _, _, [] => .ok ([], [])
  | position, next, visit :: rest => do
    let subtree ← visit (path ++ [⟨relation, position⟩]) (some parent) (some relation) next
    let (numbers, others) ←
      visitChildren path parent relation (position + 1) (next + subtree.length) rest
    return (next :: numbers, subtree ++ others)

/-- Visits the relations of an entity from an index on.  The children of a slot that
was visited are checked again but not listed again. -/
def visitRelations (e : Entity) (visits : Slot → List Visit) (path : Path) (parent : Nat) :
    Nat → Nat → List Slot → List Relation → Result (List Nat × List Member)
  | _, _, _, [] => .ok ([], [])
  | index, next, visited, relation :: rest => do
    let _ ← relation.children e
    if visited.contains relation.slot then
      visitRelations e visits path parent (index + 1) next visited rest
    else do
      let (numbers, below) ←
        visitChildren path parent index 0 next (visits relation.slot)
      let (others, beyond) ← visitRelations e visits path parent (index + 1)
        (next + below.length) (relation.slot :: visited) rest
      return (numbers ++ others, below ++ beyond)

mutual

def visitEntity (registry : Registry) : Entity → Visit
  | .mk type fields members, path, parent, relation, number => do
    let e := Entity.mk type fields members
    let mapping ← registry.mappingFor e
    let key ← mapping.identityKey e
    let visits := visitMembers registry members
    let (children, below) ← visitRelations e (fun slot => Entity.inSlot slot visits) path
      number 0 (number + 1) [] mapping.relations
    return ⟨key, e, mapping, path, parent, relation, children⟩ :: below

def visitMembers (registry : Registry) : List (Slot × Entity) → List (Slot × Visit)
  | [] => []
  | (slot, child) :: rest => (slot, visitEntity registry child) :: visitMembers registry rest

end

namespace Registry

/-- The members of an aggregate, the root first. -/
def traverse (registry : Registry) (root : Entity) : Result (List Member) :=
  visitEntity registry root [] none none 0

/-- The members of an aggregate that may be absent, which is an error. -/
def traverse? (registry : Registry) : Option Entity → Result (List Member)
  | some root => registry.traverse root
  | none => .error (.configure .invalidArgument "cannot traverse a null root")

end Registry

/-- One more than the greatest depth. -/
def depthBound {α : Type} (depth : α → Nat) (items : List α) : Nat :=
  items.foldr (fun item bound => max (depth item + 1) bound) 0

/-- Items by depth, those of one depth in the order they had. -/
def byDepth {α : Type} (depth : α → Nat) (items : List α) : List α :=
  (List.range (depthBound depth items)).flatMap fun level =>
    items.filter fun item => depth item == level

def byDepthDescending {α : Type} (depth : α → Nat) (items : List α) : List α :=
  (List.range (depthBound depth items)).reverse.flatMap fun level =>
    items.filter fun item => depth item == level

end AggregateSync
