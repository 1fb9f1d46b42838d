import AggregateSync.Mapping.Registry

/-!
# Paths

A path leads from the root of an aggregate to one of its members: each segment names
a relation by its index and a child by its position.  `Registry.resolve` reads the
member at a path and `Registry.locate` opens its place for writing.  Reading checks
that children are of declared classes; writing does not.
-/

namespace AggregateSync

/-- A step from a parent to a child. -/
structure Segment where
  relation : Nat
  index : Nat
  deriving DecidableEq, Repr

/-- The steps from the root to a member. -/
abbrev Path := List Segment

namespace Path

def parent? (path : Path) : Option Path :=
  if path.isEmpty then none else some path.dropLast

def ancestors (path : Path) : List Path :=
  (List.range (path.length + 1)).reverse.map fun depth => path.take depth

def display (path : Path) : String :=
  "root" ++ String.join (path.map fun segment =>
    "/" ++ toString segment.relation ++ "[" ++ toString segment.index ++ "]")

end Path

/-- The error of a path that leads nowhere. -/
def stalePath (path : Path) : Error :=
  .configure .invalidArgument
    ("path " ++ Path.display path ++ " no longer resolves in the graph")

/-- A member of a graph, and the graph with another entity in its place. -/
structure Place where
  entity : Entity
  replace : Entity → Entity

namespace Registry

def descend (registry : Registry) (whole : Path) : Path → Entity → Result Entity
  | [], e => .ok e
  | segment :: rest, e => do
    let mapping ← registry.mappingFor e
    let relation ← mapping.relationAt segment.relation
    let children ← relation.children e
    match children[segment.index]? with
    | some child => registry.descend whole rest child
    | none => .error (stalePath whole)

def resolve (registry : Registry) (root : Entity) (path : Path) : Result Entity :=
  registry.descend path path root

def descendToPlace (registry : Registry) (whole : Path) : Path → Entity → Result Place
  | [], e => .ok ⟨e, id⟩
  | segment :: rest, e => do
    let mapping ← registry.mappingFor e
    let relation ← mapping.relationAt segment.relation
    let children ← relation.held e
    match children[segment.index]? with
    | some child => do
      let place ← registry.descendToPlace whole rest child
      return ⟨place.entity, fun other =>
        e.replaceChild relation.slot segment.index (place.replace other)⟩
    | none => .error (stalePath whole)

def locate (registry : Registry) (root : Entity) (path : Path) : Result Place :=
  registry.descendToPlace path path root

/-- The graph with the member at a path changed, as the mapping of its class allows. -/
def update (registry : Registry) (root : Entity) (path : Path)
    (change : ClassMapping → Entity → Result Entity) : Result Entity := do
  let place ← registry.locate root path
  let mapping ← registry.mappingFor place.entity
  return place.replace (← change mapping place.entity)

end Registry

end AggregateSync
