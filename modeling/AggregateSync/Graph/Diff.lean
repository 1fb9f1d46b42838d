import AggregateSync.Graph.Traversal

/-!
# The difference of two graphs

A member of the current graph is added if the snapshot has no member of its identity,
and otherwise modified or unmodified, as its compared properties tell.  A member of
the snapshot whose identity the current graph lacks is removed; one that was never
saved is nobody's loss.  Changes are listed by depth, those of the current graph
first, and each points to the change of its parent.
-/

namespace AggregateSync

/-- What became of a member. -/
inductive ChangeState where
  | added
  | removed
  | modified
  | unmodified
  deriving DecidableEq, Repr

inductive Side where
  | snapshot
  | current
  deriving DecidableEq, Repr

abbrev PropertyFilter := ClassMapping → Property → Bool

/-- A member with what became of it. -/
structure Change where
  state : ChangeState
  side : Side
  type : EntityType
  key : Option IdentityKey
  /-- The path in the graph of the side. -/
  path : Path
  /-- The position of the change of the parent. -/
  parent : Option Nat
  relation : Option Nat
  /-- The names of the properties that differ. -/
  changed : List String
  /-- The identity of the parent in the graph of the side. -/
  parentKey : Option IdentityKey

namespace ChangeState

def label : ChangeState → String
  | added => "Added"
  | removed => "Removed"
  | modified => "Modified"
  | unmodified => "Unmodified"

end ChangeState

namespace Side

def label : Side → String
  | snapshot => "Snapshot"
  | current => "Current"

end Side

namespace Change

def depth (change : Change) : Nat := change.path.length

def isRoot (change : Change) : Bool := change.relation.isNone

def hasKey (key : IdentityKey) (change : Change) : Bool := change.key.any key.equal

end Change

/-- Has the member an identity, and is it this one? -/
def Member.hasKey (key : IdentityKey) (member : Member) : Bool := member.key.any key.equal

/-- The first member whose identity an earlier one has. -/
def firstRepeated : List Member → List Member → Option Member
  | _, [] => none
  | earlier, member :: rest =>
    if member.key.any fun key => earlier.any (Member.hasKey key) then some member
    else firstRepeated (member :: earlier) rest

def checkIdentities (members : List Member) : Result Unit :=
  match firstRepeated [] members with
  | none => .ok ()
  | some member =>
    let parent := (member.parent.bind fun number => members[number]?).getD member
    .error (.integrity ⟨.duplicateIdentity, parent.mapping.type.name,
      member.mapping.type.name, none,
      (member.key.map IdentityKey.asValue).getD .null⟩)

/-- The names of those properties that differ between two entities. -/
def differing (mapping : ClassMapping) (before after : Entity) :
    List Property → Result (List String)
  | [] => .ok []
  | property :: rest => do
    let old ← mapping.get property before
    let new ← mapping.get property after
    let others ← differing mapping before after rest
    return if old.equal new then others else property.name :: others

def changedProperties (filter : PropertyFilter) (mapping : ClassMapping)
    (before after : Entity) : Result (List String) :=
  differing mapping before after (mapping.writableProperties.filter (filter mapping))

/-- The change of a member of a graph, not yet linked to its parent. -/
def Member.change (members : List Member) (state : ChangeState) (side : Side)
    (changed : List String) (member : Member) : Change :=
  { state, side, changed
    type := member.mapping.type
    key := member.key
    path := member.path
    parent := none
    relation := member.relation
    parentKey := (member.parent.bind fun number => members[number]?).bind Member.key }

def currentChange (filter : PropertyFilter) (before after : List Member) (member : Member) :
    Result Change :=
  match member.key.bind fun key => before.find? (Member.hasKey key) with
  | none => .ok (member.change after .added .current [])
  | some previous => do
    let changed ← changedProperties filter member.mapping previous.entity member.entity
    let state := if changed.isEmpty then ChangeState.unmodified else .modified
    return member.change after state .current changed

/-- Is the member saved, and its identity absent from the other graph? -/
def Member.isGone (others : List Member) (member : Member) : Bool :=
  member.key.any fun key => !others.any (Member.hasKey key)

/-- The position of the change of the parent: by the identity of the parent, or by its
path on the same side. -/
def parentPosition (changes : List Change) (change : Change) : Option Nat :=
  if change.isRoot then none
  else
    (change.parentKey.bind fun key => changes.findIdx? (Change.hasKey key)).or
      ((Path.parent? change.path).bind fun path =>
        changes.findIdx? fun other => other.side == change.side && other.path == path)

def linkParents (changes : List Change) : List Change :=
  changes.map fun change => { change with parent := parentPosition changes change }

namespace Registry

/-- The members of a graph that may be absent. -/
def members (registry : Registry) : Option Entity → Result (List Member)
  | some root => registry.traverse root
  | none => .ok []

/-- The changes that lead from a snapshot to a current graph, at least one of which is
given. -/
def compare (registry : Registry) (snapshot current : Option Entity)
    (filter : PropertyFilter) : Result (List Change) := do
  if snapshot.isNone && current.isNone then
    throw (.configure .invalidArgument
      "cannot compare: snapshot and current are both null")
  let before ← registry.members snapshot
  let after ← registry.members current
  checkIdentities before
  checkIdentities after
  let kept ← (byDepth Member.depth after).mapM (currentChange filter before after)
  let gone := ((byDepth Member.depth before).filter (Member.isGone after)).map
    (Member.change before .removed .snapshot [])
  return linkParents (byDepth Change.depth (kept ++ gone))

end Registry

def countState (changes : List Change) (state : ChangeState) : Nat :=
  (changes.filter fun change => change.state == state).length

end AggregateSync
