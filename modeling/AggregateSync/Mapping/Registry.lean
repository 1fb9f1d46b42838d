import AggregateSync.Mapping.Class

/-!
# The registry of classes

A registry holds the mappings of all classes that take part.  It accepts a set of
mappings only if no class occurs twice, every relation leads to mapped classes, and
every property that a relation names exists.  A relation without a foreign key is
accepted; it fails when it is loaded or written.
-/

namespace AggregateSync

namespace ClassMapping

def missingProperty? (mapping : ClassMapping) (name : String) : Option Error :=
  match mapping.requireProperty name with
  | .ok _ => none
  | .error e => some e

def targetFault? (mapping : ClassMapping) (known : List ClassMapping) (relation : Relation)
    (target : Target) : Option Error :=
  match known.find? fun child => child.type.same target.type with
  | none => some (.configureBetween .missingMapping mapping.type.name target.type.name
      ("relation '" ++ relation.name ++ "' targets " ++ target.type.name ++
        ", which has no mapping"))
  | some child =>
    match target.foreignKey with
    | none => none
    | some foreignKey =>
      (mapping.missingProperty? foreignKey.referenced).or
        (foreignKey.property.bind child.missingProperty?)

def linkFault? (mapping : ClassMapping) (known : List ClassMapping) : Option Error :=
  mapping.relations.findSome? fun relation =>
    (relation.discriminator.bind mapping.missingProperty?).or
      (relation.targets.findSome? (mapping.targetFault? known relation))

end ClassMapping

/-- The first class that occurs again after the classes seen so far. -/
def repeatedClass? : List Nat → List ClassMapping → Option Error
  | _, [] => none
  | seen, mapping :: rest =>
    if seen.contains mapping.type.id then
      some (.configureFor .invalidArgument mapping.type.name
        (mapping.type.name ++ " is registered twice"))
    else repeatedClass? (mapping.type.id :: seen) rest

def registryFault? (mappings : List ClassMapping) : Option Error :=
  (repeatedClass? [] mappings).or
    (mappings.findSome? fun mapping => mapping.linkFault? mappings)

/-- A set of mappings with nothing wrong in it. -/
structure Registry where
  mappings : List ClassMapping
  sound : registryFault? mappings = none

namespace Registry

def build (mappings : List ClassMapping) : Result Registry :=
  match hfault : registryFault? mappings with
  | some e => .error e
  | none => .ok ⟨mappings, hfault⟩

def find? (registry : Registry) (id : Nat) : Option ClassMapping :=
  registry.mappings.find? fun mapping => mapping.type.id == id

def mappingOf (registry : Registry) (type : EntityType) : Result ClassMapping :=
  match registry.find? type.id with
  | some mapping => .ok mapping
  | none => .error (.configureFor .missingMapping type.name
      ("no mapping registered for " ++ type.name))

/-- The mapping of a class of which only the number is known; the message shows
that there was one. -/
def mappingById (registry : Registry) (id : Nat) : Result ClassMapping :=
  match registry.find? id with
  | some mapping => .ok mapping
  | none => .error (.configure .missingMapping "no mapping registered for TypeId(?)")

def mappingFor (registry : Registry) (e : Entity) : Result ClassMapping :=
  registry.mappingOf e.type

def identityKey (registry : Registry) (e : Entity) : Result (Option IdentityKey) := do
  (← registry.mappingFor e).identityKey e

end Registry

end AggregateSync
