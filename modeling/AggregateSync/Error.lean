import AggregateSync.Value.Convert
import AggregateSync.Value.Text

/-!
# Errors

An error is one of a few families.  Configuration errors say that the mapping of
classes to tables cannot answer what was asked; integrity errors say that rows or
a graph contradict the declared structure; a statement error wraps what a database
call failed with, together with the statement.  `Error.message` holds every
wording.
-/

namespace AggregateSync

/-- What is wrong with the mapping of classes, or with its use. -/
inductive ConfigurationFault where
  | missingMapping
  | missingForeignKey
  | missingKey
  | keyGeneration
  | typeMismatch
  | invalidRelation
  | invalidDiscriminator
  | invalidArgument
  deriving DecidableEq, Repr

/-- A configuration error, with the class it is about and a second class if there
is one. -/
structure ConfigurationError where
  fault : ConfigurationFault
  detail : String
  subject : Option String
  related : Option String
  deriving DecidableEq, Repr

/-- How rows or a graph contradict the declared structure. -/
inductive IntegrityFault where
  /-- The foreign key of a row matches no parent. -/
  | unmatchedForeignKey
  /-- Two entities of a graph have one identity. -/
  | duplicateIdentity
  /-- A one-to-one relation has several rows for a parent. -/
  | duplicateOneToOne
  deriving DecidableEq, Repr

/-- An integrity error, with the foreign key or identity that is at odds. -/
structure IntegrityError where
  fault : IntegrityFault
  parentType : String
  childType : String
  relation : Option String
  value : Value

/-- Everything that an operation can fail with. -/
inductive Error where
  | configuration (e : ConfigurationError)
  | integrity (e : IntegrityError)
  /-- A failed statement, the class it read or wrote and the entity it wrote. -/
  | statement (sql : String) (params : List Value) (subject : Option String)
      (entity : Option String) (source : Error)
  | notFound (subject : String) (key : List Value)
  | connection (detail : String) (source : Option String)
  | query (detail : String) (sql : Option String) (state : Option String)
      (source : Option String)
  | conversion (e : ConversionError)
  | transaction (detail : String)
  | cancelled
  | custom (detail : String)

abbrev Result (α : Type) := Except Error α

namespace ConfigurationFault

def label : ConfigurationFault → String
  | missingMapping => "missing mapping"
  | missingForeignKey => "missing foreign key"
  | missingKey => "missing key"
  | keyGeneration => "key generation"
  | typeMismatch => "type mismatch"
  | invalidRelation => "invalid relation"
  | invalidDiscriminator => "invalid discriminator"
  | invalidArgument => "invalid argument"

def names : List (String × ConfigurationFault) :=
  [("MissingMapping", missingMapping), ("MissingForeignKey", missingForeignKey),
    ("MissingKey", missingKey), ("KeyGeneration", keyGeneration),
    ("TypeMismatch", typeMismatch), ("InvalidRelation", invalidRelation),
    ("InvalidDiscriminator", invalidDiscriminator), ("InvalidArgument", invalidArgument)]

end ConfigurationFault

namespace IntegrityFault

def names : List (String × IntegrityFault) :=
  [("UnmatchedForeignKey", unmatchedForeignKey), ("DuplicateIdentity", duplicateIdentity),
    ("DuplicateOneToOne", duplicateOneToOne)]

end IntegrityFault

namespace ConfigurationError

/-- The fault, its details and the classes concerned; a second class shows only
beside the first. -/
def message (e : ConfigurationError) : String :=
  e.fault.label ++ ": " ++ e.detail ++
    match e.subject, e.related with
    | some subject, some related => " (" ++ subject ++ " -> " ++ related ++ ")"
    | some subject, none => " (" ++ subject ++ ")"
    | none, _ => ""

end ConfigurationError

namespace IntegrityError

def message (e : IntegrityError) : String :=
  let relation := e.relation.getD "?"
  match e.fault with
  | .unmatchedForeignKey =>
    e.childType ++ " row with foreign key " ++ e.value.display ++ " matches no loaded " ++
      e.parentType ++ " (relation '" ++ relation ++ "')"
  | .duplicateIdentity =>
    "identity " ++ e.value.display ++ " appears more than once for " ++ e.childType ++
      " in one graph"
  | .duplicateOneToOne =>
    "one-to-one relation '" ++ relation ++ "' on " ++ e.parentType ++
      " received several " ++ e.childType ++ " rows for key " ++ e.value.display

end IntegrityError

namespace ConversionError

def message (e : ConversionError) : String :=
  let place := match e.column with
    | some column => " in column '" ++ column ++ "'"
    | none => ""
  "Type error" ++ place ++ ": expected " ++ e.expected ++ ", found " ++ e.actual

end ConversionError

namespace Error

/-- A configuration error that names no class. -/
def configure (fault : ConfigurationFault) (detail : String) : Error :=
  .configuration ⟨fault, detail, none, none⟩

def configureFor (fault : ConfigurationFault) (subject : String) (detail : String) : Error :=
  .configuration ⟨fault, detail, some subject, none⟩

def configureBetween (fault : ConfigurationFault) (subject related : String)
    (detail : String) : Error :=
  .configuration ⟨fault, detail, some subject, some related⟩

def message : Error → String
  | configuration e => "Configuration error: " ++ e.message
  | integrity e => "Integrity error: " ++ e.message
  | statement sql params subject _ source =>
    "Statement failed: " ++ message source ++ " [sql: " ++ sql ++
      (if params.isEmpty then "" else "; params: " ++ Value.displayItems params) ++
      (match subject with
        | some name => "; entity: " ++ name
        | none => "") ++ "]"
  | notFound subject key =>
    subject ++ " with key (" ++ Value.displayItems key ++ ") not found"
  | connection detail _ => "Connection error: " ++ detail
  | query detail _ state _ =>
    match state with
    | some code => "Query error (SQLSTATE " ++ code ++ "): " ++ detail
    | none => "Query error: " ++ detail
  | conversion e => e.message
  | transaction detail => "Transaction error: " ++ detail
  | cancelled => "Operation cancelled"
  | custom detail => detail

def configurationFault? : Error → Option ConfigurationFault
  | configuration e => some e.fault
  | _ => none

def integrityFault? : Error → Option IntegrityFault
  | integrity e => some e.fault
  | _ => none

def isNotFound : Error → Bool
  | notFound _ _ => true
  | _ => false

def sql? : Error → Option String
  | statement sql _ _ _ _ => some sql
  | query _ sql _ _ => sql
  | _ => none

/-- The error inside all statement wrappers. -/
def rootCause : Error → Error
  | statement _ _ _ _ source => rootCause source
  | e => e

/-- The texts of what an error was caused by, the nearest cause first. -/
def causes : Error → List String
  | statement _ _ _ _ source => message source :: causes source
  | connection _ source => source.toList
  | query _ _ _ source => source.toList
  | _ => []

end Error

end AggregateSync
