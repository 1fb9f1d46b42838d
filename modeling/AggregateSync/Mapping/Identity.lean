import AggregateSync.Entity
import AggregateSync.Value.Feed

/-!
# Identity keys

The identity of an entity is its class together with the values of its key fields.
Two copies of a graph hold the same row exactly where their identities are equal.
Components are kept in key form; identities that would be hashed differently are
not equal, so zeros of opposite sign differ here although they are equal as values.
-/

namespace AggregateSync

/-- The identity of a stored entity. -/
structure IdentityKey where
  type : EntityType
  values : List Value

namespace IdentityKey

def ofValues (type : EntityType) (values : List Value) : IdentityKey :=
  ⟨type, values.map Value.keyForm⟩

def feed (key : IdentityKey) : List UInt8 := Value.feedItems key.values

/-- The same class, hash and components. -/
def equal (key other : IdentityKey) : Bool :=
  key.type.same other.type && key.feed == other.feed &&
    Value.equalItems key.values other.values

/-- The key as one value: its only component, or the list of them. -/
def asValue (key : IdentityKey) : Value :=
  match key.values with
  | [single] => single
  | values => .array values

def display (key : IdentityKey) : String :=
  key.type.shortName ++ "(" ++ Value.displayItems key.values ++ ")"

end IdentityKey

end AggregateSync
