import AggregateSync.Json.Reading

/-!
# Records and enumerations in JSON

A name of an enumeration is written as a string, or as an object whose only member
has that name and the value `null`.  A record is an object, whose other members are
skipped and whose own members occur at most once, or the list of its fields in
order.
-/

namespace AggregateSync

namespace JsonSyntax

/-- The member of an enumeration that a document names. -/
def oneOf? {α : Type} (names : List (String × α)) (document : JsonSyntax) : Option α := do
  let name ← match document with
    | .string content => content
    | .object [(name, .null)] => name
    | _ => none
  names.lookup name

/-- A whole number between two limits. -/
def integer? (low high : Int) : JsonSyntax → Option Int
  | .number literal =>
    match literal.number? with
    | some (.integer n) => if low ≤ n ∧ n ≤ high then some n else none
    | _ => none
  | _ => none

/-- A count of unsigned 64 bits. -/
def count? (document : JsonSyntax) : Option Nat :=
  (document.integer? 0 (Int.pow 2 64 - 1)).map Int.toNat

/-- The values of a field among members whose names all have text. -/
def fieldValues (name : String) (members : List (Option String × JsonSyntax)) :
    List JsonSyntax :=
  (members.filter fun member => member.1 == some name).map Prod.snd

/-- The fields of a record in the order of `names`, absent ones as `none`. -/
def fields? (names : List String) : JsonSyntax → Option (List (Option JsonSyntax))
  | .object members =>
    if members.any (fun member => member.1.isNone) then none
    else names.mapM fun name =>
      match fieldValues name members with
      | [] => some none
      | [value] => some (some value)
      | _ => none
  | .array items => if items.length = names.length then some (items.map some) else none
  | _ => none

end JsonSyntax

end AggregateSync
