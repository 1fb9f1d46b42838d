import AggregateSync.Numeric.Layout

/-!
# JSON documents

A `Json` is the value of a document: whole numbers and floats are told apart, and
the members of an object are kept sorted by name with one value per name, so that
two documents with the same members are the same value.  `Json.text` writes the
compact form.
-/

namespace AggregateSync

/-- A whole number of 64 bits, or a finite float. -/
inductive JsonNumber where
  | integer (n : Int)
  | float (x : Double)
  deriving DecidableEq, Repr

inductive Json where
  | null
  | bool (b : Bool)
  | number (n : JsonNumber)
  | string (s : String)
  | array (items : List Json)
  | object (members : List (String × Json))
  deriving Repr

namespace JsonNumber

/-- Numbers are equal within their kind; floats numerically. -/
def equal : JsonNumber → JsonNumber → Bool
  | integer m, integer n => decide (m = n)
  | float x, float y => x.equal y
  | _, _ => false

/-- Floats from `0.00001` to below `1e16` are written positionally, whole ones
with `.0`, and a tie goes to the even digit. -/
def layout : Layout := ⟨.toEven, some (-5, 15), ".0"⟩

def text : JsonNumber → String
  | integer n => toString n
  | float x => layout.text x

end JsonNumber

namespace Json

mutual

def equal : Json → Json → Bool
  | null, null => true
  | bool a, bool b => a == b
  | number m, number n => m.equal n
  | string s, string t => s == t
  | array items, array others => equalItems items others
  | object members, object others => equalMembers members others
  | _, _ => false

def equalItems : List Json → List Json → Bool
  | [], [] => true
  | a :: items, b :: others => equal a b && equalItems items others
  | _, _ => false

def equalMembers : List (String × Json) → List (String × Json) → Bool
  | [], [] => true
  | (name, a) :: members, (other, b) :: others =>
    name == other && equal a b && equalMembers members others
  | _, _ => false

end

/-- Puts a member in its place by name; an earlier value of the name is lost. -/
def insertMember (name : String) (value : Json) :
    List (String × Json) → List (String × Json)
  | [] => [(name, value)]
  | (other, old) :: rest =>
    if name < other then (name, value) :: (other, old) :: rest
    else if name = other then (name, value) :: rest
    else (other, old) :: insertMember name value rest

/-- The object of a list of members, the last of equal names kept. -/
def ofMembers (members : List (String × Json)) : Json :=
  object (members.foldl (fun sorted member => insertMember member.1 member.2 sorted) [])

def hexDigit (n : Nat) : Char := if n < 10 then Char.ofNat (48 + n) else Char.ofNat (87 + n)

/-- A character inside a string: quotes, backslashes and control characters are
escaped, the common ones by a letter. -/
def escape (c : Char) : List Char :=
  if c = '"' then ['\\', '"']
  else if c = '\\' then ['\\', '\\']
  else if c = '\x08' then ['\\', 'b']
  else if c = '\t' then ['\\', 't']
  else if c = '\n' then ['\\', 'n']
  else if c = '\x0c' then ['\\', 'f']
  else if c = '\r' then ['\\', 'r']
  else if c.toNat < 32 then
    ['\\', 'u', '0', '0', hexDigit (c.toNat / 16), hexDigit (c.toNat % 16)]
  else [c]

def quote (s : String) : String :=
  "\"" ++ String.ofList (s.toList.flatMap escape) ++ "\""

mutual

def text : Json → String
  | null => "null"
  | bool b => if b then "true" else "false"
  | number n => n.text
  | string s => quote s
  | array items => "[" ++ itemsText items ++ "]"
  | object members => "\x7b" ++ membersText members ++ "\x7d"

def itemsText : List Json → String
  | [] => ""
  | [item] => text item
  | item :: rest => text item ++ "," ++ itemsText rest

def membersText : List (String × Json) → String
  | [] => ""
  | [(name, value)] => quote name ++ ":" ++ text value
  | (name, value) :: rest => quote name ++ ":" ++ text value ++ "," ++ membersText rest

end

end Json

end AggregateSync
