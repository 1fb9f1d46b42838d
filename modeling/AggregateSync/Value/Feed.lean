import AggregateSync.Value.Basic

/-!
# What a hasher is fed

`Value.feed` is the byte sequence by which values are hashed: a byte for the
variant, then the content in a form that shows its own end.  Numbers take a fixed
number of bytes, text ends in a byte that text never holds, and lists of bytes or
values begin with their length.  NULL and DEFAULT share a feed, and so do times
and timestamps of one number; floats are fed by their bits.
-/

namespace AggregateSync

namespace Value

/-- The lowest bytes of a number, the least first. -/
def littleEndian : Nat → Nat → List UInt8
  | 0, _ => []
  | count + 1, n => UInt8.ofNat n :: littleEndian count (n / 256)

/-- Text in bytes, ended by a byte that no text holds. -/
def textFeed (s : String) : List UInt8 := s.toUTF8.toList ++ [0xff]

def lengthFeed (length : Nat) : List UInt8 := littleEndian 8 length

mutual

def feed : Value → List UInt8
  | null => [0]
  | default => [0]
  | bool b => [1, if b then 1 else 0]
  | tinyInt n => 2 :: littleEndian 1 n.toBitVec.toNat
  | smallInt n => 3 :: littleEndian 2 n.toBitVec.toNat
  | int n => 4 :: littleEndian 4 n.toBitVec.toNat
  | bigInt n => 5 :: littleEndian 8 n.toBitVec.toNat
  | float x => 6 :: littleEndian 4 x.toBits
  | double x => 7 :: littleEndian 8 x.toBits
  | decimal digits => 8 :: textFeed digits
  | text s => 9 :: textFeed s
  | bytes data => 10 :: (lengthFeed data.length ++ data)
  | date days => 11 :: littleEndian 4 days.toBitVec.toNat
  | time micros => 12 :: littleEndian 8 micros.toBitVec.toNat
  | timestamp micros => 12 :: littleEndian 8 micros.toBitVec.toNat
  | uuid u => 13 :: (lengthFeed u.bytes.length ++ u.bytes)
  | json document => 14 :: textFeed document.text
  | array items => 15 :: (lengthFeed items.length ++ feedItems items)

def feedItems : List Value → List UInt8
  | [] => []
  | item :: rest => feed item ++ feedItems rest

end

/-- Is one value found where the other was entered in a table of keys?  Key forms that
would be hashed differently are not found, so zeros of opposite sign stay apart. -/
def sameEntry (a b : Value) : Bool := a.keyForm.feed == b.keyForm.feed && a.keyEqual b

end Value

end AggregateSync
