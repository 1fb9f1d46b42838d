import AggregateSync.Json.Syntax

/-!
# Bytes in hexadecimal

A byte string is written with two digits a byte, the high half first, in lower case.
Reading takes digits of either case and refuses a text with another character or an
odd number of digits, so every byte string reads back from its text.
-/

namespace AggregateSync

namespace Value

def hexPair (byte : UInt8) : List Char :=
  [Json.hexDigit (byte.toNat / 16), Json.hexDigit (byte.toNat % 16)]

def hexText (data : List UInt8) : String := String.ofList (data.flatMap hexPair)

/-- The bytes that digits stand for, two a byte. -/
def ofHexPairs? : List Char → Option (List UInt8)
  | [] => some []
  | [_] => none
  | high :: low :: rest => do
    let first ← JsonSyntax.hexValue? high
    let second ← JsonSyntax.hexValue? low
    return UInt8.ofNat (first * 16 + second) :: (← ofHexPairs? rest)

def ofHexText? (digits : String) : Option (List UInt8) := ofHexPairs? digits.toList

theorem hexValue?_hexDigit {n : Nat} (hsmall : n < 16) :
    JsonSyntax.hexValue? (Json.hexDigit n) = some n := by
  have hall : ∀ n < 16, JsonSyntax.hexValue? (Json.hexDigit n) = some n := by decide
  exact hall n hsmall

/-- Every byte string reads back from its text. -/
theorem ofHexText?_hexText (data : List UInt8) : ofHexText? (hexText data) = some data := by
  simp only [ofHexText?, hexText, String.toList_ofList]
  induction data with
  | nil => rfl
  | cons byte rest ih =>
    have hbound : byte.toNat < 256 := byte.toNat_lt
    have hhalves : byte.toNat / 16 * 16 + byte.toNat % 16 = byte.toNat := by omega
    have hbyte : UInt8.ofNat (byte.toNat / 16 * 16 + byte.toNat % 16) = byte := by
      rw [hhalves]
      exact UInt8.ofNat_toNat
    have hhigh := hexValue?_hexDigit (show byte.toNat / 16 < 16 by omega)
    have hlow := hexValue?_hexDigit (show byte.toNat % 16 < 16 by omega)
    simp only [List.flatMap_cons, hexPair, List.cons_append, List.nil_append, ofHexPairs?, hhigh,
      hlow, ih, hbyte, Option.bind_eq_bind, Option.bind_some, Option.pure_def]

end Value

end AggregateSync
