import FramedRpc.Text.Numeral

/-!
# Hexadecimal byte strings

Every byte is written as two lower-case digits.
-/

namespace FramedRpc.Hex

def encode (bytes : List UInt8) : String :=
  String.ofList (bytes.flatMap fun b => (Numeral.hexText 2 b.toNat).toList)

def digit? (c : Char) : Option Nat :=
  if c.isDigit then some (c.toNat - '0'.toNat)
  else if 'a' ≤ c ∧ c ≤ 'f' then some (c.toNat - 'a'.toNat + 10)
  else none

def ofDigits? : List Char → Option (List UInt8)
  | [] => some []
  | [_] => none
  | a :: b :: rest => do
    let high ← digit? a
    let low ← digit? b
    return (high * 16 + low).toUInt8 :: (← ofDigits? rest)

def decode? (text : String) : Option (List UInt8) := ofDigits? text.toList

end FramedRpc.Hex
