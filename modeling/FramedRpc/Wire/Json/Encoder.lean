import FramedRpc.Text.Utf8
import FramedRpc.Wire.Shape

/-!
# Writing JSON

Values are written without blanks. Byte strings are lists of numbers, pairs are lists, absent
values are `null`, and records are objects with their fields in order.
-/

namespace FramedRpc.Wire.Json

def escapeLetter? (c : Char) : Option Char :=
  match c with
  | '"' => some '"'
  | '\\' => some '\\'
  | '\x08' => some 'b'
  | '\x0c' => some 'f'
  | '\n' => some 'n'
  | '\r' => some 'r'
  | '\t' => some 't'
  | _ => none

/-- A character of a string. -/
def escapeChar (c : Char) : List Char :=
  match escapeLetter? c with
  | some letter => ['\\', letter]
  | none =>
    if c.toNat < 0x20 then
      ['\\', 'u', '0', '0', Nat.digitChar (c.toNat / 16), Nat.digitChar (c.toNat % 16)]
    else [c]

/-- A text between quotes. -/
def encodeString (s : String) : List UInt8 :=
  0x22 :: (s.toList.flatMap escapeChar).flatMap (fun c => Utf8.encodeScalar c.toNat) ++ [0x22]

def encodeNat (n : Nat) : List UInt8 := (Numeral.decimal n).map fun c => c.toNat.toUInt8

def encodeInt (i : Int) : List UInt8 :=
  if i < 0 then 0x2D :: encodeNat i.natAbs else encodeNat i.natAbs

def commaSeparated : List (List UInt8) → List UInt8
  | [] => []
  | [part] => part
  | part :: parts => part ++ 0x2C :: commaSeparated parts

mutual

def encode : (shape : Shape) → shape.Value → List UInt8
  | .unit, _ => [0x6E, 0x75, 0x6C, 0x6C]
  | .bool, true => [0x74, 0x72, 0x75, 0x65]
  | .bool, false => [0x66, 0x61, 0x6C, 0x73, 0x65]
  | .unsigned width, n => encodeNat (width.toNat n)
  | .signed width, i => encodeInt (width.toInt i)
  | .text, s => encodeString s
  | .list item, items => 0x5B :: commaSeparated (items.map fun v => encode item v) ++ [0x5D]
  | .optional _, none => [0x6E, 0x75, 0x6C, 0x6C]
  | .optional item, some v => encode item v
  | .pair first second, (a, b) => 0x5B :: encode first a ++ 0x2C :: encode second b ++ [0x5D]
  | .record _ _ fields, values => 0x7B :: commaSeparated (encodeMembers fields values) ++ [0x7D]

def encodeMembers : (fields : Fields) → fields.Values → List (List UInt8)
  | .nil, _ => []
  | .cons name shape rest, (v, values) =>
    (encodeString name ++ 0x3A :: encode shape v) :: encodeMembers rest values

end

end FramedRpc.Wire.Json
