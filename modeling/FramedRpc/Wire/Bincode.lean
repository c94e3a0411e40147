import FramedRpc.Text.Utf8
import FramedRpc.Wire.Reader
import FramedRpc.Wire.Shape

/-!
# The bincode encoding

Integers have fixed width and come least significant byte first, lengths have eight bytes, optional
values start with a tag byte, and the parts of a pair or record follow each other without marks.
Reading takes the bytes that a value needs from the front and leaves the others.
-/

namespace FramedRpc.Wire.Bincode

inductive Flaw where
  /-- The input ends inside an integer, a tag or a length. -/
  | endOfInput
  /-- The input ends inside the bytes of a text. -/
  | endOfText
  | badBool (byte : UInt8)
  | badTag (byte : UInt8)
  | badText (flaw : Utf8.Flaw)
  /-- A type other than the shapes refuses what was read. -/
  | refused (text : String)
  deriving DecidableEq, Repr

def Flaw.message : Flaw → String
  | .endOfInput => "io error: unexpected end of file"
  | .endOfText => "io error: "
  | .badBool byte =>
    "invalid u8 while decoding bool, expected 0 or 1, found " ++ Numeral.text byte.toNat
  | .badTag byte => "tag for enum is not valid, found " ++ Numeral.text byte.toNat
  | .badText flaw => "string is not valid utf8: " ++ flaw.message
  | .refused text => text

/-! ## Writing -/

/-- The `size` lowest bytes of a number, the lowest first. -/
def littleEndian : (size : Nat) → Nat → List UInt8
  | 0, _ => []
  | size + 1, n => n.toUInt8 :: littleEndian size (n / 0x100)

def length (n : Nat) : List UInt8 := littleEndian 8 n

mutual

def encode : (shape : Shape) → shape.Value → List UInt8
  | .unit, _ => []
  | .bool, b => [if b then 1 else 0]
  | .unsigned width, n => littleEndian width.bytes (width.toNat n)
  | .signed width, i =>
    littleEndian width.unsigned.bytes (width.toInt i % Nat.pow 2 width.unsigned.bits).toNat
  | .text, s => let bytes := Utf8.encode s; length bytes.length ++ bytes
  | .list item, items => length items.length ++ items.flatMap fun v => encode item v
  | .optional _, none => [0]
  | .optional item, some v => 1 :: encode item v
  | .pair first second, (a, b) => encode first a ++ encode second b
  | .record _ _ fields, values => encodeFields fields values

def encodeFields : (fields : Fields) → fields.Values → List UInt8
  | .nil, _ => []
  | .cons _ shape rest, (v, values) => encode shape v ++ encodeFields rest values

end

/-! ## Reading -/

/-- The number that bytes stand for, the lowest byte first. -/
def ofLittleEndian (bytes : List UInt8) : Nat :=
  bytes.foldr (fun b value => b.toNat + 0x100 * value) 0

/-- An unsigned number of `size` bytes. -/
def number (size : Nat) : Reader Flaw Nat := do
  return ofLittleEndian (← Reader.bytes .endOfInput size)

/-- A text, which has to be UTF-8. -/
def string : Reader Flaw String := do
  let size ← number 8
  let bytes ← Reader.bytes .endOfText size
  match Utf8.decode bytes with
  | .ok s => return s
  | .error flaw => throw (.badText flaw)

/-- The integer whose remainder by `2 ^ bits` is `n`, from the range around zero. -/
def signedOf (bits n : Nat) : Int :=
  if n < Nat.pow 2 (bits - 1) then n else (n : Int) - Nat.pow 2 bits

mutual

def decode : (shape : Shape) → Reader Flaw shape.Value
  | .unit => return ()
  | .bool => do
    match (← Reader.byte .endOfInput) with
    | 0 => return false
    | 1 => return true
    | b => throw (.badBool b)
  | .unsigned width => return width.fromNat (← number width.bytes)
  | .signed width =>
    return width.fromInt (signedOf width.unsigned.bits (← number width.unsigned.bytes))
  | .text => string
  | .list item => do
    let count ← number 8
    Reader.items (decode item) count
  | .optional item => do
    match (← Reader.byte .endOfInput) with
    | 0 => return none
    | 1 => return some (← decode item)
    | b => throw (.badTag b)
  | .pair first second => return (← decode first, ← decode second)
  | .record _ _ fields => decodeFields fields

def decodeFields : (fields : Fields) → Reader Flaw fields.Values
  | .nil => return ()
  | .cons _ shape rest => return (← decode shape, ← decodeFields rest)

end

end FramedRpc.Wire.Bincode
