import FramedRpc.Text.Utf8
import FramedRpc.Wire.Reader
import FramedRpc.Wire.Shape

/-!
# The postcard encoding

Integers wider than a byte are written in groups of seven bits, the lowest first, and signed ones
alternate between the two signs before that. Lengths are such integers of 64 bits, truth values and
the tags of optional values are one byte, and the parts of a pair or record follow each other
without marks. Reading leaves the bytes that it does not need.
-/

namespace FramedRpc.Wire.Postcard

inductive Flaw where
  | endOfInput
  /-- The groups of an integer do not end, or hold more bits than the integer has. -/
  | endlessInteger
  | badBool
  | badTag
  | badText
  /-- A type other than the shapes refuses what was read. -/
  | refused (text : String)
  deriving DecidableEq, Repr

def Flaw.message : Flaw → String
  | .endOfInput => "Hit the end of buffer, expected more data"
  | .endlessInteger =>
    "Found a varint that didn't terminate. Is the usize too big for this platform?"
  | .badBool => "Found a bool that wasn't 0 or 1"
  | .badTag => "Found an Option discriminant that wasn't 0 or 1"
  | .badText => "Tried to parse invalid utf-8"
  | .refused text => text

/-- The number of seven-bit groups that hold an integer of some bits. -/
def groupCount (bits : Nat) : Nat := (bits + 6) / 7

/-- The largest last group of an integer of some bits. -/
def lastGroupLimit (bits : Nat) : Nat := Nat.pow 2 (bits % 7) - 1

/-- Integers take the even numbers from zero upwards and the odd numbers below zero. -/
def zigzag (i : Int) : Nat :=
  if 0 ≤ i then 2 * i.toNat else 2 * (-i).toNat - 1

/-- The integer that stands at a place of the alternating order. -/
def unzigzag (n : Nat) : Int :=
  if n % 2 = 0 then (n / 2 : Nat) else -((n / 2 + 1 : Nat) : Int)

/-! ## Writing -/

/-- A number in at most `count` groups; all but the last have their high bit set. -/
def groups : (count : Nat) → Nat → List UInt8
  | 0, _ => []
  | count + 1, n =>
    if n < 0x80 then [n.toUInt8] else (n % 0x80 + 0x80).toUInt8 :: groups count (n / 0x80)

/-- An unsigned number of a width: one plain byte, or groups. -/
def integer (width : Width) (n : Nat) : List UInt8 :=
  match width with
  | .w8 => [n.toUInt8]
  | width => groups (groupCount width.bits) n

def length (n : Nat) : List UInt8 := integer .w64 n

mutual

def encode : (shape : Shape) → shape.Value → List UInt8
  | .unit, _ => []
  | .bool, b => [if b then 1 else 0]
  | .unsigned width, n => integer width (width.toNat n)
  | .signed width, i => integer width.unsigned (zigzag (width.toInt i))
  | .text, s => let bytes := Utf8.encode s; length bytes.length ++ bytes
  | .list item, items => length items.length ++ items.flatMap fun v => encode item v
  | .optional _, none => [0]
  | .optional item, some v => 1 :: encode item v
  | .pair first second, (a, b) => encode first a ++ encode second b
  | .record _ _ fields, values => encodeFields fields values

def encodeFields : (fields : Fields) → fields.Values → List UInt8
  | .nil, _ => []
  | .cons _ shape rest, (v, values) => encode shape v ++ encodeFields rest values

end

/-! ## Reading -/

/-- Reads up to `count` groups onto `value`, the next of which counts in units of `unit`. -/
def readGroups (lastLimit unit value : Nat) : (count : Nat) → Reader Flaw Nat
  | 0 => throw .endlessInteger
  | count + 1 => do
    let b ← Reader.byte .endOfInput
    let value := value + unit * (b.toNat % 0x80)
    if b < 0x80 then
      if count = 0 ∧ lastLimit < b.toNat then throw .endlessInteger else return value
    else readGroups lastLimit (unit * 0x80) value count

def readInteger (width : Width) : Reader Flaw Nat :=
  match width with
  | .w8 => return (← Reader.byte .endOfInput).toNat
  | width => readGroups (lastGroupLimit width.bits) 1 0 (groupCount width.bits)

/-- A text, which has to be UTF-8. -/
def string : Reader Flaw String := do
  let size ← readInteger .w64
  let content ← Reader.bytes .endOfInput size
  match Utf8.decode content with
  | .ok s => return s
  | .error _ => throw .badText

mutual

def decode : (shape : Shape) → Reader Flaw shape.Value
  | .unit => return ()
  | .bool => do
    match (← Reader.byte .endOfInput) with
    | 0 => return false
    | 1 => return true
    | _ => throw .badBool
  | .unsigned width => return width.fromNat (← readInteger width)
  | .signed width => return width.fromInt (unzigzag (← readInteger width.unsigned))
  | .text => string
  | .list item => do
    let count ← readInteger .w64
    Reader.items (decode item) count
  | .optional item => do
    match (← Reader.byte .endOfInput) with
    | 0 => return none
    | 1 => return some (← decode item)
    | _ => throw .badTag
  | .pair first second => return (← decode first, ← decode second)
  | .record _ _ fields => decodeFields fields

def decodeFields : (fields : Fields) → Reader Flaw fields.Values
  | .nil => return ()
  | .cons _ shape rest => return (← decode shape, ← decodeFields rest)

end

end FramedRpc.Wire.Postcard
