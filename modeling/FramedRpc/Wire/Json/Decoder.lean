import FramedRpc.Wire.Json.Structure
import FramedRpc.Wire.Shape

/-!
# Reading JSON

A value of a shape is read while the text is scanned, so the first flaw from the left is reported,
be it one of the text or of the value. Records are read from objects, whose unknown keys are
skipped, or from lists of their fields in order; only optional fields may be missing. A flaw of a
record or pair as a whole is reported at the place where it ends.
-/

namespace FramedRpc.Wire

/-- The values of those fields of a record that were read so far. -/
@[reducible] def Fields.Slots : Fields → Type
  | .nil => Unit
  | .cons _ shape rest => Option shape.Value × rest.Slots

def Fields.noSlots : (fields : Fields) → fields.Slots
  | .nil => ()
  | .cons _ _ rest => (none, rest.noSlots)

/-- The value of a field that is missing, if its shape allows for that. -/
def Shape.whenMissing? : (shape : Shape) → Option shape.Value
  | .optional _ => some none
  | _ => none

end FramedRpc.Wire

namespace FramedRpc.Wire.Json

open Scanner

/-- Moves past the value that stands where one of another type is expected, if it is a plain one,
and refuses it. -/
def refuseType {α : Type} (expected : String) : Scanner α := do
  match (← peek?) with
  | some 0x6E => do advance; wordNull; fail (.invalidType .null expected)
  | some 0x74 => do advance; wordTrue; fail (.invalidType (.bool true) expected)
  | some 0x66 => do advance; wordFalse; fail (.invalidType (.bool false) expected)
  | some 0x2D => do advance; fail (.invalidType (← number false).found expected)
  | some 0x22 => do advance; fail (.invalidType (.string (← stringAfterQuote)) expected)
  | some 0x5B => fail (.invalidType .sequence expected)
  | some 0x7B => fail (.invalidType .map expected)
  | some b =>
    if isDigit b then fail (.invalidType (← number true).found expected)
    else failAhead .expectedValue
  | none => failAhead .expectedValue

/-- A number, where a value of the type `expected` has to follow. -/
def expectNumber (expected : String) : Scanner Number := do
  let b ← peekValue
  if b = 0x2D then do advance; number false
  else if isDigit b then number true
  else refuseType expected

def unsigned (width : Width) : Scanner width.Value := do
  match (← expectNumber width.typeName) with
  | .natural n =>
    if n ≤ width.largest then return width.fromNat n
    else fail (.invalidValue (.integer n) width.typeName)
  | .negative i => fail (.invalidValue (.integer i) width.typeName)
  | .double x => fail (.invalidType (.double x) width.typeName)

def signed (width : SignedWidth) : Scanner width.Value := do
  match (← expectNumber width.typeName) with
  | .natural n =>
    if n ≤ width.largest then return width.fromInt n
    else fail (.invalidValue (.integer n) width.typeName)
  | .negative i =>
    if -(width.largest + 1 : Int) ≤ i then return width.fromInt i
    else fail (.invalidValue (.integer i) width.typeName)
  | .double x => fail (.invalidType (.double x) width.typeName)

def string : Scanner String := do
  match (← peekValue) with
  | 0x22 => do advance; stringAfterQuote
  | _ => refuseType "a string"

def bool : Scanner Bool := do
  match (← peekValue) with
  | 0x74 => do advance; wordTrue; return true
  | 0x66 => do advance; wordFalse; return false
  | _ => refuseType "a boolean"

def unit : Scanner Unit := do
  match (← peekValue) with
  | 0x6E => do advance; wordNull
  | _ => refuseType "unit"

/-- Why the parts of a pair or record could not be read: a flaw with a place of its own, or one of
the whole, whose place is where the brackets end after `reached`. -/
inductive Stop where
  | placed (flaw : Flaw)
  | whole (reason : Reason) (reached : Cursor)

abbrev PartScanner := StateT Cursor (Except Stop)

def part {α : Type} (scanner : Scanner α) : PartScanner α := fun c =>
  match scanner c with
  | .ok result => .ok result
  | .error flaw => .error (.placed flaw)

def refuseWhole {α : Type} (reason : Reason) : PartScanner α := fun c => .error (.whole reason c)

/-- Reads parts and the bracket after them, whose place a flaw of the whole takes. -/
def closing {α : Type} (close : Cursor → Cursor × Option Flaw) (parts : PartScanner α) :
    Scanner α := fun c =>
  match parts c with
  | .error (.placed flaw) => .error flaw
  | .error (.whole reason reached) => .error ((close reached).1.flaw reason)
  | .ok (a, reached) =>
    match close reached with
    | (c, none) => .ok (a, c)
    | (_, some flaw) => .error flaw

/-- The items of a list after those that are `done`, last first, up to its end. Each round reads at
least one byte. -/
def items {α : Type} (item : Scanner α) :
    (rounds : List UInt8) → (done : List α) → Scanner (List α)
  | [], _ => failAhead .endOfList
  | _ :: rounds, done => do
    if (← hasNextItem done.isEmpty) then
      let v ← item
      items item rounds (v :: done)
    else return done.reverse

/-- The part of a pair or record at a position. -/
def partAt {α : Type} (position : Nat) (expected : String) (scanner : Scanner α) :
    PartScanner α := do
  if (← part (hasNextItem (position = 0))) then part scanner
  else refuseWhole (.invalidLength position expected)

/-- What a list of the fields of a record is called. -/
def fieldList (name : String) (count : Nat) : String :=
  "struct " ++ name ++ " with " ++ Numeral.text count ++
    (if count = 1 then " element" else " elements")

/-- The members of an object up to its end, each of which adds to what was read so far. Each round
reads at least one byte. -/
def members {α : Type} (member : String → α → PartScanner α) :
    (rounds : List UInt8) → (first : Bool) → α → PartScanner α
  | [], _, _ => part (failAhead .endOfObject)
  | _ :: rounds, first, a => do
    if (← part (hasNextKey first)) then
      let key ← part (do advance; stringAfterQuote)
      members member rounds false (← member key a)
    else return a

/-- The values of all fields of a record; those that are optional may be missing. -/
def complete : (fields : Fields) → fields.Slots → PartScanner fields.Values
  | .nil, _ => return ()
  | .cons _ _ rest, (some v, slots) => return (v, ← complete rest slots)
  | .cons name shape rest, (none, slots) => do
    match shape.whenMissing? with
    | some v => return (v, ← complete rest slots)
    | none => refuseWhole (.missingField name)

mutual

def read : (shape : Shape) → Scanner shape.Value
  | .unit => unit
  | .bool => bool
  | .unsigned width => unsigned width
  | .signed width => signed width
  | .text => string
  | .list item => do
    match (← peekValue) with
    | 0x5B => do
      advance
      closing listEnd (part (do items (read item) (← get).rest []))
    | _ => refuseType "a sequence"
  | .optional item => do
    match (← peekToken?) with
    | some 0x6E => do advance; wordNull; return none
    | _ => return some (← read item)
  | .pair first second => do
    let expected := "a tuple of size 2"
    match (← peekValue) with
    | 0x5B => do
      advance
      closing listEnd do
        let a ← partAt 0 expected (read first)
        let b ← partAt 1 expected (read second)
        return (a, b)
    | _ => refuseType expected
  | .record _ name fields => do
    match (← peekValue) with
    | 0x5B => do
      advance
      closing listEnd (readList (fieldList name fields.count) 0 fields)
    | 0x7B => do
      advance
      closing objectEnd do
        let slots ← members (readMember fields) (← get).rest true fields.noSlots
        complete fields slots
    | _ => refuseType ("struct " ++ name)

/-- Reads fields from a list, the first of them at a position. -/
def readList (expected : String) (position : Nat) : (fields : Fields) → PartScanner fields.Values
  | .nil => return ()
  | .cons _ shape rest => do
    let v ← partAt position expected (read shape)
    return (v, ← readList expected (position + 1) rest)

/-- Reads the member of an object after its key. A key that names no field is skipped. -/
def readMember : (fields : Fields) → (key : String) → fields.Slots → PartScanner fields.Slots
  | .nil, _, _ => do
    part colon
    part skipValue
  | .cons name shape rest, key, (slot, slots) => do
    if key = name then
      if slot.isSome then refuseWhole (.duplicateField name)
      else
        part colon
        return (some (← part (read shape)), slots)
    else return (slot, ← readMember rest key slots)

end

/-- Refuses what follows the value of a text. -/
def endOfText : Scanner Unit := do
  match (← peekToken?) with
  | none => return ()
  | some _ => failAhead .trailingCharacters

def decode (shape : Shape) (text : List UInt8) : Except Flaw shape.Value := do
  let (v, reached) ← read shape (.start text)
  endOfText.run' reached
  return v

end FramedRpc.Wire.Json
