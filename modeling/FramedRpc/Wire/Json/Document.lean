import FramedRpc.Wire.Json.Decoder

/-!
# JSON documents

A JSON text of any shape. Lists and objects may be nested up to a limit; of several members of an
object with one key the last counts.
-/

namespace FramedRpc.Wire.Json

open Scanner

inductive Document where
  | null
  | bool (b : Bool)
  | number (n : Number)
  | string (s : String)
  | list (items : List Document)
  | object (members : List (String × Document))
  deriving Inhabited

namespace Document

/-- The number of brackets that may be open at a time. -/
def nestingLimit : Nat := 127

def put (members : List (String × Document)) (key : String) (value : Document) :
    List (String × Document) :=
  (members.filter fun m => m.1 ≠ key) ++ [(key, value)]

def get? (key : String) : Document → Option Document
  | .object members => (members.find? fun m => m.1 = key).map Prod.snd
  | _ => none

/-- A value, whose brackets are left to `nested`. -/
def readWith (nested : Scanner Document) : Scanner Document := do
  match (← peekValue) with
  | 0x6E => do advance; wordNull; return .null
  | 0x74 => do advance; wordTrue; return .bool true
  | 0x66 => do advance; wordFalse; return .bool false
  | 0x2D => do advance; return .number (← Json.number false)
  | 0x22 => do advance; return .string (← stringAfterQuote)
  | 0x5B | 0x7B => nested
  | b =>
    if isDigit b then return .number (← Json.number true)
    else failAhead .expectedValue

/-- A list or an object, from its bracket on, if there are `levels` more brackets to open. -/
def readNested : (levels : Nat) → Scanner Document
  | 0 => failAhead .tooDeep
  | levels + 1 => do
    let value := readWith (readNested levels)
    match (← next?) with
    | some 0x5B => closing listEnd (part do return .list (← items value (← get).rest []))
    | _ =>
      closing objectEnd do
        let member := fun key done => part do
          colon
          return put done key (← value)
        return .object (← members member (← get).rest true [])

def parse (text : List UInt8) : Except Flaw Document := do
  let (d, reached) ← readWith (readNested nestingLimit) (.start text)
  endOfText.run' reached
  return d

end Document

end FramedRpc.Wire.Json
