import FramedRpc.Wire.Json.Lexeme

/-!
# Lists and objects of JSON

The marks between the parts of lists and objects, and the skipping of values whose content does
not matter. Skipping is more lenient than reading: it accepts numbers of any size and texts that
are not UTF-8, and it reports some misplaced commas differently.
-/

namespace FramedRpc.Wire.Json

open Scanner

/-! ## Marks -/

/-- Moves to the next item of a list; false at its end. The comma before the first one is absent. -/
def hasNextItem (first : Bool) : Scanner Bool := do
  match (← peekToken?) with
  | none => failAhead .endOfList
  | some 0x5D => return false
  | some b =>
    if first then return true
    else if b = 0x2C then
      advance
      match (← peekToken?) with
      | none => failAhead .endOfValue
      | some 0x5D => failAhead .trailingComma
      | some _ => return true
    else failAhead .expectedListCommaOrEnd

/-- Moves to the next key of an object; false at its end. -/
def hasNextKey (first : Bool) : Scanner Bool := do
  match (← peekToken?) with
  | none => failAhead .endOfObject
  | some 0x7D => return false
  | some b =>
    if first then
      if b = 0x22 then return true else failAhead .keyNotString
    else if b = 0x2C then
      advance
      match (← peekToken?) with
      | none => failAhead .endOfValue
      | some 0x22 => return true
      | some 0x7D => failAhead .trailingComma
      | some _ => failAhead .keyNotString
    else failAhead .expectedObjectCommaOrEnd

def colon : Scanner Unit := do
  match (← peekToken?) with
  | none => failAhead .endOfObject
  | some 0x3A => advance
  | some _ => failAhead .expectedColon

/-- The end of a list, and what is wrong where it does not end. The place reached counts in both
cases: a flaw of the list as a whole is reported there. -/
def listEnd (c : Cursor) : Cursor × Option Flaw :=
  let c := c.skipBlanks
  match c.peek? with
  | none => (c, some (c.flawAhead .endOfList))
  | some 0x5D => (c.advance, none)
  | some 0x2C =>
    let c := c.advance.skipBlanks
    match c.peek? with
    | some 0x5D => (c, some (c.flawAhead .trailingComma))
    | _ => (c, some (c.flawAhead .trailingCharacters))
  | some _ => (c, some (c.flawAhead .trailingCharacters))

/-- The end of an object, like `listEnd`. -/
def objectEnd (c : Cursor) : Cursor × Option Flaw :=
  let c := c.skipBlanks
  match c.peek? with
  | none => (c, some (c.flawAhead .endOfObject))
  | some 0x7D => (c.advance, none)
  | some 0x2C => (c, some (c.flawAhead .trailingComma))
  | some _ => (c, some (c.flawAhead .trailingCharacters))

/-! ## Skipping -/

def skipExponent : Scanner Unit := do
  advance
  let _ ← exponentSign
  match (← digits) with
  | [] => do
    advance
    fail .invalidNumber
  | _ => return ()

def skipAnyExponent : Scanner Unit := do
  match (← peek?) with
  | some 0x65 | some 0x45 => skipExponent
  | _ => return ()

def skipFraction : Scanner Unit := do
  match (← peek?) with
  | some 0x2E =>
    advance
    match (← digits) with
    | [] => failAhead .invalidNumber
    | _ => skipAnyExponent
  | _ => skipAnyExponent

def skipNumber : Scanner Unit := do
  match (← next?) with
  | none => fail .invalidNumber
  | some b =>
    if b = 0x30 then
      match (← peek?) with
      | some d => if isDigit d then failAhead .invalidNumber else skipFraction
      | none => return ()
    else if isDigit b then
      let _ ← digits
      skipFraction
    else fail .invalidNumber

/-- Skips a string after its opening quote. Each round reads at least one byte. -/
def skipString : (rounds : List UInt8) → Scanner Unit
  | [] => fail .endOfString
  | _ :: rounds => do
    match (← peek?) with
    | none => fail .endOfString
    | some b =>
      if b = 0x22 then advance
      else if b = 0x5C then
        advance
        let e ← nextInString
        match shortEscape? e with
        | some _ => skipString rounds
        | none =>
          if e = 0x75 then
            let _ ← hexEscape
            skipString rounds
          else fail .invalidEscape
      else if b < 0x20 then fail .controlCharacter
      else
        advance
        skipString rounds

inductive Bracket where
  | list
  | object

def skipKey : Scanner Unit := do
  match (← peekToken?) with
  | none => failAhead .endOfObject
  | some 0x22 =>
    advance
    skipString (← get).rest
    colon
  | some _ => failAhead .keyNotString

mutual

/-- Skips a value inside brackets, of which the innermost come first, and what follows up to the end
of the outermost ones. Each round reads at least one byte. -/
def skipValues : (rounds : List UInt8) → List Bracket → Scanner Unit
  | [], _ => failAhead .endOfValue
  | _ :: rounds, brackets => do
    match (← peekValue) with
    | 0x6E => do advance; wordNull; skipAfter rounds brackets
    | 0x74 => do advance; wordTrue; skipAfter rounds brackets
    | 0x66 => do advance; wordFalse; skipAfter rounds brackets
    | 0x2D => do advance; skipNumber; skipAfter rounds brackets
    | 0x22 => do advance; skipString (← get).rest; skipAfter rounds brackets
    | 0x5B => do
      advance
      match (← peekToken?) with
      | none => failAhead .endOfList
      | some 0x5D => do advance; skipAfter rounds brackets
      | some _ => skipValues rounds (.list :: brackets)
    | 0x7B => do
      advance
      match (← peekToken?) with
      | none => failAhead .endOfObject
      | some 0x7D => do advance; skipAfter rounds brackets
      | some _ => do skipKey; skipValues rounds (.object :: brackets)
    | b =>
      if isDigit b then do skipNumber; skipAfter rounds brackets
      else failAhead .expectedValue

/-- Skips what follows a value inside brackets. -/
def skipAfter : (rounds : List UInt8) → List Bracket → Scanner Unit
  | _, [] => return ()
  | [], _ => failAhead .endOfValue
  | _ :: rounds, .list :: brackets => do
    match (← peekToken?) with
    | none => failAhead .endOfList
    | some 0x2C => do advance; skipValues rounds (.list :: brackets)
    | some 0x5D => do advance; skipAfter rounds brackets
    | some _ => failAhead .expectedListCommaOrEnd
  | _ :: rounds, .object :: brackets => do
    match (← peekToken?) with
    | none => failAhead .endOfObject
    | some 0x2C => do advance; skipKey; skipValues rounds (.object :: brackets)
    | some 0x7D => do advance; skipAfter rounds brackets
    | some _ => failAhead .expectedObjectCommaOrEnd

end

def skipValue : Scanner Unit := do
  skipValues (0 :: (← get).rest) []

end FramedRpc.Wire.Json
