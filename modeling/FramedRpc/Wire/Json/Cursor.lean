import FramedRpc.Wire.Json.Flaw

/-!
# Places in a JSON text

A cursor holds the bytes that are still to be read and the line and column reached so far. A flaw
is reported either at the cursor or, for a byte that was only looked at, one byte further on.
-/

namespace FramedRpc.Wire.Json

structure Cursor where
  line : Nat
  column : Nat
  rest : List UInt8

namespace Cursor

def start (text : List UInt8) : Cursor := ⟨1, 0, text⟩

def peek? (c : Cursor) : Option UInt8 := c.rest.head?

/-- Moves past the next byte; at the end of the text nothing changes. -/
def advance (c : Cursor) : Cursor :=
  match c.rest with
  | [] => c
  | b :: rest => if b = 0x0A then ⟨c.line + 1, 0, rest⟩ else ⟨c.line, c.column + 1, rest⟩

def flaw (c : Cursor) (reason : Reason) : Flaw := ⟨reason, c.line, c.column⟩

def flawAhead (c : Cursor) (reason : Reason) : Flaw := c.advance.flaw reason

/-- Blanks between the parts of a text: space, tab, line feed and carriage return. -/
def isBlank (b : UInt8) : Bool := b = 0x20 || b = 0x09 || b = 0x0A || b = 0x0D

/-- Moves past blanks from a given line and column. -/
def skipBlanksFrom (line column : Nat) : List UInt8 → Cursor
  | [] => ⟨line, column, []⟩
  | b :: rest =>
    if b = 0x0A then skipBlanksFrom (line + 1) 0 rest
    else if isBlank b then skipBlanksFrom line (column + 1) rest
    else ⟨line, column, b :: rest⟩

def skipBlanks (c : Cursor) : Cursor := skipBlanksFrom c.line c.column c.rest

end Cursor

abbrev Scanner := StateT Cursor (Except Flaw)

namespace Scanner

/-- Refuses the text for a flaw at this place. -/
def fail {α : Type} (reason : Reason) : Scanner α := fun c => .error (c.flaw reason)

/-- Refuses the text for a flaw of the byte that comes next. -/
def failAhead {α : Type} (reason : Reason) : Scanner α := fun c => .error (c.flawAhead reason)

/-- The next byte, which stays to be read. -/
def peek? : Scanner (Option UInt8) := fun c => .ok (c.peek?, c)

def advance : Scanner Unit := fun c => .ok ((), c.advance)

/-- The next byte, which is read. -/
def next? : Scanner (Option UInt8) := fun c => .ok (c.peek?, c.advance)

/-- Moves past blanks and looks at the byte after them. -/
def peekToken? : Scanner (Option UInt8) := fun c => let c := c.skipBlanks; .ok (c.peek?, c)

/-- Moves past blanks and looks at the first byte of the value that has to follow. -/
def peekValue : Scanner UInt8 := do
  match (← peekToken?) with
  | some b => return b
  | none => failAhead .endOfValue

end Scanner

end FramedRpc.Wire.Json
