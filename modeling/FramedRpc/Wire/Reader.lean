/-!
# Readers of bytes

A reader takes what it needs from the front of a byte sequence and leaves the rest, or refuses the
input with a flaw. The functions here are shared by the binary encodings; each takes the flaw that
it reports when the input is too short.
-/

namespace FramedRpc.Wire

/-- Reads a value from the front of the input and leaves the rest. -/
abbrev Reader (ε : Type) := StateT (List UInt8) (Except ε)

namespace Reader

variable {ε α : Type}

def byte (short : ε) : Reader ε UInt8
  | [] => .error short
  | b :: rest => .ok (b, rest)

def bytes (short : ε) (size : Nat) : Reader ε (List UInt8) := fun input =>
  let taken := input.take size
  if taken.length < size then .error short else .ok (taken, input.drop size)

/-- The `count` next items after those that are `done`, last first. -/
def itemsAfter (item : Reader ε α) (done : List α) : (count : Nat) → Reader ε (List α)
  | 0 => return done.reverse
  | count + 1 => do
    let v ← item
    itemsAfter item (v :: done) count

def items (item : Reader ε α) (count : Nat) : Reader ε (List α) := itemsAfter item [] count

end Reader

end FramedRpc.Wire
