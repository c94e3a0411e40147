import FramedRpc.Text.Numeral

/-!
# Workers

The methods of a server run on a limited number of workers. Whoever wants to run one first takes a
permit, waits while there is none, and gives it back when the method has ended, however it ended. A
pool that is closed hands out no permits any more.
-/

namespace FramedRpc

/-- The permits of a server: those that are free and those that are held. -/
structure WorkerPool where
  free : Nat
  held : Nat
  closed : Bool
  deriving DecidableEq, Repr

namespace WorkerPool

def countLimit : Nat := 0x1FFFFFFFFFFFFFFF

def tooManyMessage : String :=
  "a semaphore may not have more than MAX_PERMITS permits (" ++ Numeral.text countLimit ++ ")"

/-- A pool of at least one worker. -/
def ofCount (count : Nat) : WorkerPool := ⟨max count 1, 0, false⟩

/-- Whether a pool of so many workers can be made. -/
def admits (count : Nat) : Bool := max count 1 ≤ countLimit

/-- Takes a permit if one is free. -/
def acquire? (p : WorkerPool) : Option WorkerPool :=
  match p.closed, p.free with
  | false, free + 1 => some { p with free, held := p.held + 1 }
  | _, _ => none

/-- Gives a permit back, if one is held. -/
def release (p : WorkerPool) : WorkerPool :=
  match p.held with
  | 0 => p
  | held + 1 => { p with free := p.free + 1, held }

end WorkerPool

end FramedRpc
