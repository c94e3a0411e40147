/-!
# Signs of life

A supervisor remembers when a connection last read and last wrote a frame. The loop of the
connection asks it for the next deadline and, once that has come, for what is idle: a client whose
writing is idle sends a heartbeat, and a server whose reading is idle closes the connection. Times
and thresholds are counted in milliseconds.
-/

namespace FramedRpc

/-- How long a connection may be silent; a missing threshold sets no limit. -/
structure IdleLimits where
  readIdle : Option Nat
  writeIdle : Option Nat
  deriving DecidableEq, Repr

namespace IdleLimits

/-- How long a client waits before it sends a heartbeat. -/
def standardWriteIdle : Nat := 5000

/-- How long a server waits for a frame. -/
def standardReadIdle : Nat := 30000

def unlimited : IdleLimits := ⟨none, none⟩

/-- A client sends heartbeats and never gives up reading. -/
def client : IdleLimits := ⟨none, some standardWriteIdle⟩

/-- A server gives up reading and never sends heartbeats. -/
def server : IdleLimits := ⟨some standardReadIdle, none⟩

end IdleLimits

/-- What a connection waited for in vain. -/
inductive IdleEvent where
  | readerIdle
  | writerIdle
  deriving DecidableEq, Repr

def IdleEvent.name : IdleEvent → String
  | .readerIdle => "ReaderIdle"
  | .writerIdle => "WriterIdle"

/-- A time was asked for that the clock cannot show. Whoever asks for it breaks off. -/
inductive Overrun where
  | beyondClock
  deriving DecidableEq, Repr

def Overrun.text : Overrun → String
  | .beyondClock => "overflow when adding duration to instant"

/-- The limits of a connection and the times of its last frames. -/
structure Liveness where
  limits : IdleLimits
  lastRead : Nat
  lastWrite : Nat
  deriving DecidableEq, Repr

namespace Liveness

def start (limits : IdleLimits) (now : Nat) : Liveness := ⟨limits, now, now⟩

def recordRead (l : Liveness) (now : Nat) : Liveness := { l with lastRead := now }

def recordWrite (l : Liveness) (now : Nat) : Liveness := { l with lastWrite := now }

/-- The first time that a clock cannot show: its seconds have 63 bits. -/
def clockEnd : Nat := 0x8000000000000000 * 1000

/-- The deadline that a limit sets behind a time, where the clock can show it. -/
def deadlineAfter (time : Nat) : (limit : Option Nat) → Except Overrun (Option Nat)
  | none => .ok none
  | some limit => if time + limit < clockEnd then .ok (some (time + limit)) else .error .beyondClock

def readDeadline (l : Liveness) : Except Overrun (Option Nat) :=
  deadlineAfter l.lastRead l.limits.readIdle

def writeDeadline (l : Liveness) : Except Overrun (Option Nat) :=
  deadlineAfter l.lastWrite l.limits.writeIdle

/-- The earlier of the deadlines that there are. -/
def nextDeadline (l : Liveness) : Except Overrun (Option Nat) := do
  match ← l.readDeadline, ← l.writeDeadline with
  | some r, some w => return some (min r w)
  | some r, none => return some r
  | none, w => return w

def onClock (l : Liveness) : Bool := l.nextDeadline.isOk

def isDue (l : Liveness) (now : Nat) : Bool :=
  match l.nextDeadline with
  | .ok deadline => deadline.any (· ≤ now)
  | .error _ => false

/-- What is idle at a time. Idle reading comes first: to a dead peer no heartbeat need be sent. The
deadline of writing is not looked at then. -/
def poll (l : Liveness) (now : Nat) : Except Overrun (Option IdleEvent) := do
  let read ← l.readDeadline
  if read.any (· ≤ now) then return some .readerIdle
  else
    let write ← l.writeDeadline
    return if write.any (· ≤ now) then some .writerIdle else none

/-- Sleeps from a time until the next deadline, but at most for `limit`. Tells whether the deadline
came, and the time of waking up. -/
def sleep (l : Liveness) (now limit : Nat) : Except Overrun (Bool × Nat) := do
  match ← l.nextDeadline with
  | none => return (false, now + limit)
  | some deadline =>
    if deadline ≤ now then return (true, now)
    else if deadline ≤ now + limit then return (true, deadline)
    else return (false, now + limit)

end Liveness

end FramedRpc
