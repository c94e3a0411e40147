import FramedRpc.Message

/-!
# Pending calls

The table of the calls that wait for a response, by the identifiers of their requests. Whoever
registers a call gets a ticket, on which one outcome is delivered: the response, a fault, or nothing
because the call was forgotten. A guard forgets, when it is dropped, whatever call its identifier
then stands for.
-/

namespace FramedRpc

abbrev ConnectionId := UInt64

abbrev Ticket := Nat

structure PendingCall where
  id : String
  ticket : Ticket
  connection : ConnectionId
  deriving DecidableEq, Repr

inductive Settlement where
  | delivered (result : Except Fault Response)
  /-- Nothing is delivered any more: the call was forgotten, or its outcome was collected. -/
  | closed

/-- The calls that wait, and the outcomes of those that do not wait any more. -/
structure PendingCalls where
  waiting : List PendingCall
  settled : List (Ticket × Settlement)
  /-- The ticket of the next call. -/
  nextTicket : Ticket

namespace PendingCalls

def empty : PendingCalls := ⟨[], [], 0⟩

def size (p : PendingCalls) : Nat := p.waiting.length

def isEmpty (p : PendingCalls) : Bool := p.waiting.isEmpty

def find? (p : PendingCalls) (id : String) : Option PendingCall :=
  p.waiting.find? fun c => c.id = id

/-- How the call of a ticket ended; absent while it waits. -/
def outcome? (p : PendingCalls) (ticket : Ticket) : Option Settlement := p.settled.lookup ticket

/-- Registers a call that is sent over a connection. An identifier stands for one call at a time. -/
def register (p : PendingCalls) (id : String) (connection : ConnectionId) :
    Except Fault Ticket × PendingCalls :=
  match p.find? id with
  | some _ => (.error (.invalidRequest ("Request id " ++ id ++ " is already in flight")), p)
  | none =>
    (.ok p.nextTicket,
      { p with
        waiting := p.waiting ++ [⟨id, p.nextTicket, connection⟩]
        nextTicket := p.nextTicket + 1 })

def settle (p : PendingCalls) (id : String) (s : Settlement) : Bool × PendingCalls :=
  match p.find? id with
  | none => (false, p)
  | some c =>
    (true,
      { p with
        waiting := p.waiting.filter fun other => other.id ≠ id
        settled := p.settled ++ [(c.ticket, s)] })

def complete (p : PendingCalls) (id : String) (r : Response) : Bool × PendingCalls :=
  p.settle id (.delivered (.ok r))

def fail (p : PendingCalls) (id : String) (fault : Fault) : Bool × PendingCalls :=
  p.settle id (.delivered (.error fault))

def remove (p : PendingCalls) (id : String) : Bool × PendingCalls := p.settle id .closed

def dropGuard (p : PendingCalls) (id : String) : PendingCalls := (p.remove id).2

/-- Delivers a fault to every call of a connection, and tells how many there were. -/
def failConnection (p : PendingCalls) (connection : ConnectionId) (fault : Fault) :
    Nat × PendingCalls :=
  let (lost, kept) := p.waiting.partition fun c => c.connection = connection
  (lost.length,
    { p with
      waiting := kept
      settled := p.settled ++ lost.map fun c => (c.ticket, .delivered (.error fault)) })

/-- Collects the outcome of a ticket. What was delivered is handed over once. -/
def collect (p : PendingCalls) (ticket : Ticket) : Option Settlement × PendingCalls :=
  match p.outcome? ticket with
  | none => (none, p)
  | some s =>
    (some s,
      { p with settled := p.settled.map fun o => if o.1 = ticket then (ticket, .closed) else o })

end PendingCalls

end FramedRpc
