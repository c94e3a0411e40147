import FramedRpc.Client.Config
import FramedRpc.Client.PendingCalls
import FramedRpc.Endpoint

/-!
# Connections of a client

A connection carries the requests of many callers to one endpoint, all in the encoding of one
serializer. Its loop writes the requests that callers queue, reads what the peer sends, and sends a
heartbeat when nothing was written for long. Once the loop is left the connection ends in stages, in
an order on which its callers rely: it is marked inactive, its queue goes, it leaves its slot, and
the calls that still wait for it fail. A deadline that the clock cannot show breaks the loop off
instead: its queue goes, and nothing else happens.
-/

namespace FramedRpc

/-- What a connection is made for. -/
structure ConnectionKey where
  endpoint : Endpoint
  serializer : Serializer
  deriving DecidableEq, Repr

abbrev SlotId := Nat

namespace Connection

inductive Reason where
  | closedLocally
  | closedByPeer
  | readIdle
  /-- The bytes of the peer are refused or cannot be read. -/
  | unreadable (fault : Fault)
  | writeFailed (fault : Fault)
  | heartbeatFailed (fault : Fault)

def Reason.text : Reason → String
  | .closedLocally => "closed locally"
  | .closedByPeer => "closed by peer"
  | .readIdle => "read idle"
  | .unreadable fault => fault.message
  | .writeFailed fault => "write failed: " ++ fault.message
  | .heartbeatFailed fault => "heartbeat failed: " ++ fault.message

inductive Stage where
  /-- The loop runs. -/
  | serving
  /-- A deadline was beyond the end of the clock. The queue is gone, but nobody is told. -/
  | brokenOff
  /-- The connection is marked inactive; requests can still be queued. -/
  | inactive (reason : Reason)
  /-- The queue is gone. -/
  | deaf (reason : Reason)
  /-- The slot of the key was looked up. -/
  | leaving (reason : Reason) (slot : Option SlotId)
  /-- The connection is not in that slot any more. -/
  | departed (reason : Reason)
  /-- The calls that waited for the connection have failed. -/
  | ended

structure Written where
  time : Nat
  request : Request
  deriving DecidableEq, Repr

end Connection

/-- A connection that was established. -/
structure Connection where
  id : ConnectionId
  key : ConnectionKey
  /-- Whether the loop is asked to end. -/
  told : Bool
  stage : Connection.Stage
  /-- The requests that wait to be written. -/
  queue : List Request
  liveness : Liveness
  /-- What was written, in order. -/
  written : List Connection.Written

namespace Connection

def establish (id : ConnectionId) (key : ConnectionKey) (limits : IdleLimits) (now : Nat) :
    Connection where
  id := id
  key := key
  told := false
  stage := .serving
  queue := []
  liveness := .start limits now
  written := []

/-- Whether the loop goes on: it was not left, and the clock can show its deadlines. -/
def isServing (c : Connection) : Bool :=
  match c.stage with
  | .serving => c.liveness.onClock
  | _ => false

/-- Whether the connection is not marked inactive. One that was broken off never is. -/
def isActive (c : Connection) : Bool :=
  match c.stage with
  | .serving | .brokenOff => true
  | _ => false

def hasQueue (c : Connection) : Bool :=
  match c.stage with
  | .serving | .inactive _ => true
  | _ => false

/-- The fault of a request for which the connection is too late. -/
def closedFault (c : Connection) : Fault :=
  .connection ("Connection to " ++ c.key.endpoint.display ++ " is closed")

/-- The fault of a call that waits for a connection which ends. -/
def lostFault (c : Connection) (reason : Reason) : Fault :=
  .connection ("Connection to " ++ c.key.endpoint.display ++ " lost: " ++ reason.text)

def close (c : Connection) : Connection := { c with told := true }

def push (c : Connection) (r : Request) : Except Fault Connection :=
  if c.hasQueue then .ok { c with queue := c.queue ++ [r] } else .error c.closedFault

def leave (c : Connection) (reason : Reason) : Connection := { c with stage := .inactive reason }

/-- Drops the loop, and the queue with it. -/
def breakOff (c : Connection) : Connection := { c with stage := .brokenOff, queue := [] }

/-! ## The loop -/

inductive Event where
  /-- The next queued request is written. -/
  | write
  /-- The deadline has come. A heartbeat would get this identifier. -/
  | wake (id : String)
  /-- The peer's next message is read. -/
  | receive (message : Message)
  /-- The loop is left for a reason that lies outside. -/
  | leave (reason : Reason)
  /-- The next deadline is asked for, which the clock cannot show. -/
  | breakOff

/-- Writes a request at a time, unless it cannot be framed. -/
def transmit (c : Connection) (codec : Codec) (now : Nat) (r : Request) :
    Except Fault Connection := do
  let _ ← codec.encode ⟨c.key.serializer, .request r⟩
  return { c with
    liveness := c.liveness.recordWrite now
    written := c.written ++ [⟨now, r⟩] }

/-- Writes the next queued request. One that cannot be framed ends the connection. -/
def write (c : Connection) (codec : Codec) (now : Nat) : Option Connection :=
  match c.queue with
  | [] => none
  | r :: rest =>
    match { c with queue := rest }.transmit codec now r with
    | .ok c => some c
    | .error fault => some ({ c with queue := rest }.leave (.writeFailed fault))

def wake (c : Connection) (codec : Codec) (now : Nat) (id : String) : Option Connection :=
  if c.liveness.isDue now then
    match c.liveness.poll now with
    | .ok (some .writerIdle) =>
      match c.transmit codec now (.alive id) with
      | .ok c => some c
      | .error fault => some (c.leave (.heartbeatFailed fault))
    | .ok (some .readerIdle) => some (c.leave .readIdle)
    | _ => some c
  else none

/-- Whether the loop can be left for a reason: locally only if it is asked to. -/
def mayLeave (c : Connection) : Reason → Bool
  | .closedLocally => c.told
  | _ => true

/-- One turn of the loop. It begins with the question for the next deadline: the loop goes on if the
clock can show it, and otherwise can only break off. -/
def step (c : Connection) (codec : Codec) (now : Nat) (event : Event) : Option Connection :=
  if c.isServing then
    match event with
    | .write => c.write codec now
    | .wake id => c.wake codec now id
    | .receive _ => some { c with liveness := c.liveness.recordRead now }
    | .leave reason => if c.mayLeave reason then some (c.leave reason) else none
    | .breakOff => none
  else
    match c.stage, event with
    | .serving, .breakOff => some c.breakOff
    | _, _ => none

end Connection

end FramedRpc
