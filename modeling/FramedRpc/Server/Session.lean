import FramedRpc.Frame
import FramedRpc.Liveness

/-!
# Sessions of a server

A session is what a server does on one connection. Its loop reads the frames that have arrived, one
after the other: a request waits until a worker is reserved for it, and nothing is read or written in
the meantime; heartbeats only show that the peer is alive. Responses come back in any order and are
written in the order in which they were queued. The loop is left when the peer closes the connection
or sends what cannot be read, when a response cannot be framed or sent, when the peer was silent for
too long, and when the server stops. A deadline that the clock cannot show breaks the session off.
-/

namespace FramedRpc

namespace Session

inductive Inbound where
  | frame (frame : Frame)
  /-- Bytes that are no frame, or a connection that cannot be read. -/
  | unreadable (fault : Fault)
  /-- The peer closed the connection. -/
  | ending

structure Arrival where
  time : Nat
  inbound : Inbound

inductive Reason where
  | serverStopping
  /-- No worker is handed out any more. -/
  | workersClosed
  | closedByPeer
  | readIdle
  | unreadable (fault : Fault)
  | writeFailed (fault : Fault)

def Reason.text : Reason → String
  | .serverStopping => "server stopping"
  | .workersClosed => "worker pool closed"
  | .closedByPeer => "closed by peer"
  | .readIdle => "read idle"
  | .unreadable fault => fault.message
  | .writeFailed fault => "write failed: " ++ fault.message

/-- A request together with the serializer of its frame. -/
structure Order where
  serializer : Serializer
  request : Request
  deriving DecidableEq, Repr

structure Reply where
  serializer : Serializer
  response : Response
  deriving DecidableEq, Repr

def Reply.frame (r : Reply) : Frame := ⟨r.serializer, .response r.response⟩

inductive Stage where
  | serving
  /-- A request was read, for which a worker has to be reserved. -/
  | reserving (order : Order)
  | closed (reason : Reason) (time : Nat)
  /-- A deadline was beyond the end of the clock. -/
  | brokenOff
  /-- The loop was dropped when the server stopped. -/
  | aborted

end Session

/-- A connection of a server. -/
structure Session where
  /-- What arrived and was not read. -/
  inbox : List Session.Arrival
  /-- The requests that were read, heartbeats apart, in order. -/
  orders : List Session.Order
  /-- The responses that are to be written. -/
  outbox : List Session.Reply
  /-- The responses that were written, in order. -/
  written : List Session.Reply
  liveness : Liveness
  stage : Session.Stage

namespace Session

/-- Goes on with the loop, unless a deadline is beyond the end of the clock. -/
def turn (s : Session) : Session :=
  if s.liveness.onClock then s else { s with stage := .brokenOff }

def accept (limits : IdleLimits) (now : Nat) : Session :=
  turn ⟨[], [], [], [], .start limits now, .serving⟩

/-- Whether the loop reads and writes. -/
def isServing (s : Session) : Bool :=
  match s.stage with
  | .serving => true
  | _ => false

/-- Whether the loop was not left. -/
def isOpen (s : Session) : Bool :=
  match s.stage with
  | .serving | .reserving _ => true
  | _ => false

def close (s : Session) (reason : Reason) (now : Nat) : Session :=
  { s with stage := .closed reason now }

def arrive (s : Session) (now : Nat) (inbound : Inbound) : Session :=
  { s with inbox := s.inbox ++ [⟨now, inbound⟩] }

def takeFrame (s : Session) (now : Nat) (f : Frame) : Session :=
  let s := { s with liveness := s.liveness.recordRead now }
  match f.message with
  | .response _ => s.turn
  | .request r =>
    if r.heartbeat then s.turn
    else
      let order : Order := ⟨f.serializer, r⟩
      { s with orders := s.orders ++ [order], stage := .reserving order }

def read? (s : Session) (now : Nat) : Option Session :=
  match s.isServing, s.inbox with
  | true, ⟨_, inbound⟩ :: rest =>
    let s := { s with inbox := rest }
    some (match inbound with
      | .frame f => s.takeFrame now f
      | .unreadable fault => s.close (.unreadable fault) now
      | .ending => s.close .closedByPeer now)
  | _, _ => none

/-- Goes on after a worker was reserved, and hands over the request. -/
def reserved? (s : Session) : Option (Order × Session) :=
  match s.stage with
  | .reserving order => some (order, { s with stage := .serving }.turn)
  | _ => none

/-- Queues a reply, for which nobody waits any more once the loop was left. -/
def queue (s : Session) (r : Reply) : Session :=
  if s.isOpen then { s with outbox := s.outbox ++ [r] } else s

/-- Writes the next reply. One that cannot be framed ends the session. -/
def write? (s : Session) (codec : Codec) (now : Nat) : Option Session :=
  match s.isServing, s.outbox with
  | true, r :: rest =>
    let s := { s with outbox := rest }
    some (match codec.encode r.frame with
      | .ok _ => { s with written := s.written ++ [r] }.turn
      | .error fault => s.close (.writeFailed fault) now)
  | _, _ => none

/-- The next reply cannot be sent over the connection, which ends the session. -/
def lose? (s : Session) (fault : Fault) (now : Nat) : Option Session :=
  match s.isServing, s.outbox with
  | true, _ :: rest => some ({ s with outbox := rest }.close (.writeFailed fault) now)
  | _, _ => none

def wake? (s : Session) (now : Nat) : Option Session :=
  if s.isServing && s.liveness.isDue now then
    match s.liveness.poll now with
    | .ok (some .readerIdle) => some (s.close .readIdle now)
    | _ => some s.turn
  else none

end Session

end FramedRpc
