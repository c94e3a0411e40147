import FramedRpc.Server.Dispatcher
import FramedRpc.Server.Lifecycle
import FramedRpc.Server.Session
import FramedRpc.Server.WorkerPool

/-!
# A server at work

The sessions of a started server, the tasks that run the methods, and the workers that they share. A
task begins with a reserved worker, gives it back when the method has ended, whether it returned,
failed or broke off, and only then hands its response to the session from which the request came.
Whoever calls the dispatcher directly reserves workers and runs tasks in the same way, without a
session.

As in a client, each event is one indivisible step of some party, and one that is not possible gives
nothing.
-/

namespace FramedRpc

abbrev SessionId := Nat

abbrev TaskId := Nat

inductive Task.Phase where
  /-- A direct caller waits for a worker. -/
  | waiting
  /-- A worker is reserved; the method was not yet called. -/
  | reserved
  | running
  /-- The worker was given back; the response has to be handed over. -/
  | answered (response : Option Response)
  | over (response : Option Response)
  deriving DecidableEq, Repr

/-- A request on a worker. -/
structure Task where
  /-- Where the request came from; a direct call has no session. -/
  session : Option SessionId
  order : Session.Order
  phase : Task.Phase
  deriving DecidableEq, Repr

def Task.holdsWorker (t : Task) : Bool :=
  match t.phase with
  | .reserved | .running => true
  | _ => false

/-- A started server with everything that goes on in it. -/
structure Serving where
  server : Server
  /-- The time, which only passes by events. -/
  now : Nat
  /-- Whether connections are accepted. -/
  listening : Bool
  /-- Whether the server is to stop. -/
  stopping : Bool
  workers : WorkerPool
  /-- The number of workers that are reserved by direct callers. -/
  reservations : Nat
  sessions : List Session
  tasks : List Task

namespace Serving

def start (server : Server) : Serving :=
  ⟨server, 0, true, false, .ofCount server.config.maxWorkers, 0, [], []⟩

def setSession (s : Serving) (id : SessionId) (session : Session) : Serving :=
  { s with sessions := s.sessions.set id session }

def setPhase (s : Serving) (task : TaskId) (phase : Task.Phase) : Serving :=
  { s with tasks := s.tasks.modify task fun t => { t with phase } }

/-! ## Events -/

inductive SessionEvent where
  | arrive (inbound : Session.Inbound)
  /-- The next thing that arrived is read. -/
  | read
  /-- A worker is reserved for the request that was read. -/
  | reserve
  /-- The next reply is written. -/
  | write
  /-- The next reply cannot be sent. -/
  | lose (fault : Fault)
  /-- A deadline has come. -/
  | wake
  /-- The loop is left because the server stops. -/
  | quit
  /-- The loop is dropped because the server stops. -/
  | abort

inductive TaskEvent where
  /-- A worker is reserved for a direct caller. -/
  | reserve
  /-- A direct caller gives up waiting. -/
  | cancel
  /-- The method is called. -/
  | call
  /-- The method has ended, and the worker is given back. -/
  | finish
  /-- The response is handed over. -/
  | deliver

inductive Event where
  /-- A connection is accepted. -/
  | accept
  | session (id : SessionId) (event : SessionEvent)
  | task (task : TaskId) (event : TaskEvent)
  /-- Somebody calls the dispatcher directly. -/
  | dispatch (order : Session.Order)
  /-- A direct caller reserves a worker. -/
  | reserve
  /-- A direct caller gives a worker back without having used it. -/
  | release
  /-- A direct caller uses a worker that it has reserved. -/
  | run (order : Session.Order)
  /-- The server is told to stop. -/
  | stop
  /-- A server that is to stop accepts no more connections. -/
  | shut
  /-- Time passes. -/
  | pass (milliseconds : Nat)

def begin (s : Serving) (session : Option SessionId) (order : Session.Order) (phase : Task.Phase) :
    Serving :=
  { s with tasks := s.tasks ++ [⟨session, order, phase⟩] }

/-- Reserves a worker for the request that a session has read. -/
def reserveFor (s : Serving) (id : SessionId) (session : Session) : Option Serving := do
  let (order, next) ← session.reserved?
  if s.workers.closed then return s.setSession id (session.close .workersClosed s.now)
  let workers ← s.workers.acquire?
  return ({ s with workers }.begin (some id) order .reserved).setSession id next

def stepSession (s : Serving) (id : SessionId) (session : Session) : SessionEvent → Option Serving
  | .arrive inbound => some (s.setSession id (session.arrive s.now inbound))
  | .read => do return s.setSession id (← session.read? s.now)
  | .reserve => s.reserveFor id session
  | .write => do return s.setSession id (← session.write? s.server.codec s.now)
  | .lose fault => do return s.setSession id (← session.lose? fault s.now)
  | .wake => do return s.setSession id (← session.wake? s.now)
  | .quit =>
    if s.stopping && session.isOpen then
      some (s.setSession id (session.close .serverStopping s.now))
    else none
  | .abort =>
    if !s.listening && session.isOpen then some (s.setSession id { session with stage := .aborted })
    else none

/-- Hands a response to the session from which the request came. -/
def deliver (s : Serving) (t : Task) (response : Option Response) : Serving :=
  match t.session, response with
  | some id, some response =>
    { s with sessions := s.sessions.modify id fun session =>
        session.queue ⟨t.order.serializer, response⟩ }
  | _, _ => s

def stepTask (s : Serving) (task : TaskId) (t : Task) : TaskEvent → Option Serving
  | .reserve =>
    match t.phase with
    | .waiting =>
      if s.workers.closed then
        some (s.setPhase task (.over (some (Dispatcher.turnedAway t.order.request.id))))
      else do return { s with workers := ← s.workers.acquire? }.setPhase task .reserved
    | _ => none
  | .cancel =>
    match t.phase with
    | .waiting => some (s.setPhase task (.over none))
    | _ => none
  | .call =>
    match t.phase with
    | .reserved => some (s.setPhase task .running)
    | _ => none
  | .finish =>
    match t.phase with
    | .running =>
      let response := Dispatcher.run s.server.catalogue t.order.serializer t.order.request
      some ({ s with workers := s.workers.release }.setPhase task (.answered response))
    | _ => none
  | .deliver =>
    match t.phase with
    | .answered response => some ((s.deliver t response).setPhase task (.over response))
    | _ => none

def step (s : Serving) : Event → Option Serving
  | .accept =>
    if s.listening then
      some { s with sessions := s.sessions ++ [.accept s.server.config.idleLimits s.now] }
    else none
  | .session id event => do s.stepSession id (← s.sessions[id]?) event
  | .task task event => do s.stepTask task (← s.tasks[task]?) event
  | .dispatch order =>
    some (s.begin none order (if order.request.heartbeat then .over none else .waiting))
  | .reserve => do
    return { s with workers := ← s.workers.acquire?, reservations := s.reservations + 1 }
  | .release =>
    match s.reservations with
    | 0 => none
    | reservations + 1 => some { s with workers := s.workers.release, reservations }
  | .run order =>
    match s.reservations with
    | 0 => none
    | reservations + 1 =>
      some ({ s with reservations }.begin none order .reserved)
  | .stop => some { s with stopping := true }
  | .shut => if s.stopping then some { s with listening := false } else none
  | .pass milliseconds => some { s with now := s.now + milliseconds }

/-- Takes the steps that are possible, one after the other, and passes over the others. -/
def play (s : Serving) (events : List Event) : Serving :=
  events.foldl (fun s event => (s.step event).getD s) s

/-- Serves the next thing that has arrived for a session, as if methods took no time. -/
def attendNext (s : Serving) (id : SessionId) : Serving :=
  let task := s.tasks.length
  s.play [.session id .read, .session id .reserve, .task task .call, .task task .finish,
    .task task .deliver, .session id .write]

def attend (s : Serving) (id : SessionId) : Serving :=
  let arrived := (s.sessions[id]?).elim 0 fun session => session.inbox.length
  (List.range arrived).foldl (fun s _ => s.attendNext id) s

def steps (s : Serving) (events : List Event) : Option Serving := events.foldlM step s

end Serving

end FramedRpc
