import FramedRpc.Client.Pool
import FramedRpc.Message

/-!
# Clients

A call looks its service up, takes a connection from the pool, registers itself among the pending
calls, queues its request and waits for an outcome. Whatever the outcome is, and also if the caller
gives up, it then drops its guard, so that the table forgets it. Responses come in over any connection
and are handed to the call with their identifier.

As in the pool, each event is one indivisible step of some party, and one that is not possible gives
nothing. Registering and putting up the guard are one step, since nobody can see what lies between.
-/

namespace FramedRpc

namespace Run

inductive Phase where
  /-- The directory is asked for an endpoint. -/
  | looking
  /-- A connection is asked for. -/
  | getting (get : Pool.GetId)
  | registering (connection : ConnectionId)
  /-- The call is registered; whether the connection is active has to be tested. -/
  | testing (connection : ConnectionId) (ticket : Ticket)
  /-- The request has to be queued. -/
  | queueing (connection : ConnectionId) (ticket : Ticket)
  | waiting (connection : ConnectionId) (ticket : Ticket) (deadline : Nat)
  /-- The guard has to be dropped. Without a result the caller gave up. -/
  | leaving (ticket : Ticket) (result : Option (Except Fault Response))
  | over (result : Option (Except Fault Response))

/-- The caller in the pool on which a call waits. -/
def Phase.get? : Phase → Option Pool.GetId
  | .getting get => some get
  | _ => none

end Run

/-- A call from the question who offers its service to its end. -/
structure Run where
  request : Request
  phase : Run.Phase

abbrev RunId := Nat

/-- A client with everything that goes on in it. -/
structure Client where
  config : ClientConfig
  /-- The time, which only passes by events. -/
  now : Nat
  pool : Pool
  pending : PendingCalls
  runs : List Run

namespace Client

def start (config : ClientConfig) : Client := ⟨config, 0, .empty config.connection, .empty, []⟩

def droppedFault (r : Request) : Fault :=
  .connection ("Call " ++ r.id ++ " was dropped before completion")

def result? (c : Client) (run : RunId) : Option (Except Fault Response) :=
  match c.runs[run]? with
  | some ⟨_, .over result⟩ => result
  | _ => none

def setPhase (c : Client) (run : RunId) (phase : Run.Phase) : Client :=
  { c with runs := c.runs.modify run fun r => { r with phase } }

inductive RunEvent where
  /-- The directory answers. -/
  | found (result : Except Fault Endpoint)
  /-- The pool has answered. -/
  | connected
  | register
  /-- Whether the connection is active is tested. -/
  | test
  /-- The request is queued. -/
  | queue
  /-- The outcome is taken. -/
  | collect
  | timeout
  /-- The caller gives up where it waits. -/
  | cancel
  /-- The guard is dropped. -/
  | exit

inductive Event where
  | begin (request : Request)
  | run (run : RunId) (event : RunEvent)
  /-- A step in the pool, which is felt by the pending calls if a response comes or a connection
  ends. -/
  | pool (event : Pool.Event)
  /-- Time passes. -/
  | pass (milliseconds : Nat)

def settle (c : Client) (run : RunId) (result : Option (Except Fault Response)) : Client :=
  c.setPhase run (.over result)

/-- The end of a call whose guard has to be dropped. -/
def leave (c : Client) (run : RunId) (ticket : Ticket)
    (result : Option (Except Fault Response)) : Client :=
  c.setPhase run (.leaving ticket result)

def ask (c : Client) (run : RunId) (e : Endpoint) : Option Client := do
  let pool ← c.pool.step c.now (.ask ⟨e, c.config.serializer⟩)
  return { c with pool }.setPhase run (.getting c.pool.gets.length)

def takeConnection (c : Client) (run : RunId) (get : Pool.GetId) : Option Client := do
  match (← c.pool.gets[get]?).phase with
  | .done (.ok id) => return c.setPhase run (.registering id)
  | .done (.error fault) => return c.settle run (some (.error fault))
  | _ => none

def register (c : Client) (run : RunId) (r : Request) (id : ConnectionId) : Client :=
  match c.pending.register r.id id with
  | (.ok ticket, pending) => { c with pending }.setPhase run (.testing id ticket)
  | (.error fault, pending) => { c with pending }.settle run (some (.error fault))

def queue (c : Client) (run : RunId) (r : Request) (connection : Connection) (ticket : Ticket) :
    Client :=
  match connection.push r with
  | .ok changed =>
    let deadline := c.now + c.config.callTimeout
    { c with pool := c.pool.setConnection changed }.setPhase run
      (.waiting connection.id ticket deadline)
  | .error fault => c.leave run ticket (some (.error fault))

def collect (c : Client) (run : RunId) (r : Request) (ticket : Ticket) : Option Client :=
  match c.pending.collect ticket with
  | (none, _) => none
  | (some (.delivered result), pending) => some ({ c with pending }.leave run ticket (some result))
  | (some .closed, pending) =>
    some ({ c with pending }.leave run ticket (some (.error (droppedFault r))))

def stepRun (c : Client) (run : RunId) (r : Run) : RunEvent → Option Client
  | .found result =>
    match r.phase, result with
    | .looking, .ok e => c.ask run e
    | .looking, .error fault => some (c.settle run (some (.error fault)))
    | _, _ => none
  | .connected =>
    match r.phase with
    | .getting get => c.takeConnection run get
    | _ => none
  | .register =>
    match r.phase with
    | .registering id => some (c.register run r.request id)
    | _ => none
  | .test =>
    match r.phase with
    | .testing id ticket => do
      let connection ← c.pool.connection? id
      if connection.isActive then return c.setPhase run (.queueing id ticket)
      else return c.leave run ticket (some (.error connection.closedFault))
    | _ => none
  | .queue =>
    match r.phase with
    | .queueing id ticket => do return c.queue run r.request (← c.pool.connection? id) ticket
    | _ => none
  | .collect =>
    match r.phase with
    | .waiting _ ticket _ => c.collect run r.request ticket
    | _ => none
  | .timeout =>
    match r.phase with
    | .waiting _ ticket deadline =>
      if deadline ≤ c.now ∧ (c.pending.outcome? ticket).isNone then
        some (c.leave run ticket (some (.error (.timeout c.config.callTimeout))))
      else none
    | _ => none
  | .cancel =>
    match r.phase with
    | .looking => some (c.settle run none)
    | .getting get => do
      return { c with pool := ← c.pool.step c.now (.get get .cancel) }.settle run none
    | .waiting _ ticket _ => some (c.leave run ticket none)
    | _ => none
  | .exit =>
    match r.phase with
    | .leaving _ result =>
      some ({ c with pending := c.pending.dropGuard r.request.id }.settle run result)
    | _ => none

def feel (c : Client) : Pool.Event → PendingCalls
  | .connection _ (.turn (.receive (.response r))) => (c.pending.complete r.id r).2
  | .connection id .finish =>
    match c.pool.connection? id with
    | some connection =>
      match connection.stage with
      | .departed reason => (c.pending.failConnection id (connection.lostFault reason)).2
      | _ => c.pending
    | none => c.pending
  | _ => c.pending

/-- Whether a step in the pool may come by itself: a caller that asks for a connection on behalf of a
call is dropped together with that call only. -/
def allows (c : Client) : Pool.Event → Bool
  | .get get .cancel => c.runs.all fun r => r.phase.get? ≠ some get
  | _ => true

def step (c : Client) : Event → Option Client
  | .begin request => some { c with runs := c.runs ++ [⟨request, .looking⟩] }
  | .run run event => do c.stepRun run (← c.runs[run]?) event
  | .pool event => do
    guard (c.allows event)
    let pool ← c.pool.step c.now event
    return { c with pool, pending := c.feel event }
  | .pass milliseconds => some { c with now := c.now + milliseconds }

/-- Takes the steps that are possible, one after the other, and passes over the others. -/
def play (c : Client) (events : List Event) : Client :=
  events.foldl (fun c event => (c.step event).getD c) c

/-- The steps of a call that nothing delays, from the answer of the directory until its request is
queued, given how the host answers. -/
def opening (run : RunId) (get : Pool.GetId) (found : Except Fault Endpoint)
    (flaw : Option ConnectFlaw) : List Event :=
  .run run (.found found) :: (Pool.acquisition get flaw).map .pool ++
    [RunEvent.connected, .register, .test, .queue].map (.run run)

/-- The connection on which a call waits. -/
def connection? (c : Client) (run : RunId) : Option ConnectionId :=
  match c.runs[run]? with
  | some ⟨_, .waiting id _ _⟩ => some id
  | _ => none

/-- Brings a call and a connection to rest: writes the request, lets a connection end that has left its
loop, and takes the outcome of the call. -/
def attend (c : Client) (run : RunId) (id : ConnectionId) : Client :=
  c.play (([.turn .write, .turn .breakOff, .deafen, .search, .depart, .finish].map fun e =>
      .pool (.connection id e)) ++ [RunEvent.collect, .timeout, .exit].map (.run run))

/-- Takes steps one after the other, all of which have to be possible. -/
def steps (c : Client) (events : List Event) : Option Client :=
  events.foldlM step c

end Client

end FramedRpc
