import FramedRpc.Client.Connection

/-!
# The pool of connections

For every endpoint and serializer the pool keeps one slot, which holds the connection that callers
share. A caller finds the slot of its key, locks it, and takes the connection that is in it if that is
active; otherwise it connects and stores the new connection, and all the while the slot stays locked
for others. A connection that ends clears the slot that its key then has, if the slot holds this very
connection. Closing everything forgets all slots and then takes the connection out of each.

The pool is a state and the events that change it, each of them one indivisible step of some party.
An event that is not possible in a state gives nothing.
-/

namespace FramedRpc

inductive ConnectFlaw where
  | failed (detail : String)
  | timedOut
  /-- The connection cannot be set up once it is there. -/
  | unusable (detail : String)
  deriving DecidableEq, Repr

def ConnectFlaw.fault (e : Endpoint) (timeout : Nat) : ConnectFlaw → Fault
  | .failed detail => .connection ("Failed to connect to " ++ e.display ++ ": " ++ detail)
  | .timedOut => .connection ("Timed out connecting to " ++ e.display ++ " after " ++
      Numeral.text timeout ++ "ms")
  | .unusable detail => .io detail

namespace Pool

inductive Phase where
  | asking
  /-- The slot is found and has to be locked. -/
  | waiting (slot : SlotId)
  /-- The slot is locked and empty. -/
  | connecting (slot : SlotId)
  /-- The slot is locked, and the connection is to be stored in it. -/
  | storing (slot : SlotId) (connection : ConnectionId)
  | done (result : Except Fault ConnectionId)
  | cancelled

def Phase.locked? : Phase → Option SlotId
  | .connecting slot | .storing slot _ => some slot
  | _ => none

structure Get where
  key : ConnectionKey
  phase : Phase

abbrev GetId := Nat

/-- The number of a party that closes everything. -/
abbrev SweepId := Nat

end Pool

/-- The connections of a client, and who is about to do what with them. -/
structure Pool where
  config : ConnectionConfig
  /-- What each slot that there ever was holds. -/
  slots : List (Option ConnectionId)
  /-- The slots that the pool knows. -/
  table : List (ConnectionKey × SlotId)
  /-- All connections that were ever established. -/
  connections : List Connection
  nextId : ConnectionId
  gets : List Pool.Get
  /-- The slots that each party which closes everything has still to empty. -/
  sweeps : List (List SlotId)

namespace Pool

def empty (config : ConnectionConfig) : Pool := ⟨config, [], [], [], 1, [], []⟩

def connection? (p : Pool) (id : ConnectionId) : Option Connection :=
  p.connections.find? fun c => c.id = id

def content? (p : Pool) (slot : SlotId) : Option ConnectionId := (p.slots[slot]?).join

def isFree (p : Pool) (slot : SlotId) : Bool :=
  p.gets.all fun g => g.phase.locked? ≠ some slot

def size (p : Pool) : Nat := p.table.countP fun entry => (p.content? entry.2).isSome

def isActive (p : Pool) (id : ConnectionId) : Bool := (p.connection? id).any Connection.isActive

/-! ## Changes -/

def setPhase (p : Pool) (get : GetId) (phase : Phase) : Pool :=
  { p with gets := p.gets.modify get fun g => { g with phase } }

def setContent (p : Pool) (slot : SlotId) (content : Option ConnectionId) : Pool :=
  { p with slots := p.slots.set slot content }

def setConnection (p : Pool) (c : Connection) : Pool :=
  { p with connections := p.connections.map fun other => if other.id = c.id then c else other }

/-- The slot of a key, which is made if there is none. -/
def slotFor (p : Pool) (key : ConnectionKey) : SlotId × Pool :=
  match p.table.lookup key with
  | some slot => (slot, p)
  | none =>
    (p.slots.length,
      { p with slots := p.slots ++ [none], table := p.table ++ [(key, p.slots.length)] })

/-! ## Events -/

inductive GetEvent where
  /-- The slot of the key is found. -/
  | find
  /-- The slot is locked, and an active connection in it is taken; any other one is thrown out. -/
  | lock
  | established
  | failed (flaw : ConnectFlaw)
  /-- The new connection is stored and the slot unlocked. -/
  | store
  /-- The caller is dropped where it waits. -/
  | cancel

inductive ConnectionEvent where
  /-- The connection is asked to end. -/
  | close
  /-- A turn of the loop. -/
  | turn (event : Connection.Event)
  /-- The queue is dropped. -/
  | deafen
  /-- The slot of the key is looked up. -/
  | search
  /-- That slot is cleared if it holds this connection. -/
  | depart
  /-- The calls that wait for the connection fail. -/
  | finish

inductive Event where
  /-- Somebody asks for a connection. -/
  | ask (key : ConnectionKey)
  | get (get : GetId) (event : GetEvent)
  | connection (id : ConnectionId) (event : ConnectionEvent)
  /-- Somebody begins to close everything: the pool forgets all slots. -/
  | sweep
  /-- One of those slots is emptied, and the connection that was in it is asked to end. -/
  | empty (sweep : SweepId) (slot : SlotId)

/-- Takes the active connection in a slot, or empties the slot for a new one. -/
def lock (p : Pool) (get : GetId) (slot : SlotId) : Pool :=
  match p.content? slot with
  | some id =>
    if p.isActive id then p.setPhase get (.done (.ok id))
    else (p.setContent slot none).setPhase get (.connecting slot)
  | none => p.setPhase get (.connecting slot)

def establish (p : Pool) (now : Nat) (get : GetId) (key : ConnectionKey) (slot : SlotId) : Pool :=
  let c := Connection.establish p.nextId key p.config.idleLimits now
  { p with connections := p.connections ++ [c], nextId := p.nextId + 1 }.setPhase get
    (.storing slot p.nextId)

def stepGet (p : Pool) (now : Nat) (get : GetId) (g : Get) : GetEvent → Option Pool
  | .find =>
    match g.phase with
    | .asking =>
      let (slot, p) := p.slotFor g.key
      some (p.setPhase get (.waiting slot))
    | _ => none
  | .lock =>
    match g.phase with
    | .waiting slot => if p.isFree slot then some (p.lock get slot) else none
    | _ => none
  | .established =>
    match g.phase with
    | .connecting slot => some (p.establish now get g.key slot)
    | _ => none
  | .failed flaw =>
    match g.phase with
    | .connecting _ =>
      let fault := flaw.fault g.key.endpoint p.config.connectTimeout
      some (p.setPhase get (.done (.error fault)))
    | _ => none
  | .store =>
    match g.phase with
    | .storing slot id => some ((p.setContent slot (some id)).setPhase get (.done (.ok id)))
    | _ => none
  | .cancel =>
    match g.phase with
    | .waiting _ | .connecting _ => some (p.setPhase get .cancelled)
    | _ => none

/-- Takes a connection out of a slot that holds it. -/
def clear (p : Pool) (id : ConnectionId) (slot : SlotId) : Pool :=
  if p.content? slot = some id then p.setContent slot none else p

def stepConnection (p : Pool) (now : Nat) (c : Connection) : ConnectionEvent → Option Pool
  | .close => some (p.setConnection c.close)
  | .turn event => do return p.setConnection (← c.step p.config.codec now event)
  | .deafen =>
    match c.stage with
    | .inactive reason => some (p.setConnection { c with stage := .deaf reason, queue := [] })
    | _ => none
  | .search =>
    match c.stage with
    | .deaf reason =>
      some (p.setConnection { c with stage := .leaving reason (p.table.lookup c.key) })
    | _ => none
  | .depart =>
    match c.stage with
    | .leaving reason slot =>
      if slot.all p.isFree then
        some ((slot.elim p (p.clear c.id)).setConnection { c with stage := .departed reason })
      else none
    | _ => none
  | .finish =>
    match c.stage with
    | .departed _ => some (p.setConnection { c with stage := .ended })
    | _ => none

/-- Empties a slot, and asks the connection that was in it to end. -/
def emptySlot (p : Pool) (slot : SlotId) : Pool :=
  match (p.content? slot).bind p.connection? with
  | none => p.setContent slot none
  | some c => (p.setContent slot none).setConnection c.close

def step (p : Pool) (now : Nat) : Event → Option Pool
  | .ask key => some { p with gets := p.gets ++ [⟨key, .asking⟩] }
  | .get get event => do p.stepGet now get (← p.gets[get]?) event
  | .connection id event => do p.stepConnection now (← p.connection? id) event
  | .sweep => some { p with table := [], sweeps := p.sweeps ++ [p.table.map Prod.snd] }
  | .empty sweep slot => do
    let remaining ← p.sweeps[sweep]?
    guard (slot ∈ remaining ∧ p.isFree slot)
    return { p with sweeps := p.sweeps.set sweep (remaining.erase slot) }.emptySlot slot

/-- Takes the steps that are possible, one after the other, and passes over the others. -/
def play (p : Pool) (now : Nat) (events : List Event) : Pool :=
  events.foldl (fun p event => (p.step now event).getD p) p

/-- The steps of a caller that nothing delays, given how the host answers: with a flaw, or not if it
accepts the connection. -/
def acquisition (get : GetId) (flaw : Option ConnectFlaw) : List Event :=
  let answered : List GetEvent := match flaw with
    | some flaw => [.failed flaw]
    | none => [.established, .store]
  (GetEvent.find :: .lock :: answered).map (.get get)

end Pool

end FramedRpc
