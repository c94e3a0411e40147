import FramedRpc.Client
import FramedRpc.Discovery.Directory
import FramedRpc.Service.Declared

/-!
# Calls to silent hosts

A client with its directory, on a network whose hosts refuse connections, or accept them and never
say anything. A call runs alone here: it looks its service up, asks the pool for a connection, and
fails if that is not established, or else when it has waited for too long.
-/

namespace FramedRpc

/-- How each endpoint answers to who connects: with a flaw, or not if it accepts the connection. -/
abbrev Hosts := Endpoint → Option ConnectFlaw

namespace Pool

def obtain (p : Pool) (hosts : Hosts) (key : ConnectionKey) :
    Option (Except Fault ConnectionId) × Pool :=
  let get := p.gets.length
  let p := p.play 0 (.ask key :: acquisition get (hosts key.endpoint))
  match p.gets[get]? with
  | some ⟨_, .done result⟩ => (some result, p)
  | _ => (none, p)

def closeAll (p : Pool) : Pool :=
  let sweep := p.sweeps.length
  p.play 0 (.sweep :: p.table.map fun entry => .empty sweep entry.2)

end Pool

namespace Client

/-- Waits until a call gives up. -/
def exhaust (c : Client) (run : RunId) : Client :=
  c.play [.pass c.config.callTimeout, .run run .timeout, .run run .exit]

/-- Sends a request for whose service the directory gave an answer. -/
def sendRequest (c : Client) (hosts : Hosts) (r : Request) (found : Except Fault Endpoint) :
    Except Fault Response × Client :=
  let run := c.runs.length
  let flaw := found.toOption.bind hosts
  let c := c.play (.begin r :: opening run c.pool.gets.length found flaw)
  let c := match c.connection? run with
    | some id => (c.attend run id).exhaust run
    | none => c
  ((c.result? run).getD (.error (droppedFault r)), c)

end Client

/-- A client and the directory that it asks. -/
structure Caller (σ : Type) where
  client : Client
  directory : Directory σ

namespace Caller

variable {σ : Type}

def sendRequest (hosts : Hosts) (r : Request) : StateM (Caller σ) (Except Fault Response) :=
  fun caller =>
    let (found, directory) := caller.directory.lookup r.service
    let (result, client) := caller.client.sendRequest hosts r found
    (result, { caller with client, directory })

/-- Sends a request and waits for the return value. -/
def call (hosts : Hosts) (r : Request) : StateM (Caller σ) (Except Fault (List UInt8)) := do
  return (← sendRequest hosts r) >>= fun response => response.dataFor r

/-- Sends a call under an identifier, and waits for the return value. -/
def invoke (hosts : Hosts) (id : String) (c : Call) :
    StateM (Caller σ) (Outcome (List UInt8)) := do
  return .ofExcept (← call hosts (.call id c.service c.method c.arguments))

def invokeMethod {τ : Type} [WireTypes τ] (hosts : Hosts) (id : String) (signature : Signature τ)
    (service : String) (arguments : WireTypes.Values signature.params) :
    StateM (Caller σ) (Outcome (WireTypes.Value signature.result)) := fun caller =>
  signature.invoke service caller.client.config.serializer (invoke hosts id) arguments caller

def shutdown (caller : Caller σ) : Caller σ :=
  { caller with client := { caller.client with pool := caller.client.pool.closeAll } }

end Caller

end FramedRpc
