import FramedRpc.Client.Caller
import FramedRpc.CommandLine.Command
import FramedRpc.Network.Isolated
import FramedRpc.Server.Lifecycle

/-!
# What commands do

The server and the client that a command describes, and how the program ends: with what it printed
and a code that tells whether it failed.
-/

namespace FramedRpc

/-- The message of what caused a fault, where the fault wraps it. -/
def Fault.cause? : Fault → Option String
  | .bincode flaw => some flaw.message
  | .json flaw => some flaw.message
  | .postcard flaw => some flaw.message
  | .io detail => some detail
  | _ => none

namespace CommandLine

open Wire (HasShape)

structure Ending where
  code : Nat
  output : String
  errors : String
  deriving DecidableEq, Repr

namespace Ending

def ofHalt : Halt → Ending
  | .help text => ⟨0, text ++ "\n", ""⟩
  | .refused message =>
    ⟨1, "", message ++ "\nRun " ++ program ++ " --help for more information.\n"⟩

def ofFault (fault : Fault) : Ending :=
  ⟨1, "", "Error: " ++ fault.message ++
    (fault.cause?.elim "" fun cause => "\n\nCaused by:\n    " ++ cause) ++ "\n"⟩

def ofOutcome : Outcome String → Ending
  | .returned output => ⟨0, output, ""⟩
  | .failed fault => ofFault fault
  | .panicked text => ⟨101, "", text ++ "\n"⟩

end Ending

/-! ## Serving -/

namespace ServeOptions

def config (o : ServeOptions) : ServerConfig :=
  { ServerConfig.listeningOn o.bind with
    advertised := o.advertised
    readIdle := if o.readIdle = 0 then none else some (o.readIdle * 1000) }.withMaxWorkers o.workers

def server (o : ServeOptions) : Server where
  config := o.config
  catalogue := ((Catalogue.empty.publish Demo.helloService.handler).2.publish
    Demo.byeService.handler).2
  plugins := .all

/-- Starts the server with a registry of its own. -/
def start (o : ServeOptions) (listener : Except String Endpoint) :
    Outcome RunningServer × Registry :=
  o.server.start Backend.memory listener .empty

end ServeOptions

def interruptedReports : List String := ["Shutting down", "Server stopped"]

/-! ## Calling -/

namespace CallOptions

def config (o : CallOptions) : ClientConfig :=
  { ClientConfig.standard with serializer := o.serializer, callTimeout := o.timeout }

/-- Calls a method by way of `send`. -/
def invoke {m : Type → Type} [Monad m] (o : CallOptions) (method : Demo.DemoMethod)
    (send : Call → m (Outcome (List UInt8))) : m (Outcome String) :=
  match method with
  | .hello =>
    Demo.Hello.hello.invoke Demo.Hello.service o.serializer send
      (HasShape.toValue (Demo.HelloObject.mk o.id o.message), ())
  | .bye => Demo.Bye.bye.invoke Demo.Bye.service o.serializer send (o.message, ())

def caller (o : CallOptions) (endpoint : Endpoint) : Caller Unit :=
  ⟨.start o.config, ⟨.fixed [endpoint], (), o.config.policy.balancer 0⟩⟩

def call (o : CallOptions) (hosts : Hosts) (id : String) (endpoint : Endpoint)
    (method : Demo.DemoMethod) : Outcome String :=
  ((o.invoke method (Caller.invoke hosts id)).run (o.caller endpoint)).1

end CallOptions

/-! ## On a host without a network -/

/-- Without a network no host accepts connections. -/
def isolatedHosts : Hosts := fun e => some (.failed (Network.Isolated.connect e).message)

/-- Listens on an address without a network. -/
def isolatedListener (freePort : Nat) (address : String) : Except String Endpoint :=
  (Network.Isolated.bind freePort address).mapError Network.Flaw.message

/-- Runs a command without a network. A server that starts is interrupted at once. -/
def runIsolated (freePort : Nat) (id : String) : Command → Outcome String
  | .call endpoint method o => do return (← o.call isolatedHosts id endpoint method) ++ "\n"
  | .serve o => do
    let _ ← (o.start (isolatedListener freePort o.bind)).1
    return ""

/-- Runs a command line without a network. -/
def runLineIsolated (freePort : Nat) (id : String) (arguments : List String) : Ending :=
  match Command.read arguments with
  | .error halt => .ofHalt halt
  | .ok command => .ofOutcome (runIsolated freePort id command)

end CommandLine

end FramedRpc
