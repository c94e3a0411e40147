import FramedRpc.Status
import FramedRpc.Wire.Bincode
import FramedRpc.Wire.Json.Flaw
import FramedRpc.Wire.Postcard

/-!
# Faults

Everything that can go wrong in a call, by its cause. `Fault.kind` groups the causes, and
`Fault.message` words them.
-/

namespace FramedRpc

/-- Why a call, or a part of one, failed. -/
inductive Fault where
  /-- The bytes of a connection are not a frame. -/
  | protocol (detail : String)
  | serviceNotFound (service : String)
  | methodNotFound (method : String)
  | bincode (flaw : Wire.Bincode.Flaw)
  | json (flaw : Wire.Json.Flaw)
  | postcard (flaw : Wire.Postcard.Flaw)
  | serializerNotFound (code : UInt32)
  | connection (detail : String)
  | timeout (milliseconds : Nat)
  /-- A response carries the identifier of another request. -/
  | responseMismatch (expected actual : String)
  /-- The server reports a failure. -/
  | invocation (status : Status) (detail : String)
  | invalidRequest (detail : String)
  | invalidResponse (detail : String)
  | registry (detail : String)
  | io (detail : String)

namespace Fault

inductive Kind where
  | protocol
  | serviceNotFound
  | methodNotFound
  | serialization
  | connection
  | timeout
  | responseMismatch
  | invocation
  | invalidMessage
  | registry
  | io
  deriving DecidableEq, Repr

def Kind.name : Kind → String
  | .protocol => "Protocol"
  | .serviceNotFound => "ServiceNotFound"
  | .methodNotFound => "MethodNotFound"
  | .serialization => "Serialization"
  | .connection => "Connection"
  | .timeout => "Timeout"
  | .responseMismatch => "ResponseMismatch"
  | .invocation => "Invocation"
  | .invalidMessage => "InvalidMessage"
  | .registry => "Registry"
  | .io => "Io"

def kind : Fault → Kind
  | .protocol _ => .protocol
  | .serviceNotFound _ => .serviceNotFound
  | .methodNotFound _ => .methodNotFound
  | .bincode _ | .json _ | .postcard _ | .serializerNotFound _ => .serialization
  | .connection _ => .connection
  | .timeout _ => .timeout
  | .responseMismatch _ _ => .responseMismatch
  | .invocation _ _ => .invocation
  | .invalidRequest _ | .invalidResponse _ => .invalidMessage
  | .registry _ => .registry
  | .io _ => .io

/-- Whether a fault lies in the transport, so that the call may be tried again. -/
def isTransport (fault : Fault) : Bool :=
  match fault.kind with
  | .connection | .timeout | .io => true
  | _ => false

def message : Fault → String
  | .protocol detail => "Protocol violation: " ++ detail
  | .serviceNotFound service => "Service not found: " ++ service
  | .methodNotFound method => "Method not found: " ++ method
  | .bincode flaw => "Bincode serialization error: " ++ flaw.message
  | .json flaw => "JSON serialization error: " ++ flaw.message
  | .postcard flaw => "Postcard serialization error: " ++ flaw.message
  | .serializerNotFound code => "Serializer not found for code " ++ Numeral.text code.toNat
  | .connection detail => "Connection error: " ++ detail
  | .timeout milliseconds => "Request timeout after " ++ Numeral.text milliseconds ++ "ms"
  | .responseMismatch expected actual =>
    "Response does not match request: expected " ++ expected ++ ", got " ++ actual
  | .invocation status detail => "Invocation failed (" ++ status.text ++ "): " ++ detail
  | .invalidRequest detail => "Invalid request: " ++ detail
  | .invalidResponse detail => "Invalid response: " ++ detail
  | .registry detail => "Registry error: " ++ detail
  | .io detail => "IO error: " ++ detail

end Fault

end FramedRpc
