import FramedRpc.Serializer
import FramedRpc.Text.Hex
import FramedRpc.Wire.Json.Document

/-!
# Descriptions of faults

A fault described by a JSON object, whose member `variant` names the cause and whose other members
hold its details.
-/

namespace FramedRpc

open Wire.Json (Document)

namespace Wire.Json.Document

def text? (d : Document) (key : String) : Option String :=
  match d.get? key with
  | some (.string s) => some s
  | _ => none

def natural? (d : Document) (key : String) : Option Nat :=
  match d.get? key with
  | some (.number (.natural n)) => some n
  | _ => none

/-- The bytes of an object, in hexadecimal or as the UTF-8 bytes of a text. -/
def bytes? (d : Document) : Option (List UInt8) :=
  match d.text? "hex" with
  | some digits => Hex.decode? digits
  | none => (d.text? "utf8").map Utf8.encode

end Wire.Json.Document

def Fault.ofDecoding? (s : Serializer) (bytes : List UInt8) : Option Fault :=
  match s.decodeValue .text bytes with
  | .ok _ => none
  | .error fault => some fault

def Fault.ofDocument? (d : Document) : Option Fault := do
  match ← d.text? "variant" with
  | "Protocol" => return .protocol (← d.text? "message")
  | "ServiceNotFound" => return .serviceNotFound (← d.text? "message")
  | "MethodNotFound" => return .methodNotFound (← d.text? "message")
  | "SerializerNotFound" => return .serializerNotFound (← d.natural? "code").toUInt32
  | "Connection" => return .connection (← d.text? "message")
  | "Timeout" =>
    let milliseconds ← (Numeral.readNat 0xFFFFFFFFFFFFFFFF (← d.text? "millis").toList).toOption
    return .timeout milliseconds
  | "ResponseMismatch" => return .responseMismatch (← d.text? "expected") (← d.text? "actual")
  | "Invocation" =>
    return .invocation (← Status.ofName? (← d.text? "status")) (← d.text? "message")
  | "InvalidRequest" => return .invalidRequest (← d.text? "message")
  | "InvalidResponse" => return .invalidResponse (← d.text? "message")
  | "Registry" => return .registry (← d.text? "message")
  | "Io" => return .io (← d.text? "message")
  | "Decode" => Fault.ofDecoding? (← Serializer.ofName? (← d.text? "serializer")) (← d.bytes?)
  | _ => none

end FramedRpc
