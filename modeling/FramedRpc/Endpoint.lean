import FramedRpc.Fault
import FramedRpc.Wire.Shape

/-!
# Endpoints

A host and a port, written `host:port`. Where the host holds a colon it is written in brackets, so
that the text can be read back: the last colon ends the host.
-/

namespace FramedRpc

open Wire (HasShape Shape)

structure Endpoint where
  host : String
  port : UInt16
  deriving DecidableEq, Repr

namespace Endpoint

def portLimit : Nat := 0xFFFF

def display (e : Endpoint) : String :=
  if e.host.toList.contains ':' then "[" ++ e.host ++ "]:" ++ Numeral.text e.port.toNat
  else e.host ++ ":" ++ Numeral.text e.port.toNat

/-- Splits a text at its last colon. -/
def splitPort? (text : List Char) : Option (List Char × List Char) :=
  match text.reverse.span (· ≠ ':') with
  | (_, []) => none
  | (port, _ :: host) => some (host.reverse, port.reverse)

/-- A host without the brackets around it. -/
def unbracket (host : List Char) : List Char :=
  ((host.dropWhile (· = '[')).reverse.dropWhile (· = ']')).reverse

/-- Why a text is not an endpoint. -/
inductive Flaw where
  | missingPort
  | badPort (flaw : Numeral.Flaw)
  | missingHost
  deriving DecidableEq, Repr

def Flaw.message : Flaw → String
  | .missingPort => "missing port"
  | .badPort flaw => flaw.message
  | .missingHost => "missing host"

def read (text : List Char) : Except Flaw Endpoint :=
  match splitPort? text with
  | none => .error .missingPort
  | some (host, port) =>
    match Numeral.readNat portLimit port with
    | .error flaw => .error (.badPort flaw)
    | .ok port =>
      match unbracket host with
      | [] => .error .missingHost
      | host => .ok ⟨String.ofList host, port.toUInt16⟩

def parse (text : String) : Except Fault Endpoint :=
  (read text.toList).mapError fun flaw =>
    .invalidRequest ("Invalid endpoint '" ++ text ++ "': " ++ flaw.message)

/-- Whether an endpoint comes before another one or equals it: by host, then by port. -/
def precedes (a b : Endpoint) : Bool :=
  a.host < b.host || (a.host = b.host && a.port ≤ b.port)

/-- Endpoints in ascending order. -/
def sort (endpoints : List Endpoint) : List Endpoint := endpoints.mergeSort precedes

instance : HasShape Endpoint where
  shape := .record "nexrpc_common::protocol::endpoint" "Endpoint"
    (.cons "host" .text (.cons "port" .u16 .nil))
  toValue e := (e.host, e.port, ())
  ofValue := fun (host, port, _) => ⟨host, port⟩

end Endpoint

end FramedRpc
