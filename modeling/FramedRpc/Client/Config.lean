import FramedRpc.Discovery.Balancer
import FramedRpc.Frame
import FramedRpc.Liveness

/-!
# Configuration of a client

How a client connects, encodes, chooses among servers, and how long it waits. Times are counted in
milliseconds.
-/

namespace FramedRpc

structure ConnectionConfig where
  connectTimeout : Nat
  /-- After so long without writing a heartbeat is sent. -/
  writeIdle : Option Nat
  /-- The longest message that is accepted or sent. -/
  maxFrameLength : Nat
  deriving DecidableEq, Repr

def ConnectionConfig.standard : ConnectionConfig where
  connectTimeout := 5000
  writeIdle := some IdleLimits.standardWriteIdle
  maxFrameLength := Codec.standardLimit

def ConnectionConfig.codec (c : ConnectionConfig) : Codec := ⟨.all, c.maxFrameLength⟩

def ConnectionConfig.idleLimits (c : ConnectionConfig) : IdleLimits := ⟨none, c.writeIdle⟩

structure ClientConfig where
  serializer : Serializer
  /-- How long a call waits for its response. -/
  callTimeout : Nat
  policy : Balancer.Policy
  connection : ConnectionConfig
  deriving DecidableEq, Repr

def ClientConfig.standard : ClientConfig where
  serializer := .standard
  callTimeout := 10000
  policy := .standard
  connection := .standard

end FramedRpc
