import FramedRpc.Frame
import FramedRpc.Endpoint
import FramedRpc.Liveness

/-!
# Configuration of a server

Where a server listens, how it is announced, and its limits.
-/

namespace FramedRpc

structure ServerConfig where
  /-- The address to listen on, as it is written. -/
  bindAddress : String
  /-- The endpoint to register; without one it is the address that is bound. -/
  advertised : Option Endpoint
  /-- Connections that are silent for so many milliseconds are closed. -/
  readIdle : Option Nat
  /-- The number of methods that may run at a time. -/
  maxWorkers : Nat
  /-- The longest message that is accepted or sent. -/
  maxFrameLength : Nat
  deriving DecidableEq, Repr

namespace ServerConfig

def listeningOn (bindAddress : String) : ServerConfig where
  bindAddress := bindAddress
  advertised := none
  readIdle := some IdleLimits.standardReadIdle
  maxWorkers := 16
  maxFrameLength := Codec.standardLimit

def standard : ServerConfig := listeningOn "127.0.0.1:9000"

def withMaxWorkers (c : ServerConfig) (count : Nat) : ServerConfig :=
  { c with maxWorkers := max count 1 }

def idleLimits (c : ServerConfig) : IdleLimits := ⟨c.readIdle, none⟩

end ServerConfig

end FramedRpc
