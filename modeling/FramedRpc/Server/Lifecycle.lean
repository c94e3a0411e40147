import FramedRpc.Discovery.Registry
import FramedRpc.Server.Catalogue
import FramedRpc.Server.Config
import FramedRpc.Server.WorkerPool

/-!
# Starting and stopping a server

A server that starts listens on its address, registers its services in ascending order of their
names, and makes its workers. It does not start if the address cannot be listened on or a
registration is refused. A server that stops deregisters every service, whatever is refused, and
then closes its listener and all connections.
-/

namespace FramedRpc

/-- A server that does not listen yet. -/
structure Server where
  config : ServerConfig
  catalogue : Catalogue
  plugins : Plugins

structure RunningServer where
  /-- The address that is listened on. -/
  bound : Endpoint
  /-- The endpoint that is registered. -/
  endpoint : Endpoint
  services : List String
  /-- Whether connections are taken. -/
  listening : Bool
  deriving DecidableEq, Repr

variable {σ : Type}

namespace Server

def bindFault (address detail : String) : Fault :=
  .connection ("Failed to bind to " ++ address ++ ": " ++ detail)

/-- The endpoint that is registered by a server that listens on an address. -/
def announced (server : Server) (bound : Endpoint) : Endpoint :=
  server.config.advertised.getD bound

def codec (server : Server) : Codec := ⟨server.plugins, server.config.maxFrameLength⟩

/-- Registers an endpoint for services one after the other, up to the first refusal. -/
def registerAll (b : Backend σ) (e : Endpoint) : List String → σ → Except Fault Unit × σ
  | [], s => (.ok (), s)
  | service :: rest, s =>
    match b.register service e s with
    | (.ok (), s) => registerAll b e rest s
    | (.error fault, s) => (.error fault, s)

/-- Starts a server, given the address that is listened on or why there is none. More workers than can
be made break the start off after the registrations. -/
def start (server : Server) (b : Backend σ) (listener : Except String Endpoint) (s : σ) :
    Outcome RunningServer × σ :=
  match listener with
  | .error detail => (.failed (bindFault server.config.bindAddress detail), s)
  | .ok bound =>
    let endpoint := server.announced bound
    let services := server.catalogue.names
    match registerAll b endpoint services s with
    | (.error fault, s) => (.failed fault, s)
    | (.ok (), s) =>
      if WorkerPool.admits server.config.maxWorkers then
        (.returned ⟨bound, endpoint, services, true⟩, s)
      else (.panicked WorkerPool.tooManyMessage, s)

end Server

namespace RunningServer

/-- Takes an endpoint from every service, and reports the first refusal. -/
def deregisterAll (b : Backend σ) (e : Endpoint) : List String → σ → Except Fault Unit × σ
  | [], s => (.ok (), s)
  | service :: rest, s =>
    let (first, s) := b.deregister service e s
    let (later, s) := deregisterAll b e rest s
    (first >>= fun _ => later, s)

def stop (server : RunningServer) (b : Backend σ) (s : σ) :
    Except Fault Unit × RunningServer × σ :=
  let (result, s) := deregisterAll b server.endpoint server.services s
  (result, { server with listening := false }, s)

end RunningServer

end FramedRpc
