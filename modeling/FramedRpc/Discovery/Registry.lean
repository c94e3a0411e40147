import FramedRpc.Endpoint

/-!
# Registries

A registry knows which endpoints offer which services. The registry in memory keeps the endpoints
of a service in the order in which they were registered, each once; a fixed registry answers every
query with the same endpoints.
-/

namespace FramedRpc

/-- The operations of a registry that keeps its contents in a value of type `σ`. -/
structure Backend (σ : Type) where
  register : (service : String) → Endpoint → σ → Except Fault Unit × σ
  deregister : (service : String) → Endpoint → σ → Except Fault Unit × σ
  query : (service : String) → σ → Except Fault (List Endpoint) × σ

/-- The contents of the registry in memory: the services that have endpoints, and those endpoints. -/
structure Registry where
  services : List (String × List Endpoint)

namespace Registry

def empty : Registry := ⟨[]⟩

def query (r : Registry) (service : String) : List Endpoint :=
  (r.services.lookup service).getD []

/-- Sets the endpoints of a service; without endpoints it is forgotten. -/
def put (r : Registry) (service : String) (endpoints : List Endpoint) : Registry :=
  let others := r.services.filter fun s => s.1 ≠ service
  if endpoints.isEmpty then ⟨others⟩ else ⟨others ++ [(service, endpoints)]⟩

def register (r : Registry) (service : String) (e : Endpoint) : Registry :=
  if (r.query service).contains e then r else r.put service (r.query service ++ [e])

def deregister (r : Registry) (service : String) (e : Endpoint) : Registry :=
  r.put service ((r.query service).filter fun other => other ≠ e)

/-- The names of the services that have endpoints, in ascending order. -/
def names (r : Registry) : List String :=
  (r.services.map Prod.fst).mergeSort fun a b => a ≤ b

end Registry

namespace Backend

def memory : Backend Registry where
  register service e r := (.ok (), r.register service e)
  deregister service e r := (.ok (), r.deregister service e)
  query service r := (.ok (r.query service), r)

/-- The registry that knows some endpoints for every service and ignores registrations. -/
def fixed (endpoints : List Endpoint) : Backend Unit where
  register _ _ _ := (.ok (), ())
  deregister _ _ _ := (.ok (), ())
  query _ _ := (.ok endpoints, ())

inductive Operation where
  | register
  | deregister
  | query
  deriving DecidableEq, Repr

def Operation.name : Operation → String
  | .register => "register"
  | .deregister => "deregister"
  | .query => "query"

/-- A registry that refuses some operations on some services and leaves the rest to another one. -/
def refusing {σ : Type} (refuses : Operation → String → Bool) (b : Backend σ) : Backend σ :=
  let fault (operation : Operation) (service : String) : Fault :=
    .registry (operation.name ++ " " ++ service)
  { register := fun service e s =>
      if refuses .register service then (.error (fault .register service), s)
      else b.register service e s
    deregister := fun service e s =>
      if refuses .deregister service then (.error (fault .deregister service), s)
      else b.deregister service e s
    query := fun service s =>
      if refuses .query service then (.error (fault .query service), s) else b.query service s }

/-- The refusals by name: nothing works for services named `bad…`, and those named `sticky…` cannot
be deregistered. -/
def refusesByName (operation : Operation) (service : String) : Bool :=
  "bad".toList.isPrefixOf service.toList ||
    (operation = .deregister && "sticky".toList.isPrefixOf service.toList)

end Backend

end FramedRpc
