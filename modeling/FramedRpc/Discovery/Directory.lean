import FramedRpc.Discovery.Balancer
import FramedRpc.Discovery.Registry

/-!
# Directories

A directory finds an endpoint for a service: it asks a registry for the endpoints and lets a
balancer choose one of them. Only a lookup that finds endpoints moves the balancer on.
-/

namespace FramedRpc

/-- A registry with its contents, and a balancer. -/
structure Directory (σ : Type) where
  backend : Backend σ
  contents : σ
  balancer : Balancer

namespace Directory

variable {σ : Type}

def query (d : Directory σ) (service : String) : Except Fault (List Endpoint) × Directory σ :=
  let (result, contents) := d.backend.query service d.contents
  (result, { d with contents })

/-- Chooses an endpoint of a service. -/
def lookup (d : Directory σ) (service : String) : Except Fault Endpoint × Directory σ :=
  match d.query service with
  | (.error fault, d) => (.error fault, d)
  | (.ok endpoints, d) =>
    match d.balancer.select endpoints with
    | (some e, balancer) => (.ok e, { d with balancer })
    | (none, balancer) => (.error (.serviceNotFound service), { d with balancer })

def register (d : Directory σ) (service : String) (e : Endpoint) :
    Except Fault Unit × Directory σ :=
  let (result, contents) := d.backend.register service e d.contents
  (result, { d with contents })

def deregister (d : Directory σ) (service : String) (e : Endpoint) :
    Except Fault Unit × Directory σ :=
  let (result, contents) := d.backend.deregister service e d.contents
  (result, { d with contents })

end Directory

end FramedRpc
