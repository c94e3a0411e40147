import FramedRpc.Discovery.Random
import FramedRpc.Endpoint

/-!
# Load balancing

The choice of one endpoint among those that offer a service: at random, or in turns. The turns are
kept by a cursor that lasts while the list changes.
-/

namespace FramedRpc

/-- What a balancer remembers between two choices. -/
inductive Balancer where
  | random (generator : Random.Generator)
  | roundRobin (cursor : Nat)

namespace Balancer

/-- A cursor for a list of some length: one beyond the end is reduced. -/
def reduced (cursor length : Nat) : Nat := if length ≤ cursor then cursor % length else cursor

/-- Chooses an endpoint; there is no choice among none. -/
def select (b : Balancer) (endpoints : List Endpoint) : Option Endpoint × Balancer :=
  if endpoints.isEmpty then (none, b)
  else
    match b with
    | .random generator =>
      let choice := generator.choose endpoints.length
      (endpoints[choice.1]?, .random choice.2)
    | .roundRobin cursor =>
      let i := reduced cursor endpoints.length
      (endpoints[i]?, .roundRobin (i + 1))

/-- Chooses an endpoint of each list, one after the other. -/
def selectAll : Balancer → List (List Endpoint) → List (Option Endpoint)
  | _, [] => []
  | b, endpoints :: rest =>
    let (e, b) := b.select endpoints
    e :: selectAll b rest

inductive Policy where
  | random
  | roundRobin
  deriving DecidableEq, Repr

namespace Policy

def standard : Policy := .random

def name : Policy → String
  | .random => "random"
  | .roundRobin => "round-robin"

def parse (text : String) : Except Fault Policy :=
  match text.map Char.toLower with
  | "random" => .ok .random
  | "round-robin" | "roundrobin" | "rr" => .ok .roundRobin
  | other => .error (.invalidRequest ("Unknown load balancer '" ++ other ++ "'"))

/-- A balancer that has not chosen yet. The seed is used where the choice is random. -/
def balancer (policy : Policy) (seed : UInt64) : Balancer :=
  match policy with
  | .random => .random (.ofSeed seed)
  | .roundRobin => .roundRobin 0

end Policy

end Balancer

end FramedRpc
