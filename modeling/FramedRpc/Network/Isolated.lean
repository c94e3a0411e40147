import FramedRpc.Network.Lookup

/-!
# A host without a network

What a host answers whose network is down: it may listen on most addresses, but nobody can be
reached, not even the host itself.
-/

namespace FramedRpc.Network.Isolated

/-- The first group of an IPv6 address that does not stand for an IPv4 one. -/
def leadingGroup? : Address → Option Nat
  | .v4 _ _ _ _ => none
  | .v6 [0, 0, 0, 0, 0, 0xFFFF, _, _] => none
  | .v6 groups => groups.head?

/-- Addresses that mean something only together with an interface. -/
def isLinkLocal (group : Nat) : Bool := 0xFE80 ≤ group && group < 0xFEC0

/-- Addresses of groups of hosts. -/
def isMulticast (group : Nat) : Bool := 0xFF00 ≤ group

/-- Why an address cannot be connected to. -/
def connectFlaw (address : Address) (zoned : Bool) : Flaw :=
  match leadingGroup? address with
  | none => .unreachable
  | some group =>
    if isMulticast group then .unreachable
    else if isLinkLocal group && !zoned then .invalidArgument
    else .unavailable

def connect (e : Endpoint) : Flaw :=
  match resolve e.host with
  | .error flaw => flaw
  | .ok (address, zoned) => connectFlaw address zoned

/-- Why an address cannot be listened on, if it cannot. -/
def bindFlaw? (address : Address) (zoned : Bool) : Option Flaw :=
  match leadingGroup? address with
  | none => none
  | some group =>
    if address = .v6 (List.replicate 8 0) then none
    else if isMulticast group || (isLinkLocal group && !zoned) then some .invalidArgument
    else some .unavailable

/-- The host and the port of an address to listen on. -/
def bindTarget (address : String) : Except Flaw ((Address × Bool) × Nat) :=
  match Address.parse? address with
  | some (a, port) => .ok ((a, false), port)
  | none =>
    match Endpoint.splitPort? address.toList with
    | none => .error .invalidAddress
    | some (host, port) =>
      match Numeral.readNat Endpoint.portLimit port with
      | .error _ => .error .invalidPort
      | .ok port => do return (← resolve (String.ofList host), port)

def bind (freePort : Nat) (address : String) : Except Flaw Endpoint := do
  let ((a, zoned), port) ← bindTarget address
  match bindFlaw? a zoned with
  | some flaw => throw flaw
  | none => return .ofAddress a (if port = 0 then freePort else port)

end FramedRpc.Network.Isolated
