import FramedRpc.Endpoint.Socket

/-!
# Looking up hosts

From the name of a host to its address. Numeric addresses need no name service: IPv6 addresses, and
IPv4 addresses of one to four parts, each decimal, octal or hexadecimal, of which the last fills the
bytes that are left. Nor does the name of the host itself.
-/

namespace FramedRpc.Network

inductive Flaw where
  | invalidAddress
  | invalidPort
  | nullInName
  | unknownName
  | unresolvedName
  | unreachable
  | unavailable
  | invalidArgument
  deriving DecidableEq, Repr

def Flaw.message : Flaw → String
  | .invalidAddress => "invalid socket address"
  | .invalidPort => "invalid port value"
  | .nullInName => "file name contained an unexpected NUL byte"
  | .unknownName => "failed to lookup address information: Name or service not known"
  | .unresolvedName =>
    "failed to lookup address information: Temporary failure in name resolution"
  | .unreachable => "Network is unreachable (os error 101)"
  | .unavailable => "Cannot assign requested address (os error 99)"
  | .invalidArgument => "Invalid argument (os error 22)"

/-! ## Numeric addresses -/

/-- The value of a numeral in a base, if all its characters are digits. -/
def numeral? (base : Nat) (text : List Char) : Option Nat :=
  match Address.digits base text with
  | ([], _) | (_, _ :: _) => none
  | (ds, []) => some (ds.foldl (fun n d => n * base + d) 0)

/-- The value of a part of an IPv4 address, whose base shows in its first characters. -/
def part? : List Char → Option Nat
  | '0' :: 'x' :: rest | '0' :: 'X' :: rest => numeral? 16 rest
  | ['0'] => some 0
  | '0' :: rest => numeral? 8 rest
  | text => numeral? 10 text

/-- The number of an IPv4 address: each part but the last is a byte, and the last one fills what is
left of `size` bytes. -/
def joinParts? : (size : Nat) → List Nat → Option Nat
  | _, [] => none
  | size, [last] => if last < Nat.pow 0x100 size then some last else none
  | size, part :: rest => do
    guard (part < 0x100)
    return part * Nat.pow 0x100 (size - 1) + (← joinParts? (size - 1) rest)

/-- An IPv4 address of one to four parts. -/
def fourBytes? (host : String) : Option Address := do
  let parts ← (host.splitOn ".").mapM fun part => part? part.toList
  guard (parts.length ≤ 4)
  let n ← joinParts? 4 parts
  return .v4 (n / 0x1000000) (n / 0x10000 % 0x100) (n / 0x100 % 0x100) (n % 0x100)

/-- An IPv6 address, and whether the interface to which it belongs is given. -/
def eightGroups? (host : String) : Option (Address × Bool) :=
  match Address.eightGroups host.toList with
  | some (address, []) => some (address, false)
  | some (address, '%' :: interface) =>
    if interface = ['l', 'o'] ∨ (numeral? 10 interface).isSome then some (address, true) else none
  | _ => none

/-! ## Names -/

def isNameChar (c : Char) : Bool := c.isAlphanum || c = '-' || c = '_'

/-- Whether a text can be the name of a host: labels of one to 63 characters with points between
them, the first of which does not begin with a hyphen. -/
def isName (host : String) : Bool :=
  let labels := host.splitOn "."
  let labels := if labels.getLast? = some "" then labels.dropLast else labels
  host.toList.head? ≠ some '-' && !labels.isEmpty &&
    labels.all fun label => label ≠ "" && label.length ≤ 63 && label.toList.all isNameChar

/-- The address of a host without a name service, and whether its interface is given. -/
def resolve (host : String) : Except Flaw (Address × Bool) :=
  if host.toList.contains '\x00' then .error .nullInName
  else
    match fourBytes? host, eightGroups? host with
    | some address, _ => .ok (address, false)
    | none, some found => .ok found
    | none, none =>
      if host.map Char.toLower = "localhost" then .ok (.v4 127 0 0 1, false)
      else if isName host then .error .unresolvedName
      else .error .unknownName

end FramedRpc.Network
