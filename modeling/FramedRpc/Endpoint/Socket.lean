import FramedRpc.Endpoint

/-!
# Socket addresses

The numeric addresses of hosts, and the reading of a numeric address with a port. IPv6 addresses
are written in their canonical form: the first of the longest runs of zero groups is left out, and
the last two groups of an address that stands for an IPv4 one are written as that.
-/

namespace FramedRpc

inductive Address where
  | v4 (a b c d : Nat)
  /-- Eight groups of sixteen bits. -/
  | v6 (groups : List Nat)
  deriving DecidableEq, Repr

namespace Address

/-! ## Reading -/

/-- Reads from the front of a text and leaves the rest. -/
abbrev Reader := StateT (List Char) Option

def char (expected : Char) : Reader Unit
  | [] => none
  | c :: rest => if c = expected then some ((), rest) else none

/-- The value of a digit of a base up to sixteen. -/
def digitIn? (base : Nat) (c : Char) : Option Nat :=
  let value? :=
    if c.isDigit then some (c.toNat - '0'.toNat)
    else if 'a' ≤ c ∧ c ≤ 'f' then some (c.toNat - 'a'.toNat + 10)
    else if 'A' ≤ c ∧ c ≤ 'F' then some (c.toNat - 'A'.toNat + 10)
    else none
  value?.filter (· < base)

/-- The digits that come next, and the text after them. -/
def digits (base : Nat) : List Char → List Nat × List Char
  | [] => ([], [])
  | c :: rest =>
    match digitIn? base c with
    | some d => let (ds, rest) := digits base rest; (d :: ds, rest)
    | none => ([], c :: rest)

/-- A number of at least one digit that does not exceed a limit. -/
def number (base limit : Nat) (admits : List Nat → Bool) : Reader Nat := fun text =>
  let (ds, rest) := digits base text
  let value := ds.foldl (fun n d => n * base + d) 0
  if ds.isEmpty || limit < value || !admits ds then none else some (value, rest)

/-- Up to three digits, without a leading zero. -/
def octet : Reader Nat :=
  number 10 255 fun ds => ds.length ≤ 3 && (ds.length = 1 || ds.head? ≠ some 0)

def fourOctets : Reader Address := do
  let a ← octet
  char '.'
  let b ← octet
  char '.'
  let c ← octet
  char '.'
  let d ← octet
  return .v4 a b c d

def groupsOf : Address → List Nat
  | .v4 a b c d => [a * 0x100 + b, c * 0x100 + d]
  | .v6 groups => groups

/-- Reads after a colon, or without one at the beginning. -/
def afterColon {α : Type} (first : Bool) (reader : Reader α) : Reader α := do
  if first then reader
  else
    char ':'
    reader

/-- As many groups as there are, but at most `count`, and whether the last two of them were written
as an IPv4 address. -/
def groups : (count : Nat) → (first : Bool) → List Char → (List Nat × Bool) × List Char
  | 0, _, text => (([], false), text)
  | count + 1, first, text =>
    let four := if count = 0 then none else afterColon first fourOctets text
    match four with
    | some (address, rest) => ((groupsOf address, true), rest)
    | none =>
      match afterColon first (number 16 0xFFFF fun ds => ds.length ≤ 4) text with
      | none => (([], false), text)
      | some (g, rest) =>
        let ((gs, four), rest) := groups count false rest
        ((g :: gs, four), rest)

/-- Eight groups, of which a run may be left out. -/
def eightGroups : Reader Address := do
  let (head, four) ← fun text => some (groups 8 true text)
  if head.length = 8 then return .v6 head
  else
    guard !four
    char ':'
    char ':'
    let (tail, _) ← fun text => some (groups (7 - head.length) true text)
    return .v6 (head ++ List.replicate (8 - head.length - tail.length) 0 ++ tail)

def port : Reader Nat := do
  char ':'
  number 10 Endpoint.portLimit fun _ => true

/-- The number of the interface to which an address belongs. -/
def zone : Reader Unit := do
  char '%'
  let _ ← number 10 0xFFFFFFFF fun _ => true

def bracketed : Reader Address := do
  char '['
  let address ← eightGroups
  zone <|> pure ()
  char ']'
  return address

def parse? (text : String) : Option (Address × Nat) := do
  let ((address, port), rest) ← (do
    let address ← fourOctets <|> bracketed
    return (address, ← port) : Reader (Address × Nat)) text.toList
  guard rest.isEmpty
  return (address, port)

/-! ## Writing -/

/-- The start and the length of the first longest run of zeros. -/
def longestZeros (groups : List Nat) : Nat × Nat :=
  (List.range groups.length).foldl (fun (start, size) i =>
    let run := ((groups.drop i).takeWhile (· = 0)).length
    if size < run then (i, run) else (start, size)) (0, 0)

/-- Groups in hexadecimal with colons between them. -/
def groupsText (groups : List Nat) : String :=
  String.intercalate ":" (groups.map (Numeral.hexText 1))

/-- Octets in decimal with points between them. -/
def octetsText (octets : List Nat) : String :=
  String.intercalate "." (octets.map Numeral.text)

def display : Address → String
  | .v4 a b c d => octetsText [a, b, c, d]
  | .v6 groups =>
    match groups with
    | [0, 0, 0, 0, 0, 0xFFFF, g, h] =>
      "::ffff:" ++ octetsText [g / 0x100, g % 0x100, h / 0x100, h % 0x100]
    | _ =>
      let (start, size) := longestZeros groups
      if 1 < size then
        groupsText (groups.take start) ++ "::" ++ groupsText (groups.drop (start + size))
      else groupsText groups

end Address

def Endpoint.ofAddress (address : Address) (port : Nat) : Endpoint :=
  ⟨address.display, port.toUInt16⟩

/-- Reads a numeric address and a port as an endpoint. -/
def Endpoint.parseSocket (text : String) : Except Fault Endpoint :=
  match Address.parse? text with
  | some (address, port) => .ok (.ofAddress address port)
  | none => .error (.invalidRequest "invalid socket address syntax")

end FramedRpc
