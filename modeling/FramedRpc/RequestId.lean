import FramedRpc.Text.Numeral

/-!
# Identifiers of requests

Every request is identified by a random UUID: 128 bits, of which six tell that the others are
random, written in hexadecimal in groups of eight, four, four, four and twelve digits.
-/

namespace FramedRpc.RequestId

/-- The upper half of a UUID, with the version in its last sixteen bits but the lower twelve. -/
def upperHalf (draw : Nat) : Nat :=
  draw % 0x10000000000000000 / 0x10000 * 0x10000 + 0x4000 + draw % 0x1000

/-- The lower half of a UUID, whose two first bits are fixed. -/
def lowerHalf (draw : Nat) : Nat := 0x8000000000000000 + draw % 0x4000000000000000

/-- Puts hyphens between groups of the given lengths. -/
def hyphenated : (groups : List Nat) → List Char → List Char
  | [], rest => rest
  | size :: groups, digits =>
    digits.take size ++ '-' :: hyphenated groups (digits.drop size)

/-- The UUID of two random numbers of 64 bits. -/
def ofDraws (upper lower : Nat) : String :=
  String.ofList (hyphenated [8, 4, 4, 4]
    ((Numeral.hexText 16 (upperHalf upper)).toList ++
      (Numeral.hexText 16 (lowerHalf lower)).toList))

/-- The characters that may stand at each place of a random UUID. -/
def pattern : List (List Char) :=
  let digit := "0123456789abcdef".toList
  let digits (count : Nat) := List.replicate count digit
  let hyphen := [['-']]
  digits 8 ++ hyphen ++ digits 4 ++ hyphen ++ [['4']] ++ digits 3 ++ hyphen ++
    ["89ab".toList] ++ digits 3 ++ hyphen ++ digits 12

/-- Whether every character of a text may stand where it does. -/
def fits : List (List Char) → List Char → Bool
  | [], [] => true
  | allowed :: pattern, c :: rest => allowed.contains c && fits pattern rest
  | _, _ => false

def isRandomUuid (text : String) : Bool := fits pattern text.toList

end FramedRpc.RequestId
