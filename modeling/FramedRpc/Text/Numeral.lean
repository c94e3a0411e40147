/-!
# Numerals

Reading decimal numerals of a bounded range, with the reason when a text is none, and writing
numbers in decimal and hexadecimal. Reading goes from left to right and stops at the first fault,
so a text with two faults reports the one that comes first.
-/

namespace FramedRpc.Numeral

/-- Why a text is not a numeral of the wanted range. -/
inductive Flaw where
  | empty
  | invalidDigit
  | tooLarge
  | tooSmall
  deriving DecidableEq, Repr

def Flaw.message : Flaw → String
  | .empty => "cannot parse integer from empty string"
  | .invalidDigit => "invalid digit found in string"
  | .tooLarge => "number too large to fit in target type"
  | .tooSmall => "number too small to fit in target type"

def digit? (c : Char) : Option Nat :=
  if c.isDigit then some (c.toNat - '0'.toNat) else none

/-- Continues the numeral read so far as `value`, which may not grow beyond `limit`. -/
def readDigits (limit : Nat) (overflow : Flaw) (value : Nat) : List Char → Except Flaw Nat
  | [] => .ok value
  | c :: rest =>
    match digit? c with
    | none => .error .invalidDigit
    | some d =>
      if value * 10 + d ≤ limit then readDigits limit overflow (value * 10 + d) rest
      else .error overflow

def readNat (limit : Nat) : List Char → Except Flaw Nat
  | [] => .error .empty
  | ['+'] => .error .invalidDigit
  | '+' :: rest => readDigits limit .tooLarge 0 rest
  | text => readDigits limit .tooLarge 0 text

/-- Reads an integer from `-(limit + 1)` to `limit`, with an optional sign. -/
def readInt (limit : Nat) : List Char → Except Flaw Int
  | [] => .error .empty
  | ['-'] => .error .invalidDigit
  | '-' :: rest => do
    let size ← readDigits (limit + 1) .tooSmall 0 rest
    return -(size : Int)
  | text => do
    let size ← readNat limit text
    return (size : Int)

/-- The decimal digits of a number, without leading zeros. -/
def decimal (n : Nat) : List Char := Nat.toDigits 10 n

def text (n : Nat) : String := String.ofList (decimal n)

/-- An integer in decimal, with a minus sign where it is negative. -/
def intText (i : Int) : String :=
  if i < 0 then "-" ++ text i.natAbs else text i.natAbs

/-- The lower-case hexadecimal digits of a number, filled up with zeros to `width` digits. -/
def hexText (width : Nat) (n : Nat) : String :=
  String.ofList ((Nat.toDigits 16 n).leftpad width '0')

end FramedRpc.Numeral
