import FramedRpc.Text.Utf8
import FramedRpc.Wire.Json.Cursor

/-!
# Words, numbers and strings of JSON

The scanners of the smallest parts of a JSON text. A number without fraction and exponent is an
integer as long as it fits into 64 bits, and a double-precision number otherwise; minus zero is a
double-precision number too. A string is put together as bytes and has to be UTF-8 as a whole.
-/

namespace FramedRpc.Wire.Json

open Scanner

def isDigit (b : UInt8) : Bool := 0x30 ≤ b && b ≤ 0x39

def digitValue (b : UInt8) : Nat := b.toNat - 0x30

def word : List UInt8 → Scanner Unit
  | [] => return ()
  | expected :: more => do
    match (← next?) with
    | none => fail .endOfValue
    | some b => if b = expected then word more else fail .expectedIdent

/-- What follows the first letter of `null`. -/
def wordNull : Scanner Unit := word [0x75, 0x6C, 0x6C]

/-- What follows the first letter of `true`. -/
def wordTrue : Scanner Unit := word [0x72, 0x75, 0x65]

/-- What follows the first letter of `false`. -/
def wordFalse : Scanner Unit := word [0x61, 0x6C, 0x73, 0x65]

/-! ## Numbers -/

/-- A number as it was written. -/
inductive Number where
  | natural (n : Nat)
  | negative (i : Int)
  | double (x : Float)

def Number.found : Number → Found
  | .natural n => .integer n
  | .negative i => .integer i
  | .double x => .double x

/-- The largest integer that is kept exactly. -/
def integerLimit : Nat := 0xFFFFFFFFFFFFFFFF

def exponentLimit : Nat := 0x7FFFFFFF

/-- The digits that come next, and the bytes after them. -/
def spanDigits : List UInt8 → List Nat × List UInt8
  | [] => ([], [])
  | b :: rest =>
    if isDigit b then
      let (digits, rest) := spanDigits rest
      (digitValue b :: digits, rest)
    else ([], b :: rest)

def digits : Scanner (List Nat) := fun c =>
  let (digits, rest) := spanDigits c.rest
  .ok (digits, ⟨c.line, c.column + digits.length, rest⟩)

/-- Appends digits to a number up to the first one with which it would exceed a limit, and gives
the digits that are left. -/
def absorb (limit value : Nat) : List Nat → Nat × List Nat
  | [] => (value, [])
  | d :: rest =>
    if limit < value * 10 + d then (value, d :: rest) else absorb limit (value * 10 + d) rest

/-- The number `x * 10 ^ exponent`, scaled down by powers of ten up to `10 ^ 308` at a time. -/
def scaleBy (x : Float) (exponent : Int) : (fuel : Nat) → Option Float
  | 0 => some x
  | fuel + 1 =>
    if exponent.natAbs ≤ 308 then
      if 0 ≤ exponent then
        let y := x * Float.ofScientific 1 false exponent.natAbs
        if y.isInf then none else some y
      else some (x / Float.ofScientific 1 false exponent.natAbs)
    else if x == 0.0 then some x
    else if 0 ≤ exponent then none
    else scaleBy (x / Float.ofScientific 1 false 308) (exponent + 308) fuel

/-- A double-precision number from its sign, digits and decimal exponent. -/
def double (positive : Bool) (significand : Nat) (exponent : Int) : Scanner Number := do
  match scaleBy (Float.ofNat significand) exponent 8 with
  | some x => return .double (if positive then x else -x)
  | none => fail .numberOutOfRange

/-- The sign of an exponent; without one it is positive. -/
def exponentSign : Scanner Bool := do
  match (← peek?) with
  | some 0x2B => do advance; return true
  | some 0x2D => do advance; return false
  | _ => return true

/-- A number with an exponent, from the letter on. A too large exponent is refused, unless it is
negative or that of zero, where the number is zero. -/
def exponent (positive : Bool) (significand : Nat) (places : Int) : Scanner Number := do
  advance
  let rising ← exponentSign
  let before ← get
  match (← digits) with
  | [] => do
    match (← next?) with
    | none => fail .endOfValue
    | some _ => fail .invalidNumber
  | all =>
    match absorb exponentLimit 0 all with
    | (e, []) =>
      let total := if rising then places + e else places - e
      double positive significand (max (-0x80000000) (min total exponentLimit))
    | (_, left) =>
      if significand ≠ 0 ∧ rising then
        let read := all.length - left.length + 1
        throw ⟨.numberOutOfRange, before.line, before.column + read⟩
      else return .double (if positive then 0.0 else -0.0)

/-- What follows the fraction of a number. -/
def afterFraction (positive : Bool) (significand : Nat) (places : Int) : Scanner Number := do
  match (← peek?) with
  | some 0x65 | some 0x45 => exponent positive significand places
  | _ => double positive significand places

/-- A number with a fraction, from the point on. Digits that do not fit are ignored. -/
def fraction (positive : Bool) (significand : Nat) (places : Int) : Scanner Number := do
  advance
  match (← digits) with
  | [] => do
    match (← peek?) with
    | none => failAhead .endOfValue
    | some _ => failAhead .invalidNumber
  | all =>
    let (significand, left) := absorb integerLimit significand all
    afterFraction positive significand (places - (all.length - left.length : Nat))

/-- An integer as it is kept: below the range, and for minus zero, as double-precision number. -/
def Number.ofInteger (positive : Bool) (n : Nat) : Number :=
  if positive then .natural n
  else if 0 < n ∧ n ≤ 0x8000000000000000 then .negative (-(n : Int))
  else .double (-(Float.ofNat n))

/-- What follows the digits before the point, of which the last `places` did not fit. -/
def afterInteger (positive : Bool) (significand places : Nat) : Scanner Number := do
  match (← peek?) with
  | some 0x2E => fraction positive significand places
  | some 0x65 | some 0x45 => exponent positive significand places
  | _ =>
    if places = 0 then return .ofInteger positive significand
    else double positive significand places

/-- A number after its sign. A leading zero stands alone. -/
def number (positive : Bool) : Scanner Number := do
  match (← next?) with
  | none => fail .endOfValue
  | some b =>
    if b = 0x30 then
      match (← peek?) with
      | some d => if isDigit d then failAhead .invalidNumber else afterInteger positive 0 0
      | none => afterInteger positive 0 0
    else if isDigit b then
      let (significand, left) := absorb integerLimit (digitValue b) (← digits)
      afterInteger positive significand left.length
    else fail .invalidNumber

/-! ## Strings -/

/-- The value of a hexadecimal digit. -/
def hexValue? (b : UInt8) : Option Nat :=
  if isDigit b then some (digitValue b)
  else if 0x61 ≤ b && b ≤ 0x66 then some (b.toNat - 0x61 + 10)
  else if 0x41 ≤ b && b ≤ 0x46 then some (b.toNat - 0x41 + 10)
  else none

/-- The code unit of four hexadecimal digits. -/
def codeUnit? (a b c d : UInt8) : Option Nat := do
  let a ← hexValue? a
  let b ← hexValue? b
  let c ← hexValue? c
  let d ← hexValue? d
  return ((a * 16 + b) * 16 + c) * 16 + d

def hexEscape : Scanner Nat := fun cursor =>
  match cursor.rest with
  | a :: b :: c :: d :: _ =>
    let after := cursor.advance.advance.advance.advance
    match codeUnit? a b c d with
    | some n => .ok (n, after)
    | none => .error (after.flaw .invalidEscape)
  | rest => .error ((rest.foldl (fun c _ => c.advance) cursor).flaw .endOfString)

/-- The next byte of a string, which may not end here. -/
def nextInString : Scanner UInt8 := do
  match (← next?) with
  | some b => return b
  | none => fail .endOfString

/-- The next byte of a string, which is `expected` in the second half of a surrogate pair. -/
def expectInPair (expected : UInt8) : Scanner Unit := do
  match (← peek?) with
  | none => fail .endOfString
  | some b =>
    advance
    if b = expected then return () else fail .shortHexEscape

/-- The code point of an escape by number; surrogates come in pairs. -/
def codePoint : Scanner Nat := do
  let first ← hexEscape
  if 0xDC00 ≤ first ∧ first ≤ 0xDFFF then fail .loneSurrogate
  else if first < 0xD800 ∨ 0xDBFF < first then return first
  else
    expectInPair 0x5C
    expectInPair 0x75
    let second ← hexEscape
    if second < 0xDC00 ∨ 0xDFFF < second then fail .loneSurrogate
    else return (first - 0xD800) * 0x400 + (second - 0xDC00) + 0x10000

/-- The byte that a one-letter escape stands for. -/
def shortEscape? (b : UInt8) : Option UInt8 :=
  match b with
  | 0x22 => some 0x22
  | 0x5C => some 0x5C
  | 0x2F => some 0x2F
  | 0x62 => some 0x08
  | 0x66 => some 0x0C
  | 0x6E => some 0x0A
  | 0x72 => some 0x0D
  | 0x74 => some 0x09
  | _ => none

def escape : Scanner (List UInt8) := do
  let b ← nextInString
  match shortEscape? b with
  | some plain => return [plain]
  | none => if b = 0x75 then return Utf8.encodeScalar (← codePoint) else fail .invalidEscape

/-- The bytes of a string up to its closing quote, after those that are `done`, last first. Each
round reads at least one byte, so as many rounds as there are bytes suffice. -/
def stringBytes : (rounds : List UInt8) → (done : List UInt8) → Scanner (List UInt8)
  | [], _ => fail .endOfString
  | _ :: rounds, done => do
    match (← next?) with
    | none => fail .endOfString
    | some b =>
      if b = 0x22 then return done.reverse
      else if b = 0x5C then
        let plain ← escape
        stringBytes rounds (plain.reverse ++ done)
      else if b < 0x20 then fail .controlCharacter
      else stringBytes rounds (b :: done)

/-- A string after its opening quote. One that is not UTF-8 is refused at a column that counts back
from its end, by the number of bytes from the first wrong one on after escapes were replaced. -/
def stringAfterQuote : Scanner String := do
  let start ← get
  let bytes ← stringBytes start.rest []
  match Utf8.decode bytes with
  | .ok s => return s
  | .error flaw => do
    let reached ← get
    throw ⟨.invalidCodePoint, reached.line, reached.column - (bytes.length - flaw.validUpTo)⟩

end FramedRpc.Wire.Json
