import FramedRpc.Text.Numeral

/-!
# Double-precision numbers as text

The text of a finite double-precision number is its shortest decimal: the fewest digits that read
back as the same number and, among those, the nearest to it. Numbers whose first digit stands
between the fifth place after the point and the sixteenth before it are written positionally, the
others with an exponent that always has a sign.
-/

namespace FramedRpc.Double

/-- A positive number `mantissa * 2 ^ exponent`. -/
structure Dyadic where
  mantissa : Nat
  exponent : Int

/-- The magnitude that the bits of a finite double-precision number stand for. -/
def Dyadic.ofBits (bits : UInt64) : Dyadic :=
  let field : Nat := bits.toNat / 0x10000000000000 % 0x800
  let fraction : Nat := bits.toNat % 0x10000000000000
  if field = 0 then ⟨fraction, -1074⟩ else ⟨0x10000000000000 + fraction, (field : Int) - 1075⟩

/-- A quotient of natural numbers. -/
structure Ratio where
  num : Nat
  den : Nat

def Ratio.le (a b : Ratio) : Bool := a.num * b.den ≤ b.num * a.den

def Ratio.lt (a b : Ratio) : Bool := a.num * b.den < b.num * a.den

/-- The number `n * base ^ exponent`. -/
def Ratio.scaled (n base : Nat) (exponent : Int) : Ratio :=
  if 0 ≤ exponent then ⟨n * Nat.pow base exponent.toNat, 1⟩ else ⟨n, Nat.pow base (-exponent).toNat⟩

/-- The numbers that round to a double-precision number lie between `low` and `high`; the ends
belong to them iff `closed`. -/
structure Interval where
  low : Ratio
  high : Ratio
  closed : Bool

/-- Half the distance to the neighbours on each side; below a power of two they lie closer. -/
def Dyadic.interval (d : Dyadic) : Interval :=
  let below := if d.mantissa = 0x10000000000000 ∧ -1074 < d.exponent then 1 else 2
  { low := Ratio.scaled (4 * d.mantissa - below) 2 (d.exponent - 2)
    high := Ratio.scaled (4 * d.mantissa + 2) 2 (d.exponent - 2)
    closed := d.mantissa % 2 = 0 }

def Interval.contains (i : Interval) (r : Ratio) : Bool :=
  if i.closed then i.low.le r && r.le i.high else i.low.lt r && r.lt i.high

/-- The least `j ≤ fuel` with `den ≤ num * 10 ^ j`. -/
def placesBelowOne (den : Nat) : (fuel : Nat) → (num : Nat) → Nat
  | 0, _ => 0
  | fuel + 1, num => if den ≤ num then 0 else placesBelowOne den fuel (num * 10) + 1

/-- The decimal exponent of the first digit of a positive number. -/
def Ratio.magnitude (r : Ratio) : Int :=
  if r.den ≤ r.num then ((Numeral.decimal (r.num / r.den)).length : Int) - 1
  else -(placesBelowOne r.den 400 r.num : Int)

/-- Digits whose first one counts in units of `10 ^ exponent`. -/
structure Decimal where
  digits : List Char
  exponent : Int

/-- The candidates with `count` digits next to a number: of two that read back, the nearer. -/
def closest (value : Ratio) (i : Interval) (magnitude : Int) (count : Nat) : Option Decimal :=
  let unit := magnitude - (count - 1 : Nat)
  let scale := Ratio.scaled 1 10 unit
  let below := value.num * scale.den / (value.den * scale.num)
  let point (n : Nat) : Ratio := ⟨n * scale.num, scale.den⟩
  let decimal (n : Nat) : Decimal :=
    let digits := Numeral.decimal n
    ⟨digits, unit + (digits.length - 1 : Nat)⟩
  let belowHits := 0 < below && i.contains (point below)
  let aboveHits := i.contains (point (below + 1))
  if belowHits && aboveHits then
    let midpoint : Ratio := ⟨(2 * below + 1) * scale.num, 2 * scale.den⟩
    if value.lt midpoint || (value.le midpoint && below % 2 = 0) then some (decimal below)
    else some (decimal (below + 1))
  else if belowHits then some (decimal below)
  else if aboveHits then some (decimal (below + 1))
  else none

/-- The shortest decimal, found by trying ever more digits; seventeen always suffice. -/
def Dyadic.shortest (d : Dyadic) : Decimal :=
  let value := Ratio.scaled d.mantissa 2 d.exponent
  let i := d.interval
  let magnitude := value.magnitude
  ((List.range 17).findSome? fun n => closest value i magnitude (n + 1)).getD ⟨['0'], 0⟩

/-- Drops the zeros at the end, but not the first digit. -/
def dropZeros (digits : List Char) : List Char :=
  match (digits.reverse.dropWhile (· = '0')).reverse with
  | [] => ['0']
  | digits => digits

def Decimal.text (d : Decimal) : String :=
  let digits := dropZeros d.digits
  let count : Int := digits.length
  if 0 ≤ d.exponent ∧ d.exponent ≤ 15 then
    let whole := d.exponent.toNat + 1
    if count ≤ whole then
      String.ofList (digits ++ List.replicate (whole - digits.length) '0') ++ ".0"
    else String.ofList (digits.take whole) ++ "." ++ String.ofList (digits.drop whole)
  else if -5 ≤ d.exponent ∧ d.exponent < 0 then
    "0." ++ String.ofList (List.replicate ((-d.exponent).toNat - 1) '0' ++ digits)
  else
    let fraction := if digits.length ≤ 1 then [] else '.' :: digits.drop 1
    let sign := if d.exponent < 0 then "-" else "+"
    String.ofList (digits.take 1 ++ fraction) ++ "e" ++ sign ++ Numeral.text d.exponent.natAbs

def text (x : Float) : String :=
  let bits := x.toBits
  let sign := if bits.toNat / 0x8000000000000000 = 1 then "-" else ""
  let magnitude := Dyadic.ofBits bits
  if magnitude.mantissa = 0 then sign ++ "0.0" else sign ++ magnitude.shortest.text

end FramedRpc.Double
