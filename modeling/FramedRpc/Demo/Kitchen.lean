import FramedRpc.Demo.Greeting
import FramedRpc.Fault.Description

/-!
# Services for trials

A declared service whose methods take and return values of many shapes, fail and break off, and a
service with several methods of one name that decodes its arguments by itself.
-/

namespace FramedRpc.Demo

open Wire (HasShape Shape)

namespace Kitchen

def service : String := "driver.Kitchen"

def ping : Signature := ⟨"ping", [], .unit⟩
def add : Signature := ⟨"add", [.i64, .i64], .i64⟩
def concat : Signature := ⟨"concat", [.list .text, .text], .text⟩

def describe : Signature :=
  ⟨"describe", [HasShape.shape HelloObject, .optional .u32], .pair .u32 .text⟩

def blob : Signature := ⟨"blob", [.u32], .bytes⟩
def fail : Signature := ⟨"fail", [.text], .text⟩
def crash : Signature := ⟨"crash", [.text], .text⟩
def wait : Signature := ⟨"wait", [.u64], .u64⟩

/-- The sum of two integers, if it is one of 64 bits. -/
def sum (a b : Int64) : Outcome Int64 :=
  let total := a.toInt + b.toInt
  if Int64.minValue.toInt ≤ total ∧ total ≤ Int64.maxValue.toInt then .returned (Int64.ofInt total)
  else .failed (.invalidRequest "sum overflows")

def describedFault (text : String) : Fault :=
  match Wire.Json.Document.parse (Utf8.encode text) with
  | .error flaw => .json flaw
  | .ok d => (Fault.ofDocument? d).getD (.invalidRequest "not the description of a fault")

end Kitchen

open Kitchen in
def kitchenService : Service where
  name := Kitchen.service
  methods :=
    [⟨ping, fun _ => .returned ()⟩,
      ⟨add, fun (a, b, _) => sum a b⟩,
      ⟨concat, fun (parts, separator, _) => .returned (String.intercalate separator parts)⟩,
      ⟨describe, fun (object, flag, _) =>
        let object : HelloObject := HasShape.ofValue object
        .returned (flag.getD 0, Numeral.intText object.id.toInt ++ "/" ++ object.message)⟩,
      ⟨blob, fun (n, _) => .returned ((List.range n.toNat).map Nat.toUInt8)⟩,
      ⟨fail, fun (text, _) => .failed (describedFault text)⟩,
      ⟨crash, fun (text, _) => .panicked text⟩,
      ⟨wait, fun (milliseconds, _) => .returned milliseconds⟩]

/-- Adds up as many integers as there are arguments left. -/
def sumArguments : (count : Nat) → (sum : Int) → Arguments → Except Fault Int
  | 0, sum, _ => .ok sum
  | count + 1, sum, a => do
    let (first, a) := a.nextValue Shape.i32
    let i ← first
    sumArguments count (sum + i.toInt) a

/-- A service with several methods of one name. -/
def overloads : Handler where
  service := "driver.Overloads"
  methods := [⟨"f", []⟩, ⟨"f", ["i32"]⟩, ⟨"f", ["i32", "i32"]⟩, ⟨"gone", []⟩]
  call name a :=
    let sum : Outcome Int :=
      if name = "f" then .ofExcept (sumArguments a.size 0 a)
      else .failed (.methodNotFound ("late " ++ name))
    pure (sum <&> fun sum =>
      a.serializer.encodeValue .text ("f/" ++ Numeral.text a.size ++ "=" ++ Numeral.intText sum))

end FramedRpc.Demo
