import FramedRpc.Message
import FramedRpc.Service.WireTypes

/-!
# Handlers of services

A handler offers methods, each with a name and the names of its parameter types; several methods
may share a name. A call hands over the name and the encoded arguments, which the handler decodes
one after the other.
-/

namespace FramedRpc

/-- How the body of a method ends. -/
inductive Outcome (α : Type) where
  | returned (value : α)
  | failed (fault : Fault)
  /-- The method breaks off with a text. -/
  | panicked (text : String)

namespace Outcome

/-- Goes on after a method that returned. -/
def bind {α β : Type} (outcome : Outcome α) (next : α → Outcome β) : Outcome β :=
  match outcome with
  | .returned a => next a
  | .failed fault => .failed fault
  | .panicked text => .panicked text

instance : Monad Outcome where
  pure := .returned
  bind := bind

/-- The outcome of a step that cannot break off. -/
def ofExcept {α : Type} : Except Fault α → Outcome α
  | .ok a => .returned a
  | .error fault => .failed fault

def encode {τ : Type} [WireTypes τ] (t : τ) (s : Serializer)
    (outcome : Outcome (WireTypes.Value t)) : Outcome (List UInt8) := do
  ofExcept (WireTypes.encode t s (← outcome))

def decode {τ : Type} [WireTypes τ] (t : τ) (s : Serializer) (outcome : Outcome (List UInt8)) :
    Outcome (WireTypes.Value t) := do
  ofExcept (WireTypes.decode t s (← outcome))

end Outcome

structure Method where
  name : String
  paramTypes : List String
  deriving DecidableEq, Repr

def Method.matches (m : Method) (name : String) (paramTypes : List String) : Bool :=
  m.name = name && m.paramTypes = paramTypes

/-- The encoded arguments of a call, of which those before a position were already decoded. -/
structure Arguments where
  serializer : Serializer
  values : List (List UInt8)
  position : Nat
  deriving DecidableEq, Repr

namespace Arguments

def ofValues (s : Serializer) (values : List (List UInt8)) : Arguments := ⟨s, values, 0⟩

def size (a : Arguments) : Nat := a.values.length

def isEmpty (a : Arguments) : Bool := a.values.isEmpty

/-- Decodes the next argument. One that cannot be decoded is left behind all the same. -/
def nextValue {τ : Type} [WireTypes τ] (t : τ) (a : Arguments) :
    Except Fault (WireTypes.Value t) × Arguments :=
  match a.values[a.position]? with
  | none =>
    (.error (.invalidRequest ("Missing argument at position " ++ Numeral.text a.position)), a)
  | some value => (WireTypes.decode t a.serializer value, { a with position := a.position + 1 })

end Arguments

/-- A service as a server sees it. Its methods may have effects, which are those of the monad. -/
structure Handler (m : Type → Type := Id) where
  /-- The name under which the service is published unless another one is given. -/
  service : String
  methods : List Method
  /-- Calls a method by its name; the return value is encoded like the arguments. -/
  call : String → Arguments → m (Outcome (List UInt8))

/-- The first method that a call may ask for. -/
def Handler.find? {m : Type → Type} (h : Handler m) (name : String) (paramTypes : List String) :
    Option Method :=
  h.methods.find? fun method => method.matches name paramTypes

end FramedRpc
