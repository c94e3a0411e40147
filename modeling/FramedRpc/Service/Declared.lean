import FramedRpc.Service.Handler

/-!
# Declared services

A service that is declared by the signatures of its methods, over any types that travel. The
declaration yields both sides of a call: the handler, which decodes the arguments, runs the method
and encodes what it returns, and the stub, which encodes the arguments, ships the call and decodes
the answer.
-/

namespace FramedRpc

open Wire (Shape)

/-- A declared method, its types given by codes. -/
structure Signature (τ : Type := Shape) where
  name : String
  params : List τ
  result : τ

def Signature.method {τ : Type} [WireTypes τ] (s : Signature τ) : Method :=
  ⟨s.name, s.params.map WireTypes.typeName⟩

/-! ## The serving side -/

/-- Decodes one argument of each type, in order. -/
def Arguments.nextValues {τ : Type} [WireTypes τ] :
    (types : List τ) → Arguments → Except Fault (WireTypes.Values types)
  | [], _ => return ()
  | t :: rest, a => do
    let (first, a) := a.nextValue t
    let v ← first
    return (v, ← nextValues rest a)

/-- A declared method and its body, which may have effects. -/
structure Implemented (m : Type → Type := Id) (τ : Type := Shape) [WireTypes τ] where
  signature : Signature τ
  body : WireTypes.Values signature.params → m (Outcome (WireTypes.Value signature.result))

/-- A declared service with the bodies of its methods. -/
structure Service (m : Type → Type := Id) (τ : Type := Shape) [WireTypes τ] where
  name : String
  methods : List (Implemented m τ)

namespace Service

/-- A method that is about to run with arguments that were decoded. -/
structure Invocation (m : Type → Type := Id) (τ : Type := Shape) [WireTypes τ] where
  method : Implemented m τ
  arguments : WireTypes.Values method.signature.params

variable {m : Type → Type} {τ : Type} [WireTypes τ]

def Invocation.run (i : Invocation m τ) :
    m (Outcome (WireTypes.Value i.method.signature.result)) :=
  i.method.body i.arguments

/-- Decides what a call runs: the first method of the name, once all its arguments are decoded. -/
def invocation (service : Service m τ) (name : String) (arguments : Arguments) :
    Except Fault (Invocation m τ) :=
  match service.methods.find? fun method => method.signature.name = name with
  | some method => do
    let values ← arguments.nextValues method.signature.params
    return ⟨method, values⟩
  | none => .error (.methodNotFound (service.name ++ "#" ++ name))

def call [Monad m] (service : Service m τ) (name : String) (arguments : Arguments) :
    m (Outcome (List UInt8)) :=
  match service.invocation name arguments with
  | .error fault => return .failed fault
  | .ok i => do
    return (← i.run).encode i.method.signature.result arguments.serializer

def handler [Monad m] (service : Service m τ) : Handler m where
  service := service.name
  methods := service.methods.map fun method => method.signature.method
  call := service.call

def signature? (service : Service m τ) (name : String) : Option (Signature τ) :=
  (service.methods.find? fun method => method.signature.name = name).map Implemented.signature

end Service

/-! ## The calling side -/

/-- A call on its way to a service. -/
structure Call where
  service : String
  method : String
  arguments : List Argument
  deriving DecidableEq, Repr

/-- Encodes one argument of each type. -/
def Argument.encodeValues {τ : Type} [WireTypes τ] (s : Serializer) :
    (types : List τ) → WireTypes.Values types → Except Fault (List Argument)
  | [], _ => return []
  | t :: rest, (v, values) => do
    let bytes ← WireTypes.encode t s v
    return ⟨WireTypes.typeName t, bytes⟩ :: (← encodeValues s rest values)

namespace Signature

variable {τ : Type} [WireTypes τ]

/-- The call of a method of a service. -/
def call (signature : Signature τ) (service : String) (s : Serializer)
    (arguments : WireTypes.Values signature.params) : Except Fault Call := do
  return ⟨service, signature.name, ← Argument.encodeValues s signature.params arguments⟩

/-- Calls a method of a service by way of `send`, which ships the call and brings the encoded return
value back. -/
def invoke {m : Type → Type} [Monad m] (signature : Signature τ) (service : String)
    (s : Serializer) (send : Call → m (Outcome (List UInt8)))
    (arguments : WireTypes.Values signature.params) :
    m (Outcome (WireTypes.Value signature.result)) := do
  match signature.call service s arguments with
  | .error fault => return .failed fault
  | .ok call => return (← send call).decode signature.result s

end Signature

/-- Hands a call straight to a handler. -/
def Handler.receive {m : Type → Type} [Monad m] (h : Handler m) (s : Serializer) (c : Call) :
    m (Outcome (List UInt8)) :=
  if c.service ≠ h.service then return .failed (.serviceNotFound c.service)
  else
    match h.find? c.method (c.arguments.map Argument.typeName) with
    | none => return .failed (.methodNotFound c.method)
    | some _ => h.call c.method (.ofValues s (c.arguments.map Argument.value))

end FramedRpc
