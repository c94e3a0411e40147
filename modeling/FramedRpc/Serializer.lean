import FramedRpc.Fault
import FramedRpc.Wire.Json.Decoder
import FramedRpc.Wire.Json.Encoder

/-!
# Serializers

The encodings in which messages travel, each known by a name and by a numeric code in the header
of a frame. A peer may accept only some of them, which it holds as a set of plugins.
-/

namespace FramedRpc

open Wire (HasShape Shape)

/-- An encoding of messages. -/
inductive Serializer where
  | bincode
  | json
  | postcard
  deriving DecidableEq, Repr

namespace Serializer

/-- The serializer that is used where none is chosen. -/
def standard : Serializer := .bincode

/-- All serializers, in the order of their codes. -/
def all : List Serializer := [.bincode, .json, .postcard]

def code : Serializer → UInt32
  | .bincode => 0
  | .json => 1
  | .postcard => 2

def ofCode? (code : UInt32) : Option Serializer := all.find? fun s => s.code = code

def name : Serializer → String
  | .bincode => "bincode"
  | .json => "json"
  | .postcard => "postcard"

def ofName? (name : String) : Option Serializer := all.find? fun s => s.name = name

/-- Reads a code, or a name in letters of either case. -/
def parse (text : String) : Except Fault Serializer :=
  match Numeral.readNat 0xFFFFFFFF text.toList with
  | .ok n =>
    match ofCode? n.toUInt32 with
    | some s => .ok s
    | none => .error (.serializerNotFound n.toUInt32)
  | .error _ =>
    match all.find? fun s => s.name = text.map Char.toLower with
    | some s => .ok s
    | none => .error (.invalidRequest ("Unknown serializer '" ++ text ++ "'"))

def encodeValue (s : Serializer) (shape : Shape) (v : shape.Value) : List UInt8 :=
  match s with
  | .bincode => Wire.Bincode.encode shape v
  | .json => Wire.Json.encode shape v
  | .postcard => Wire.Postcard.encode shape v

def decodeValue (s : Serializer) (shape : Shape) (bytes : List UInt8) :
    Except Fault shape.Value :=
  match s with
  | .bincode => ((Wire.Bincode.decode shape).run' bytes).mapError .bincode
  | .json => (Wire.Json.decode shape bytes).mapError .json
  | .postcard => ((Wire.Postcard.decode shape).run' bytes).mapError .postcard

def encode {α : Type} [HasShape α] (s : Serializer) (a : α) : List UInt8 :=
  s.encodeValue (HasShape.shape α) (HasShape.toValue a)

def decode (α : Type) [HasShape α] (s : Serializer) (bytes : List UInt8) : Except Fault α := do
  return HasShape.ofValue (← s.decodeValue (HasShape.shape α) bytes)

end Serializer

/-- The serializers that a peer accepts. -/
structure Plugins where
  accepts : Serializer → Bool

namespace Plugins

/-- Every serializer is accepted. -/
def all : Plugins := ⟨fun _ => true⟩

def ofList (serializers : List Serializer) : Plugins := ⟨fun s => serializers.contains s⟩

def toList (plugins : Plugins) : List Serializer := Serializer.all.filter plugins.accepts

def size (plugins : Plugins) : Nat := plugins.toList.length

def isEmpty (plugins : Plugins) : Bool := plugins.toList.isEmpty

def get? (plugins : Plugins) (code : UInt32) : Option Serializer :=
  plugins.toList.find? fun s => s.code = code

/-- The accepted serializer with a code, or the fault that there is none. -/
def require (plugins : Plugins) (code : UInt32) : Except Fault Serializer :=
  match plugins.get? code with
  | some s => .ok s
  | none => .error (.serializerNotFound code)

end Plugins

end FramedRpc
