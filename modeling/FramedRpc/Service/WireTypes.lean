import FramedRpc.Serializer

/-!
# Types that travel

The parameters and results of methods are of types that have names, and whose values serializers
encode and decode. No more is asked of them than that bytes are refused by the serializer alone. A
family of such types is given by a code for each; shapes are such codes.
-/

namespace FramedRpc

open Wire (Shape)

namespace Serializer

/-- A fault with which a serializer refuses bytes. -/
inductive Refuses : Serializer → Fault → Prop
  | bincode (flaw : Wire.Bincode.Flaw) : Refuses .bincode (.bincode flaw)
  | json (flaw : Wire.Json.Flaw) : Refuses .json (.json flaw)
  | postcard (flaw : Wire.Postcard.Flaw) : Refuses .postcard (.postcard flaw)

theorem exists_of_mapError {α ε ε' : Type} {x : Except ε α} {f : ε → ε'} {e : ε'}
    (h : x.mapError f = .error e) : ∃ flaw, e = f flaw := by
  cases x with
  | ok v => cases h
  | error flaw => exact ⟨flaw, (Except.error.inj h).symm⟩

theorem refuses_of_decodeValue {s : Serializer} {shape : Shape} {bytes : List UInt8}
    {fault : Fault} (h : s.decodeValue shape bytes = .error fault) : s.Refuses fault := by
  cases s with
  | bincode =>
    obtain ⟨flaw, rfl⟩ := exists_of_mapError h
    exact .bincode flaw
  | json =>
    obtain ⟨flaw, rfl⟩ := exists_of_mapError h
    exact .json flaw
  | postcard =>
    obtain ⟨flaw, rfl⟩ := exists_of_mapError h
    exact .postcard flaw

end Serializer

/-- A family of types that travel, by their codes. -/
class WireTypes (τ : Type) where
  Value : τ → Type
  typeName : τ → String
  encode : (t : τ) → Serializer → Value t → Except Fault (List UInt8)
  decode : (t : τ) → Serializer → List UInt8 → Except Fault (Value t)
  refuses {t : τ} {s : Serializer} {bytes : List UInt8} {fault : Fault} :
    decode t s bytes = .error fault → s.Refuses fault

instance : WireTypes Shape where
  Value := Shape.Value
  typeName := Shape.typeName
  encode shape s v := .ok (s.encodeValue shape v)
  decode shape s := s.decodeValue shape
  refuses := Serializer.refuses_of_decodeValue

/-- One value for each type of a list. -/
@[reducible] def WireTypes.Values {τ : Type} [WireTypes τ] : List τ → Type
  | [] => Unit
  | t :: rest => Value t × Values rest

end FramedRpc
