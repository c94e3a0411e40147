import FramedRpc.Demo.Names
import FramedRpc.Message
import FramedRpc.Proofs.Wire.BincodeRoundTrip
import FramedRpc.Proofs.Wire.Json.RoundTrip
import FramedRpc.Proofs.Wire.PostcardRoundTrip

/-!
# Reading back what a serializer wrote

Each serializer reads back the values that it writes. The binary encodings write lengths in 64 bits,
so the lengths in a value have to be lengths on a machine; JSON writes none, but two values of a
shape must not have one text. A value that was written in so few bytes that their number is a length
on a machine is read back in any case.
-/

namespace FramedRpc

open Wire (HasShape Shape)

namespace Serializer

/-- A value of a shape is read back from its bytes. -/
theorem decodeValue_encodeValue (s : Serializer) {shape : Shape} {v : shape.Value}
    (hlossless : shape.isLossless = true) (hfits : s ≠ .json → shape.Fits v) :
    s.decodeValue shape (s.encodeValue shape v) = .ok v := by
  cases s with
  | bincode =>
    have hread := (Wire.Bincode.takes_encode shape v (hfits (by decide))).run'
    show Except.mapError _ ((Wire.Bincode.decode shape).run' (Wire.Bincode.encode shape v)) = _
    rw [hread]
    rfl
  | json =>
    have hread := Wire.Json.decode_encode shape v hlossless
    show Except.mapError _ (Wire.Json.decode shape (Wire.Json.encode shape v)) = _
    rw [hread]
    rfl
  | postcard =>
    have hread := (Wire.Postcard.takes_encode shape v (hfits (by decide))).run'
    show Except.mapError _ ((Wire.Postcard.decode shape).run' (Wire.Postcard.encode shape v)) = _
    rw [hread]
    rfl

/-- Where the length of what was written is a length on a machine, so are those in the value. -/
theorem fits_of_length_encodeValue_lt {s : Serializer} (hs : s ≠ .json) {shape : Shape}
    {v : shape.Value} (hcounted : shape.isCounted = true)
    (hlength : (s.encodeValue shape v).length < Wire.lengthEnd) : shape.Fits v := by
  cases s with
  | bincode =>
    have hleast := Wire.Bincode.leastLength_le shape v
    exact shape.fits_of_leastLength_lt v hcounted (Nat.lt_of_le_of_lt hleast hlength)
  | json => exact absurd rfl hs
  | postcard =>
    have hleast := Wire.Postcard.leastLength_le shape v
    exact shape.fits_of_leastLength_lt v hcounted (Nat.lt_of_le_of_lt hleast hlength)

section Types

variable {α : Type} [HasShape α]

/-- A value of a type is read back from its bytes. -/
theorem decode_encode (s : Serializer) {a : α} (hlossless : (HasShape.shape α).isLossless = true)
    (hfits : s ≠ .json → HasShape.Fits a) : s.decode α (s.encode a) = .ok a := by
  have hvalue : s.decodeValue (HasShape.shape α) (s.encode a) = .ok (HasShape.toValue a) :=
    s.decodeValue_encodeValue hlossless hfits
  unfold decode
  rw [hvalue]
  show Except.ok (HasShape.ofValue (HasShape.toValue a)) = Except.ok a
  rw [HasShape.ofValue_toValue]

/-- A value of a type is read back if it was written in so few bytes. -/
theorem decode_encode_of_length_lt (s : Serializer) {a : α}
    (hlossless : (HasShape.shape α).isLossless = true)
    (hcounted : (HasShape.shape α).isCounted = true)
    (hlength : (s.encode a).length < Wire.lengthEnd) : s.decode α (s.encode a) = .ok a :=
  s.decode_encode hlossless fun hs ↦ fits_of_length_encodeValue_lt hs hcounted hlength

end Types

/-- No two values of a listed shape have one text. -/
theorem isLossless_of_mem_shapes : ∀ listed ∈ Demo.shapes, listed.2.isLossless = true := by
  decide

/-- Messages, endpoints, objects to greet and the values of all listed shapes are read back, by each
serializer, where their lengths are lengths on a machine. -/
theorem reads_back_listed (s : Serializer) :
    (∀ r : Request, HasShape.Fits r → s.decode Request (s.encode r) = .ok r) ∧
    (∀ r : Response, HasShape.Fits r → s.decode Response (s.encode r) = .ok r) ∧
    (∀ e : Endpoint, HasShape.Fits e → s.decode Endpoint (s.encode e) = .ok e) ∧
    (∀ o : Demo.HelloObject, HasShape.Fits o →
      s.decode Demo.HelloObject (s.encode o) = .ok o) ∧
    ∀ (name : String) (shape : Shape), (name, shape) ∈ Demo.shapes →
      ∀ v : shape.Value, shape.Fits v → s.decodeValue shape (s.encodeValue shape v) = .ok v := by
  refine ⟨fun r h ↦ ?_, fun r h ↦ ?_, fun e h ↦ ?_, fun o h ↦ ?_, fun name shape hlisted v h ↦ ?_⟩
  · exact s.decode_encode (by decide) fun _ ↦ h
  · exact s.decode_encode (by decide) fun _ ↦ h
  · exact s.decode_encode (by decide) fun _ ↦ h
  · exact s.decode_encode (by decide) fun _ ↦ h
  · exact s.decodeValue_encodeValue (isLossless_of_mem_shapes (name, shape) hlisted) fun _ ↦ h

/-- A request with a character beyond the basic plane, a quote, and parameters of which one is
empty. -/
def sampleRequest : Request where
  id := "𝄞\"\n"
  service := ""
  method := "add"
  parameters := [[], [0xFF, 0x00]]
  paramTypes := ["i64", "i64"]
  heartbeat := false

theorem reads_back_sampleRequest : HasShape.Fits sampleRequest ∧
    Serializer.json.decode Request (Serializer.json.encode sampleRequest) = .ok sampleRequest := by
  have hfits : HasShape.Fits sampleRequest := by decide
  exact ⟨hfits, (reads_back_listed .json).1 sampleRequest hfits⟩

end Serializer

end FramedRpc
