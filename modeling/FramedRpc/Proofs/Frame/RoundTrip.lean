import FramedRpc.Proofs.Frame.Fragmentation
import FramedRpc.Proofs.SerializerRoundTrip

/-!
# Reading back frames

Frames that were written one behind the other are read back one by one, however their bytes are cut
into pieces. A frame whose message is too long is refused and leaves no byte behind.
-/

namespace FramedRpc

def Frame.content (frame : Frame) : List UInt8 := frame.message.encode frame.serializer

/-- A message is read back where the length of its encoding is a length on a machine. -/
theorem Message.decode_encode (s : Serializer) (m : Message)
    (hlength : (m.encode s).length < Wire.lengthEnd) : decode s m.kind (m.encode s) = .ok m := by
  cases m with
  | request r =>
    have hread := s.decode_encode_of_length_lt (a := r) (by decide) (by decide) hlength
    show Message.request <$> s.decode Request (s.encode r) = _
    rw [hread]
    rfl
  | response r =>
    have hread := s.decode_encode_of_length_lt (a := r) (by decide) (by decide) hlength
    show Message.response <$> s.decode Response (s.encode r) = _
    rw [hread]
    rfl

namespace Codec

variable {codec : Codec}

/-! ## Writing behind a buffer -/

/-- Writes a frame behind a buffer. A frame that is refused leaves the buffer as it is. -/
def write (codec : Codec) (buffer : List UInt8) (frame : Frame) :
    Except Fault Unit × List UInt8 :=
  match codec.encode frame with
  | .ok bytes => (.ok (), buffer ++ bytes)
  | .error fault => (.error fault, buffer)

/-- Writes frames one behind the other, without those that are refused. -/
def writeAll (codec : Codec) (buffer : List UInt8) (frames : List Frame) : List UInt8 :=
  frames.foldl (fun buffer frame ↦ (codec.write buffer frame).2) buffer

def writes (codec : Codec) (frame : Frame) : Bool := (codec.encode frame).isOk

theorem encode_of_le {frame : Frame} (h : frame.content.length ≤ codec.limit) :
    codec.encode frame =
      .ok (header frame.serializer frame.message.kind frame.content.length ++ frame.content) := by
  have hcheck : codec.checkLength frame.content.length = .ok () := if_pos h
  show (codec.checkLength frame.content.length).bind _ = _
  rw [hcheck]
  rfl

theorem encode_of_lt {frame : Frame} (h : codec.limit < frame.content.length) :
    codec.encode frame = .error (.protocol ("Frame too large: " ++
      Numeral.text frame.content.length ++ " bytes (max " ++ Numeral.text codec.limit ++
      " bytes)")) := by
  show (codec.checkLength frame.content.length).bind _ = _
  rw [checkLength, if_neg (Nat.not_le_of_lt h)]
  rfl

theorem lt_of_encode_eq_error {frame : Frame} {fault : Fault}
    (h : codec.encode frame = .error fault) : codec.limit < frame.content.length := by
  refine Nat.lt_of_not_le fun hle ↦ ?_
  rw [encode_of_le hle] at h
  cases h

@[simp]
theorem writes_iff {frame : Frame} :
    codec.writes frame = true ↔ frame.content.length ≤ codec.limit := by
  unfold writes
  by_cases h : frame.content.length ≤ codec.limit
  · rw [encode_of_le h]
    exact iff_of_true rfl h
  · rw [encode_of_lt (Nat.lt_of_not_le h)]
    exact iff_of_false Bool.false_ne_true h

/-- A frame is refused if and only if its message is too long, and then nothing is written. -/
theorem write_refused (codec : Codec) (buffer : List UInt8) (frame : Frame) :
    ((codec.write buffer frame).1.isOk = false ↔ codec.limit < frame.content.length) ∧
      ((codec.write buffer frame).1.isOk = false → (codec.write buffer frame).2 = buffer) := by
  unfold write
  by_cases h : frame.content.length ≤ codec.limit
  · rw [encode_of_le h]
    exact ⟨iff_of_false Bool.true_eq_false.mp (Nat.not_lt_of_le h), nofun⟩
  · rw [encode_of_lt (Nat.lt_of_not_le h)]
    exact ⟨iff_of_true rfl (Nat.lt_of_not_le h), fun _ ↦ rfl⟩

theorem write_append (codec : Codec) (front buffer : List UInt8) (frame : Frame) :
    (codec.write (front ++ buffer) frame).2 = front ++ (codec.write buffer frame).2 := by
  unfold write
  cases codec.encode frame with
  | ok bytes => exact List.append_assoc front buffer bytes
  | error fault => rfl

theorem writeAll_append (codec : Codec) (front buffer : List UInt8) (frames : List Frame) :
    codec.writeAll (front ++ buffer) frames = front ++ codec.writeAll buffer frames := by
  induction frames generalizing buffer with
  | nil => rfl
  | cons frame frames ih =>
    show codec.writeAll (codec.write (front ++ buffer) frame).2 frames = _
    rw [write_append, ih]
    rfl

@[simp]
theorem writeAll_cons (codec : Codec) (frame : Frame) (frames : List Frame) :
    codec.writeAll [] (frame :: frames) =
      (codec.write [] frame).2 ++ codec.writeAll [] frames := by
  rw [← writeAll_append, List.append_nil]
  rfl

end Codec

namespace FrameStream

open Codec

variable {codec : Codec}

/-- A frame that is written is read back, and then what follows it. -/
theorem ofBuffer_write (hlimit : codec.limit < 0x100000000) {frame : Frame}
    (hplugin : codec.plugins.accepts frame.serializer = true)
    (hlength : frame.content.length ≤ codec.limit) (rest : List UInt8) :
    ofBuffer codec ((codec.write [] frame).2 ++ rest) = (ofBuffer codec rest).after frame := by
  have hword : frame.content.length < 0x100000000 := Nat.lt_of_le_of_lt hlength hlimit
  have hread : Message.decode frame.serializer frame.message.kind frame.content =
      .ok frame.message :=
    Message.decode_encode frame.serializer frame.message (Nat.lt_trans hword (by decide))
  have hstep := step_header frame.message.kind hplugin hlength hword rest
  rw [hread] at hstep
  have hbytes : (codec.write [] frame).2 =
      header frame.serializer frame.message.kind frame.content.length ++ frame.content := by
    rw [write, encode_of_le hlength]
    rfl
  rw [hbytes, ofBuffer_eq, hstep]
  rfl

/-- What was written is read as the frames that were not refused, and no byte is left. -/
theorem ofBuffer_writeAll (hlimit : codec.limit < 0x100000000) (frames : List Frame)
    (hplugins : ∀ frame ∈ frames, codec.plugins.accepts frame.serializer = true) :
    ofBuffer codec (codec.writeAll [] frames) = ⟨frames.filter codec.writes, [], none⟩ := by
  induction frames with
  | nil =>
    show ofBuffer codec [] = ⟨[], [], none⟩
    rw [ofBuffer_eq, step_of_short (by decide)]
  | cons frame frames ih =>
    have hrest := ih fun other hother ↦ hplugins other (List.mem_cons_of_mem frame hother)
    rw [writeAll_cons]
    by_cases hlength : frame.content.length ≤ codec.limit
    · have hframe := ofBuffer_write hlimit (hplugins frame List.mem_cons_self) hlength
      simp [hframe, hrest, hlength, after]
    · have hrefused := write_refused codec [] frame
      simp [hrefused.2 (hrefused.1.mpr (Nat.lt_of_not_le hlength)), hrest, hlength]

/-- Frames that are written one behind the other are read back in their order from pieces of any
sizes, and nothing but those that are refused for their length is missing. -/
theorem read_writeAll (codec : Codec) (hlimit : codec.limit < 0x100000000) (frames : List Frame)
    (hplugins : ∀ frame ∈ frames, codec.plugins.accepts frame.serializer = true)
    (pieces : List (List UInt8)) (hpieces : pieces.flatten = codec.writeAll [] frames) :
    (∀ (buffer : List UInt8) (frame : Frame),
      ((codec.write buffer frame).1.isOk = false ↔ codec.limit < frame.content.length) ∧
      ((codec.write buffer frame).1.isOk = false → (codec.write buffer frame).2 = buffer)) ∧
    read codec pieces = (frames.filter codec.writes).map .ok := by
  refine ⟨codec.write_refused, ?_⟩
  rw [read_eq, hpieces, ofBuffer_writeAll hlimit frames hplugins]
  exact List.append_nil _

/-- Frames of three encodings, the first of which is the longest. -/
def sampleFrames : List Frame :=
  [⟨.json, .response (.success "a" [0xCA, 0xFE])⟩, ⟨.bincode, .request (.alive "b")⟩,
    ⟨.postcard, .request (.alive "c")⟩]

theorem read_sampleFrames :
    let codec : Codec := ⟨.all, 42⟩
    let bytes := codec.writeAll [] sampleFrames
    [bytes.take 5, bytes.drop 5].flatten = bytes ∧
    read codec [bytes.take 5, bytes.drop 5] = (sampleFrames.filter codec.writes).map .ok ∧
    sampleFrames.filter codec.writes = sampleFrames.drop 1 := by
  intro codec bytes
  have hpieces : [bytes.take 5, bytes.drop 5].flatten = bytes := by
    rw [List.flatten_cons, List.flatten_singleton, List.take_append_drop]
  exact ⟨hpieces, (read_writeAll codec (by decide) sampleFrames (fun _ _ ↦ rfl) _ hpieces).2,
    by decide⟩

end FrameStream

end FramedRpc
