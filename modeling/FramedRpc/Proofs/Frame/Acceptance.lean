import FramedRpc.Proofs.Frame.RoundTrip

/-!
# Accepting what was written

A frame is written in whatever encoding it has, but read only in those that a codec knows. The codec
that wrote a frame therefore reads it back if it knows the encoding, and refuses its header
otherwise. The length in a header has 32 bits, and of a message that is too long for it nothing is
said.
-/

namespace FramedRpc.Codec

/-! ## Encodings that are not known -/

def unknownSerializer (s : Serializer) : Fault :=
  .protocol ("Unrecognized serializer code " ++ Numeral.text s.code.toNat)

/-- A header whose serializer is not known is refused, whatever length it announces. -/
theorem step_header_of_not_accepts {codec : Codec} {s : Serializer} (kind : Message.Kind)
    (length : Nat) (hs : codec.plugins.accepts s = false) (behind : List UInt8) :
    codec.step (header s kind length ++ behind) = .refuse (unknownSerializer s) := by
  have hhead : (header s kind length ++ behind).take headerLength = header s kind length :=
    List.take_left' (by simp)
  simp [step, hhead, announcement_header_eq, hs, unknownSerializer]

/-! ## What becomes of the bytes of a frame -/

/-- The number that the length word of a frame holds. -/
def announcedLength (bytes : List UInt8) : Nat := number ((bytes.drop 12).take 4)

theorem encode_eq_ok_iff {codec : Codec} {frame : Frame} {bytes : List UInt8} :
    codec.encode frame = .ok bytes ↔ frame.content.length ≤ codec.limit ∧
      bytes = header frame.serializer frame.message.kind frame.content.length ++ frame.content := by
  by_cases hlimit : frame.content.length ≤ codec.limit
  case pos =>
    rw [encode_of_le hlimit, Except.ok.injEq]
    exact ⟨fun h ↦ ⟨hlimit, h.symm⟩, fun h ↦ h.2.symm⟩
  case neg =>
    rw [encode_of_lt (Nat.lt_of_not_le hlimit)]
    exact iff_of_false nofun fun h ↦ hlimit h.1

/-- The length word tells the length of the message exactly where 32 bits hold it. -/
theorem announcedLength_eq_iff {codec : Codec} {frame : Frame} {bytes : List UInt8}
    (hencode : codec.encode frame = .ok bytes) :
    announcedLength bytes = frame.content.length ↔ frame.content.length < 0x100000000 := by
  obtain ⟨-, rfl⟩ := encode_eq_ok_iff.mp hencode
  show number (word frame.content.length) = _ ↔ _
  rw [number_word_eq_mod, Nat.mod_eq_iff_lt (by decide)]

/-- How a codec treats the bytes of a frame, whatever bytes follow them. -/
structure Treats (codec : Codec) (frame : Frame) (bytes : List UInt8) : Prop where
  /-- The encoded message stands behind the header. -/
  content : bytes.drop headerLength = frame.content
  /-- The header tells how many bytes follow it. -/
  length : announcedLength bytes = (bytes.drop headerLength).length
  /-- A frame in an encoding that is known is read back, and its bytes are taken. -/
  known : codec.plugins.accepts frame.serializer = true →
    ∀ rest, codec.decode (bytes ++ rest) = (.ok (some frame), rest)
  /-- A frame in another encoding is refused, and no byte is taken. -/
  unknown : codec.plugins.accepts frame.serializer = false →
    ∀ rest, codec.decode (bytes ++ rest) =
      (.error (unknownSerializer frame.serializer), bytes ++ rest)

/-- What a codec writes is a frame that it reads back, if it knows the encoding. -/
theorem treats_of_encode (codec : Codec) {frame : Frame} {bytes : List UInt8}
    (hencode : codec.encode frame = .ok bytes) (hword : frame.content.length < 0x100000000) :
    codec.Treats frame bytes := by
  have hannounced := (announcedLength_eq_iff hencode).mpr hword
  obtain ⟨hlimit, rfl⟩ := encode_eq_ok_iff.mp hencode
  have hcontent : (header frame.serializer frame.message.kind frame.content.length ++
      frame.content).drop headerLength = frame.content :=
    List.drop_left' (by simp)
  constructor
  case content => exact hcontent
  case length => rw [hcontent, hannounced]
  case known =>
    intro hplugin rest
    have hread : Message.decode frame.serializer frame.message.kind frame.content =
        .ok frame.message :=
      Message.decode_encode frame.serializer frame.message (Nat.lt_trans hword (by decide))
    unfold decode
    rw [step_header frame.message.kind hplugin hlimit hword rest, hread]
    rfl
  case unknown =>
    intro hplugin rest
    unfold decode
    rw [List.append_assoc, step_header_of_not_accepts frame.message.kind _ hplugin]

/-- A codec that knows JSON only. It writes in other encodings all the same. -/
def jsonOnly : Codec := ⟨.ofList [.json], standardLimit⟩

def alive (s : Serializer) : Frame := ⟨s, .request (.alive "a")⟩

/-- A frame in a known encoding is read back, and one in another encoding is refused. -/
theorem treats_alive :
    (∃ bytes, jsonOnly.encode (alive .json) = .ok bytes ∧
      (alive .json).content.length < 0x100000000 ∧ jsonOnly.Treats (alive .json) bytes ∧
      jsonOnly.decode (bytes ++ bytes) = (.ok (some (alive .json)), bytes)) ∧
    ∃ bytes, jsonOnly.encode (alive .bincode) = .ok bytes ∧
      (alive .bincode).content.length < 0x100000000 ∧ jsonOnly.Treats (alive .bincode) bytes ∧
      jsonOnly.decode (bytes ++ bytes) =
        (.error (unknownSerializer .bincode), bytes ++ bytes) := by
  constructor
  case left =>
    have hword : (alive .json).content.length < 0x100000000 := by decide +kernel
    have hencode := @encode_of_le jsonOnly (alive .json) (by decide +kernel)
    have htreats := treats_of_encode jsonOnly hencode hword
    exact ⟨_, hencode, hword, htreats, htreats.known (by decide) _⟩
  case right =>
    have hword : (alive .bincode).content.length < 0x100000000 := by decide +kernel
    have hencode := @encode_of_le jsonOnly (alive .bincode) (by decide +kernel)
    have htreats := treats_of_encode jsonOnly hencode hword
    exact ⟨_, hencode, hword, htreats, htreats.unknown (by decide) _⟩

/-! ## Frames that are not accepted -/

def carrying (data : List UInt8) : Frame := ⟨.bincode, .response ⟨"", 200, "", some data⟩⟩

@[simp]
theorem length_content_carrying (data : List UInt8) :
    (carrying data).content.length = data.length + 27 := by
  have htext : (Wire.Bincode.encode .text "").length = 8 := by decide +kernel
  have hcode : (Wire.Bincode.encode .u16 200).length = 2 := by decide +kernel
  have hbytes : (Wire.Bincode.encode .bytes data).length = 8 + data.length := by
    show (Wire.Bincode.length data.length ++
      data.flatMap fun b ↦ Wire.Bincode.encode .u8 b).length = _
    have hbyte : ∀ b : UInt8, (Wire.Bincode.encode .u8 b).length = 1 := fun _ ↦ rfl
    simp [Wire.Bincode.length, List.length_flatMap, hbyte]
  show (Wire.Bincode.encode .text "" ++ (Wire.Bincode.encode .u16 200 ++
    (Wire.Bincode.encode .text "" ++ (1 :: Wire.Bincode.encode .bytes data ++ [])))).length = _
  simp only [List.length_append, List.length_cons, List.length_nil, htext, hcode, hbytes]
  omega

/-- A codec writes frames in an encoding that it does not know. With a limit that does not fit into
the length word it also writes frames whose length word does not tell their length. -/
theorem written_not_accepted :
    (∃ bytes, jsonOnly.encode (alive .bincode) = .ok bytes ∧
      jsonOnly.decode bytes ≠ (.ok (some (alive .bincode)), [])) ∧
    let long := carrying (List.replicate 0x100000000 0)
    ∃ bytes, encode ⟨.all, 0xFFFFFFFFFFFFFFFF⟩ long = .ok bytes ∧
      announcedLength bytes ≠ long.content.length := by
  constructor
  case left =>
    have hencode := @encode_of_le jsonOnly (alive .bincode) (by decide +kernel)
    refine ⟨_, hencode, ?_⟩
    rw [decode, step_header_of_not_accepts _ _ (by decide)]
    exact fun h ↦ nomatch congrArg Prod.fst h
  case right =>
    intro long
    have hlong : long.content.length = 0x100000000 + 27 := by
      simp only [long, length_content_carrying, List.length_replicate]
    have hencode := @encode_of_le ⟨.all, 0xFFFFFFFFFFFFFFFF⟩ long (by rw [hlong]; decide)
    refine ⟨_, hencode, ?_⟩
    rw [ne_eq, announcedLength_eq_iff hencode, hlong]
    decide

end FramedRpc.Codec
