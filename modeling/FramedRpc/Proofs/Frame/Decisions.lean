import FramedRpc.Proofs.Frame.Fragmentation

/-!
# What a reader decides on

A header is read as four words, and the first one that is not acceptable is reported. The header
and the length that it announces are all that decides whether a reader waits, refuses or takes a
frame, and the bytes behind the frame are never looked at. So a reader that waits keeps less than the
longest frame, whatever the peer sends.
-/

namespace FramedRpc

namespace Codec

variable {codec : Codec} {buffer : List UInt8} {a b : Announcement} {fault : Fault}

/-! ## The words of a header -/

def wordAt (buffer : List UInt8) (i : Nat) : Nat := number ((buffer.drop (4 * i)).take 4)

theorem foldl_number_lt {n bound : Nat} (bytes : List UInt8) (h : n < bound) :
    bytes.foldl (fun n b ↦ n * 0x100 + b.toNat) n < bound * Nat.pow 0x100 bytes.length := by
  induction bytes generalizing n bound with
  | nil => exact Nat.lt_of_lt_of_eq h (Nat.mul_one bound).symm
  | cons b bytes ih =>
    have hb : b.toNat < 0x100 := b.toNat_lt
    have hnext : n * 0x100 + b.toNat < bound * 0x100 := by omega
    calc
      _ < bound * 0x100 * Nat.pow 0x100 bytes.length := ih hnext
      _ = bound * Nat.pow 0x100 (bytes.length + 1) := by
        rw [Nat.mul_assoc, Nat.mul_comm 0x100]
        rfl

theorem wordAt_lt (buffer : List UInt8) (i : Nat) : wordAt buffer i < 0x100000000 := by
  have hlength : ((buffer.drop (4 * i)).take 4).length ≤ 4 := List.length_take_le ..
  calc
    wordAt buffer i < 1 * Nat.pow 0x100 ((buffer.drop (4 * i)).take 4).length :=
      foldl_number_lt _ Nat.zero_lt_one
    _ ≤ Nat.pow 0x100 4 := by
      rw [Nat.one_mul]
      exact Nat.pow_le_pow_right (by decide) hlength

/-- The words of a header are those of the buffer that begins with it. -/
theorem number_take_header {i : Nat} (hi : i < 4) :
    number (((buffer.take headerLength).drop (4 * i)).take 4) = wordAt buffer i := by
  rw [List.drop_take, List.take_take, headerLength, Nat.min_eq_left (by omega)]
  rfl

/-- The kind with a code, as it stands in a header. -/
theorem ofCode?_eq_some_iff {n : Nat} (hn : n < 0x100000000) {k : Message.Kind} :
    Message.Kind.ofCode? n.toUInt32 = some k ↔ n = k.code.toNat := by
  constructor
  · intro h
    have hcode := List.find?_some h
    rw [of_decide_eq_true hcode]
    exact (Nat.mod_eq_of_lt hn).symm
  · rintro rfl
    rw [Nat.toUInt32, UInt32.ofNat_toNat]
    simp

/-- The serializer with a code, as it stands in a header. -/
theorem get?_eq_some_iff {plugins : Plugins} {n : Nat} (hn : n < 0x100000000) {s : Serializer} :
    plugins.get? n.toUInt32 = some s ↔ plugins.accepts s = true ∧ n = s.code.toNat := by
  constructor
  · intro h
    have hcode := List.find?_some h
    refine ⟨(List.mem_filter.mp (List.mem_of_find?_eq_some h)).2, ?_⟩
    rw [of_decide_eq_true hcode]
    exact (Nat.mod_eq_of_lt hn).symm
  · rintro ⟨hs, rfl⟩
    rw [Nat.toUInt32, UInt32.ofNat_toNat]
    simp [hs]

/-! ## Headers that are accepted, and others -/

/-- A buffer begins with a header that a codec accepts, and this is what the header announces. -/
structure Accepts (codec : Codec) (buffer : List UInt8) (a : Announcement) : Prop where
  mark : wordAt buffer 0 = Codec.mark
  kind : wordAt buffer 1 = a.kind.code.toNat
  serializer : wordAt buffer 2 = a.serializer.code.toNat
  known : codec.plugins.accepts a.serializer = true
  length : wordAt buffer 3 = a.length
  limit : a.length ≤ codec.limit

/-- The first word of a header that a codec does not accept, and the fault that reports it. -/
inductive Objection (codec : Codec) (buffer : List UInt8) : Fault → Prop
  | mark (hmark : wordAt buffer 0 ≠ Codec.mark) : Objection codec buffer
    (.protocol ("Unrecognized magic number 0x" ++ Numeral.hexText 8 (wordAt buffer 0)))
  | kind (hmark : wordAt buffer 0 = Codec.mark)
    (hkind : ∀ k : Message.Kind, wordAt buffer 1 ≠ k.code.toNat) : Objection codec buffer
    (.protocol ("Unrecognized message kind " ++ Numeral.text (wordAt buffer 1)))
  | serializer {k : Message.Kind} (hmark : wordAt buffer 0 = Codec.mark)
    (hkind : wordAt buffer 1 = k.code.toNat)
    (hserializer : ∀ s, codec.plugins.accepts s = true → wordAt buffer 2 ≠ s.code.toNat) :
    Objection codec buffer
      (.protocol ("Unrecognized serializer code " ++ Numeral.text (wordAt buffer 2)))
  | length {k : Message.Kind} {s : Serializer} (hmark : wordAt buffer 0 = Codec.mark)
    (hkind : wordAt buffer 1 = k.code.toNat) (hknown : codec.plugins.accepts s = true)
    (hserializer : wordAt buffer 2 = s.code.toNat) (hlimit : codec.limit < wordAt buffer 3) :
    Objection codec buffer
      (.protocol ("Frame too large: " ++ Numeral.text (wordAt buffer 3) ++ " bytes (max " ++
        Numeral.text codec.limit ++ " bytes)"))

/-- A header announces one thing. -/
theorem Accepts.unique (ha : codec.Accepts buffer a) (hb : codec.Accepts buffer b) : a = b := by
  obtain ⟨s, k, length⟩ := a
  obtain ⟨t, l, other⟩ := b
  have hn := wordAt_lt buffer
  have hkind : some k = some l := by
    rw [← (ofCode?_eq_some_iff (hn 1)).mpr ha.kind, (ofCode?_eq_some_iff (hn 1)).mpr hb.kind]
  have hserializer : some s = some t := by
    rw [← (get?_eq_some_iff (hn 2)).mpr ⟨ha.known, ha.serializer⟩,
      (get?_eq_some_iff (hn 2)).mpr ⟨hb.known, hb.serializer⟩]
  have hlength : length = other := ha.length.symm.trans hb.length
  rw [Option.some.inj hkind, Option.some.inj hserializer, hlength]

theorem Objection.not_accepts (h : codec.Objection buffer fault) (ha : codec.Accepts buffer a) :
    False := by
  cases h with
  | mark hmark => exact hmark ha.mark
  | kind _ hkind => exact hkind a.kind ha.kind
  | serializer _ _ hserializer => exact hserializer a.serializer ha.known ha.serializer
  | length _ _ _ _ hlimit =>
    rw [ha.length] at hlimit
    exact Nat.not_le_of_lt hlimit ha.limit

/-- The header of a buffer is accepted, or the first word of it that is not is reported. -/
theorem announcement_cases (codec : Codec) (buffer : List UInt8) :
    (∃ a, codec.announcement (buffer.take headerLength) = .ok a ∧ codec.Accepts buffer a) ∨
      ∃ fault, codec.announcement (buffer.take headerLength) = .error fault ∧
        codec.Objection buffer fault := by
  have hmarkWord : number ((buffer.take headerLength).take 4) = wordAt buffer 0 :=
    number_take_header (i := 0) (by decide)
  have hkindWord : number (((buffer.take headerLength).drop 4).take 4) = wordAt buffer 1 :=
    number_take_header (i := 1) (by decide)
  have hserializerWord : number (((buffer.take headerLength).drop 8).take 4) = wordAt buffer 2 :=
    number_take_header (i := 2) (by decide)
  have hlengthWord : number (((buffer.take headerLength).drop 12).take 4) = wordAt buffer 3 :=
    number_take_header (i := 3) (by decide)
  unfold announcement
  simp only [hmarkWord, hkindWord, hserializerWord, hlengthWord]
  by_cases hmark : wordAt buffer 0 = mark
  case neg =>
    rw [if_pos hmark]
    exact .inr ⟨_, rfl, .mark hmark⟩
  case pos =>
    rw [if_neg (not_not_intro hmark)]
    cases hfoundKind : Message.Kind.ofCode? (wordAt buffer 1).toUInt32 with
    | none =>
      refine .inr ⟨_, rfl, .kind hmark fun k hkind ↦ ?_⟩
      rw [(ofCode?_eq_some_iff (wordAt_lt buffer 1)).mpr hkind] at hfoundKind
      cases hfoundKind
    | some k =>
      have hkind := (ofCode?_eq_some_iff (wordAt_lt buffer 1)).mp hfoundKind
      cases hfound : codec.plugins.get? (wordAt buffer 2).toUInt32 with
      | none =>
        refine .inr ⟨_, rfl, .serializer hmark hkind fun s hknown hserializer ↦ ?_⟩
        rw [(get?_eq_some_iff (wordAt_lt buffer 2)).mpr ⟨hknown, hserializer⟩] at hfound
        cases hfound
      | some s =>
        obtain ⟨hknown, hserializer⟩ := (get?_eq_some_iff (wordAt_lt buffer 2)).mp hfound
        by_cases hlimit : wordAt buffer 3 ≤ codec.limit
        case pos =>
          have hcheck : codec.checkLength (wordAt buffer 3) = .ok () := if_pos hlimit
          refine .inl ⟨⟨s, k, wordAt buffer 3⟩, ?_, hmark, hkind, hserializer, hknown, rfl, hlimit⟩
          simp only [hcheck]
          rfl
        case neg =>
          have hcheck : codec.checkLength (wordAt buffer 3) = .error _ := if_neg hlimit
          refine .inr ⟨_, ?_, .length hmark hkind hknown hserializer (Nat.lt_of_not_le hlimit)⟩
          simp only [hcheck]
          rfl

theorem announcement_of_accepts (h : codec.Accepts buffer a) :
    codec.announcement (buffer.take headerLength) = .ok a := by
  rcases codec.announcement_cases buffer with ⟨b, hb, haccepts⟩ | ⟨fault, -, hobjection⟩
  · rw [hb, haccepts.unique h]
  · exact (hobjection.not_accepts h).elim

/-! ## Decisions -/

/-- Where the header is accepted, a frame is taken once all that is announced is there. -/
theorem step_of_accepts (h : codec.Accepts buffer a)
    (hlength : headerLength + a.length ≤ buffer.length) :
    codec.step buffer = .take
      (Frame.mk a.serializer <$>
        Message.decode a.serializer a.kind ((buffer.drop headerLength).take a.length))
      (buffer.drop (headerLength + a.length)) := by
  have hheader : ¬ buffer.length < headerLength := by omega
  have hcontent : ¬ (buffer.drop headerLength).length < a.length := by
    rw [List.length_drop]
    omega
  unfold step
  rw [if_neg hheader, announcement_of_accepts h]
  simp only [if_neg hcontent, List.drop_drop]

theorem step_eq_wait_iff :
    codec.step buffer = .wait ↔ buffer.length < headerLength ∨
      ∃ a, codec.Accepts buffer a ∧ buffer.length < headerLength + a.length := by
  by_cases hheader : buffer.length < headerLength
  case pos => exact iff_of_true (step_of_short hheader) (.inl hheader)
  case neg =>
    rcases codec.announcement_cases buffer with ⟨a, ha, haccepts⟩ | ⟨fault, hfault, hobjection⟩
    case inl =>
      by_cases hlength : buffer.length < headerLength + a.length
      case pos =>
        have hcontent : (buffer.drop headerLength).length < a.length := by
          rw [List.length_drop]
          omega
        refine iff_of_true ?_ (.inr ⟨a, haccepts, hlength⟩)
        unfold step
        rw [if_neg hheader, ha]
        exact if_pos hcontent
      case neg =>
        rw [step_of_accepts haccepts (Nat.le_of_not_lt hlength)]
        refine iff_of_false nofun fun hwait ↦ ?_
        rcases hwait with hshort | ⟨b, hb, hshort⟩
        · exact hheader hshort
        · rw [hb.unique haccepts] at hshort
          exact hlength hshort
    case inr =>
      have hrefuse : codec.step buffer = .refuse fault := by
        unfold step
        rw [if_neg hheader, hfault]
      rw [hrefuse]
      refine iff_of_false nofun fun hwait ↦ ?_
      rcases hwait with hshort | ⟨a, ha, -⟩
      · exact hheader hshort
      · exact hobjection.not_accepts ha

theorem exists_step_refuse (hlength : headerLength ≤ buffer.length)
    (h : ∀ a, ¬ codec.Accepts buffer a) :
    ∃ fault, codec.Objection buffer fault ∧ codec.step buffer = .refuse fault := by
  rcases codec.announcement_cases buffer with ⟨a, -, haccepts⟩ | ⟨fault, hfault, hobjection⟩
  · exact absurd haccepts (h a)
  · refine ⟨fault, hobjection, ?_⟩
    unfold step
    rw [if_neg (Nat.not_lt_of_le hlength), hfault]

theorem decode_eq_none_iff : (codec.decode buffer).1 = .ok none ↔ codec.step buffer = .wait := by
  unfold decode
  cases codec.step buffer with
  | wait => exact iff_of_true rfl rfl
  | refuse fault => exact iff_of_false nofun nofun
  | take frame rest => cases frame <;> exact iff_of_false nofun nofun

/-- What a codec decides on. -/
structure Decides (codec : Codec) (buffer : List UInt8) : Prop where
  /-- More bytes are asked for while there is no header, or not all that an accepted one
  announces. -/
  waits : (codec.decode buffer).1 = .ok none ↔ buffer.length < headerLength ∨
    ∃ a, codec.Accepts buffer a ∧ buffer.length < headerLength + a.length
  keeps : (codec.decode buffer).1 = .ok none → (codec.decode buffer).2 = buffer
  /-- A header that is not accepted is refused, and again whatever comes behind it. -/
  refuses : headerLength ≤ buffer.length → (∀ a, ¬ codec.Accepts buffer a) →
    ∃ fault, codec.Objection buffer fault ∧
      ∀ more, codec.decode (buffer ++ more) = (.error fault, buffer ++ more)
  /-- What an accepted header announces is taken off, whether or not it is a message, and what comes
  behind it stays and is not looked at. -/
  takes : ∀ a, codec.Accepts buffer a → headerLength + a.length ≤ buffer.length → ∀ more,
    codec.decode (buffer ++ more) =
      (some <$> Frame.mk a.serializer <$>
          Message.decode a.serializer a.kind ((buffer.drop headerLength).take a.length),
        buffer.drop (headerLength + a.length) ++ more)

theorem decides (codec : Codec) (buffer : List UInt8) : codec.Decides buffer where
  waits := decode_eq_none_iff.trans step_eq_wait_iff
  keeps h := by
    unfold decode
    rw [decode_eq_none_iff.mp h]
  refuses hlength h := by
    obtain ⟨fault, hobjection, hstep⟩ := exists_step_refuse hlength h
    refine ⟨fault, hobjection, fun more ↦ ?_⟩
    unfold decode
    rw [step_append (by rw [hstep]; nofun), hstep]
    rfl
  takes a ha hlength more := by
    have hstep := step_of_accepts ha hlength
    unfold decode
    rw [step_append (by rw [hstep]; nofun), hstep]
    rfl

/-- A codec waits only for the rest of a frame that is not too long. -/
theorem length_lt_of_step_eq_wait (h : codec.step buffer = .wait) :
    buffer.length < headerLength + codec.limit := by
  rcases step_eq_wait_iff.mp h with hshort | ⟨a, ha, hshort⟩
  · exact Nat.lt_of_lt_of_le hshort (Nat.le_add_right _ _)
  · exact Nat.lt_of_lt_of_le hshort (Nat.add_le_add_left ha.limit _)

end Codec

namespace FrameStream

open Codec

variable {codec : Codec}

/-- Every frame takes a header at least off the buffer. -/
theorem length_ofBuffer_le (codec : Codec) (buffer : List UInt8) :
    headerLength * (ofBuffer codec buffer).frames.length +
      (ofBuffer codec buffer).buffer.length ≤ buffer.length := by
  induction hn : buffer.length using Nat.strongRecOn generalizing buffer with
  | ind n ih =>
    rw [ofBuffer_eq codec buffer]
    cases hstep : codec.step buffer with
    | wait => exact Nat.le_of_eq ((Nat.zero_add _).trans hn)
    | refuse fault => exact Nat.le_of_eq ((Nat.zero_add _).trans hn)
    | take frame rest =>
      have hlength := length_of_step_take hstep
      cases frame with
      | error fault =>
        simp only [List.length_nil]
        omega
      | ok frame =>
        have hrest := ih rest.length (by unfold headerLength at hlength; omega) rest rfl
        simp only [after, List.length_cons, Nat.mul_succ]
        omega

/-- How a reader of a stream gets on with its buffer. -/
structure Bounded (codec : Codec) : Prop where
  /-- Whatever pieces were read, a reader that goes on keeps less than the longest frame. -/
  retained : ∀ pieces : List (List UInt8), (pieces.foldl (feed codec) start).fault = none →
    (pieces.foldl (feed codec) start).buffer.length < headerLength + codec.limit
  /-- A buffer holds one frame for each length of a header at most. -/
  frames : ∀ buffer, (ofBuffer codec buffer).frames.length ≤ buffer.length / headerLength
  /-- So many rounds read all its frames, and more rounds would read no more. -/
  rounds : ∀ buffer n, buffer.length / headerLength ≤ n →
    drain codec n buffer = ofBuffer codec buffer
  /-- Behind them more bytes are needed, unless there was a fault. -/
  drained : ∀ buffer, (ofBuffer codec buffer).fault = none →
    codec.decode (ofBuffer codec buffer).buffer = (.ok none, (ofBuffer codec buffer).buffer)

theorem bounded (codec : Codec) : Bounded codec where
  retained pieces hfault := length_lt_of_step_eq_wait (step_buffer_foldl_feed codec pieces hfault)
  frames buffer := by
    have hlength := length_ofBuffer_le codec buffer
    unfold headerLength at hlength ⊢
    omega
  rounds buffer n hn := drain_eq_of_le hn (Nat.le_refl _)
  drained buffer hfault := by
    unfold decode
    rw [step_buffer_ofBuffer codec buffer hfault]

end FrameStream

/-- A codec decides on every buffer by its header and the length that it announces, and a reader of
a stream keeps less than the longest frame between two pieces. -/
theorem Codec.decides_and_bounds (codec : Codec) :
    (∀ buffer, codec.Decides buffer) ∧ FrameStream.Bounded codec :=
  ⟨codec.decides, FrameStream.bounded codec⟩

end FramedRpc
