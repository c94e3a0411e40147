import FramedRpc.Frame

/-!
# One frame off a buffer

Once the bytes of a buffer decide what is read from it, the bytes behind them do not change that. A
header that was written within the limits announces what it was written for, so that a frame is
taken off whatever follows it.
-/

namespace FramedRpc.Codec

/-- A word holds a number up to multiples of 2 ^ 32. -/
theorem number_word_eq_mod (n : Nat) : number (word n) = n % 0x100000000 := by
  simp only [number, word, List.foldl_cons, List.foldl_nil, Nat.toUInt8, UInt8.toNat_ofNat']
  omega

@[simp]
theorem number_word {n : Nat} (hn : n < 0x100000000) : number (word n) = n := by
  rw [number_word_eq_mod, Nat.mod_eq_of_lt hn]

@[simp]
theorem length_header (s : Serializer) (kind : Message.Kind) (length : Nat) :
    (header s kind length).length = headerLength := rfl

theorem get?_code_eq (plugins : Plugins) (s : Serializer) :
    plugins.get? s.code = if plugins.accepts s then some s else none := by
  unfold Plugins.get? Plugins.toList
  rw [List.find?_filter]
  split
  case isTrue hs => cases s <;> simp [Serializer.all, Serializer.code, hs]
  case isFalse hs => cases s <;> simp [Serializer.all, Serializer.code, hs]

@[simp]
theorem get?_code {plugins : Plugins} {s : Serializer} (hs : plugins.accepts s = true) :
    plugins.get? s.code = some s := by
  rw [get?_code_eq, if_pos hs]

@[simp]
theorem get?_code_of_not_accepts {plugins : Plugins} {s : Serializer}
    (hs : plugins.accepts s = false) : plugins.get? s.code = none := by
  rw [get?_code_eq, hs]
  rfl

@[simp]
theorem ofCode?_code (k : Message.Kind) : Message.Kind.ofCode? k.code = some k := by
  cases k <;> rfl

/-- What a header that was written announces depends on the serializer and on the length. -/
theorem announcement_header_eq (codec : Codec) (s : Serializer) (kind : Message.Kind)
    (length : Nat) :
    codec.announcement (header s kind length) =
      match codec.plugins.get? s.code with
      | none => .error (.protocol ("Unrecognized serializer code " ++ Numeral.text s.code.toNat))
      | some found =>
        (codec.checkLength (number (word length))).map fun _ ↦
          ⟨found, kind, number (word length)⟩ := by
  have hmark : number ((header s kind length).take 4) = mark := number_word (by decide)
  have hkind : number (((header s kind length).drop 4).take 4) = kind.code.toNat :=
    number_word kind.code.toNat_lt
  have hserializer : number (((header s kind length).drop 8).take 4) = s.code.toNat :=
    number_word s.code.toNat_lt
  have hlength : ((header s kind length).drop 12).take 4 = word length := rfl
  unfold announcement
  simp only [hmark, hkind, hserializer, hlength]
  simp only [ne_eq, not_true_eq_false, if_false, Nat.toUInt32, UInt32.ofNat_toNat, ofCode?_code]
  cases codec.plugins.get? s.code with
  | none => rfl
  | some found =>
    show Except.bind _ _ = _
    cases codec.checkLength (number (word length)) <;> rfl

/-- A header within the limits announces what it was written for. -/
@[simp]
theorem announcement_header {codec : Codec} {s : Serializer} (kind : Message.Kind) {length : Nat}
    (hs : codec.plugins.accepts s = true) (hlimit : length ≤ codec.limit)
    (hword : length < 0x100000000) :
    codec.announcement (header s kind length) = .ok ⟨s, kind, length⟩ := by
  have hcheck : codec.checkLength length = .ok () := if_pos hlimit
  simp [announcement_header_eq, hs, hword, hcheck, Except.map]

/-- The step that is taken where more bytes follow those that decided it. -/
def Step.append : Step → List UInt8 → Step
  | .wait, _ => .wait
  | .refuse fault, _ => .refuse fault
  | .take frame rest, more => .take frame (rest ++ more)

/-- What was decided is not changed by the bytes that come later. -/
theorem step_append {codec : Codec} {buffer : List UInt8} (h : codec.step buffer ≠ .wait)
    (more : List UInt8) : codec.step (buffer ++ more) = (codec.step buffer).append more := by
  unfold step at h ⊢
  by_cases hshort : buffer.length < headerLength
  · rw [if_pos hshort] at h
    exact absurd rfl h
  · have hlong : ¬ (buffer ++ more).length < headerLength := by
      rw [List.length_append]
      omega
    have hhead : (buffer ++ more).take headerLength = buffer.take headerLength :=
      List.take_append_of_le_length (by omega)
    have hcontent : (buffer ++ more).drop headerLength = buffer.drop headerLength ++ more :=
      List.drop_append_of_le_length (by omega)
    rw [if_neg hshort] at h
    rw [if_neg hlong, if_neg hshort, hhead, hcontent]
    cases ha : codec.announcement (buffer.take headerLength) with
    | error fault => rfl
    | ok a =>
      simp only [ha] at h ⊢
      by_cases hwait : (buffer.drop headerLength).length < a.length
      · rw [if_pos hwait] at h
        exact absurd rfl h
      · have hready : ¬ (buffer.drop headerLength ++ more).length < a.length := by
          rw [List.length_append]
          omega
        rw [if_neg hwait, if_neg hready, List.take_append_of_le_length (by omega),
          List.drop_append_of_le_length (by omega)]
        rfl

/-- A frame takes at least its header off the buffer. -/
theorem length_of_step_take {codec : Codec} {buffer rest : List UInt8}
    {frame : Except Fault Frame} (h : codec.step buffer = .take frame rest) :
    rest.length + headerLength ≤ buffer.length := by
  unfold step at h
  by_cases hshort : buffer.length < headerLength
  · rw [if_pos hshort] at h
    cases h
  · rw [if_neg hshort] at h
    cases ha : codec.announcement (buffer.take headerLength) with
    | error fault =>
      rw [ha] at h
      cases h
    | ok a =>
      simp only [ha] at h
      split at h
      · cases h
      · injection h with _ hrest
        rw [← hrest]
        simp only [List.length_drop]
        omega

/-- A buffer that is shorter than a header decides nothing. -/
theorem step_of_short {codec : Codec} {buffer : List UInt8} (h : buffer.length < headerLength) :
    codec.step buffer = .wait := if_pos h

/-- A header and its content are taken off whatever follows them. -/
theorem step_header {codec : Codec} {s : Serializer} (kind : Message.Kind) {content : List UInt8}
    (hs : codec.plugins.accepts s = true) (hlimit : content.length ≤ codec.limit)
    (hword : content.length < 0x100000000) (rest : List UInt8) :
    codec.step (header s kind content.length ++ content ++ rest) =
      .take (Frame.mk s <$> Message.decode s kind content) rest := by
  have hhead : (header s kind content.length ++ content ++ rest).take headerLength =
      header s kind content.length := by
    rw [List.append_assoc, List.take_left' (length_header s kind content.length)]
  have hcontent : (header s kind content.length ++ content ++ rest).drop headerLength =
      content ++ rest := by
    rw [List.append_assoc, List.drop_left' (length_header s kind content.length)]
  have hlong : ¬ (header s kind content.length ++ content ++ rest).length < headerLength := by
    simp
  have hready : ¬ (content ++ rest).length < content.length := by
    rw [List.length_append]
    omega
  unfold step
  simp only [if_neg hlong, hhead, announcement_header kind hs hlimit hword, hcontent,
    if_neg hready, List.take_left, List.drop_left]

end FramedRpc.Codec
