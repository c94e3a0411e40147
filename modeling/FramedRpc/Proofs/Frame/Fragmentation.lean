import FramedRpc.Frame.Stream
import FramedRpc.Proofs.Frame.Step

/-!
# Pieces of a stream

What a reader is given does not depend on the pieces in which its input comes. A reader that took
some pieces agrees with one that took all their bytes at once, up to the buffer after a fault, which
is not looked at again.
-/

namespace FramedRpc.FrameStream

open Codec

variable {codec : Codec}

/-- A buffer that does not even hold a header is left as it is. -/
theorem drain_of_short {buffer : List UInt8} (h : buffer.length / headerLength ≤ 0) (n : Nat) :
    drain codec n buffer = ⟨[], buffer, none⟩ := by
  have hshort : buffer.length < headerLength := by
    unfold headerLength at h ⊢
    omega
  cases n with
  | zero => rfl
  | succ n => simp only [drain, step_of_short hshort]

/-- The rounds of a drain do not matter where they suffice. -/
theorem drain_eq_of_le {m n : Nat} {buffer : List UInt8} (hm : buffer.length / headerLength ≤ m)
    (hn : buffer.length / headerLength ≤ n) : drain codec m buffer = drain codec n buffer := by
  induction m generalizing n buffer with
  | zero => rw [drain_of_short hm, drain_of_short hm]
  | succ m ih =>
    cases n with
    | zero => rw [drain_of_short hn, drain_of_short hn]
    | succ n =>
      unfold drain
      cases hstep : codec.step buffer with
      | wait => rfl
      | refuse fault => rfl
      | take frame rest =>
        cases frame with
        | error fault => rfl
        | ok frame =>
          have hlength := length_of_step_take hstep
          have hrest (k : Nat) (hk : buffer.length / headerLength ≤ k + 1) :
              rest.length / headerLength ≤ k := by
            unfold headerLength at hlength hk ⊢
            omega
          simp only [ih (hrest m hm) (hrest n hn)]

def after (frame : Frame) (s : FrameStream) : FrameStream := { s with frames := frame :: s.frames }

/-- The rounds of a drain suffice, so one step tells how a buffer is read. -/
theorem ofBuffer_eq (codec : Codec) (buffer : List UInt8) :
    ofBuffer codec buffer =
      match codec.step buffer with
      | .wait => ⟨[], buffer, none⟩
      | .refuse fault => ⟨[], buffer, some fault⟩
      | .take (.error fault) rest => ⟨[], rest, some fault⟩
      | .take (.ok frame) rest => (ofBuffer codec rest).after frame := by
  have hrounds : ofBuffer codec buffer = drain codec (buffer.length / headerLength + 1) buffer :=
    drain_eq_of_le (Nat.le_refl _) (Nat.le_succ _)
  rw [hrounds, drain]
  cases hstep : codec.step buffer with
  | wait => rfl
  | refuse fault => rfl
  | take frame rest =>
    cases frame with
    | error fault => rfl
    | ok frame =>
      have hlength := length_of_step_take hstep
      have hrest : drain codec (buffer.length / headerLength) rest = ofBuffer codec rest :=
        drain_eq_of_le (Nat.div_le_div_right (by omega)) (Nat.le_refl _)
      simp only [hrest]
      rfl

/-! ## Readers that agree -/

/-- Two readers that give the same answers from now on: after a fault the buffer does not count. -/
structure Agree (s t : FrameStream) : Prop where
  frames : s.frames = t.frames
  fault : s.fault = t.fault
  buffer : s.fault = none → s.buffer = t.buffer

theorem Agree.refl (s : FrameStream) : Agree s s := ⟨rfl, rfl, fun _ ↦ rfl⟩

theorem Agree.trans {s t u : FrameStream} (hst : Agree s t) (htu : Agree t u) : Agree s u where
  frames := hst.frames.trans htu.frames
  fault := hst.fault.trans htu.fault
  buffer h := (hst.buffer h).trans (htu.buffer (hst.fault ▸ h))

theorem Agree.after {s t : FrameStream} (h : Agree s t) (frame : Frame) :
    Agree (s.after frame) (t.after frame) where
  frames := congrArg (List.cons frame) h.frames
  fault := h.fault
  buffer := h.buffer

@[simp]
theorem feed_after (codec : Codec) (frame : Frame) (s : FrameStream) (piece : List UInt8) :
    (s.after frame).feed codec piece = (s.feed codec piece).after frame := by
  obtain ⟨frames, buffer, fault⟩ := s
  cases fault with
  | some fault => rfl
  | none => rfl

theorem Agree.feed {s t : FrameStream} (h : Agree s t) (codec : Codec) (piece : List UInt8) :
    Agree (s.feed codec piece) (t.feed codec piece) := by
  unfold FrameStream.feed
  rw [← h.fault]
  cases hs : s.fault with
  | some fault => exact h
  | none =>
    simp only [h.buffer hs, h.frames]
    exact Agree.refl _

theorem Agree.answers_finish {s t : FrameStream} (h : Agree s t) :
    s.finish.answers = t.finish.answers := by
  unfold finish answers
  rw [← h.fault]
  cases hs : s.fault with
  | some fault => simp only [h.frames, hs, ← h.fault]
  | none =>
    rw [← h.buffer hs]
    by_cases hempty : s.buffer.isEmpty = true
    · simp only [hempty, if_true, h.frames, hs, ← h.fault]
    · simp only [hempty, h.frames]
      rfl

/-! ## Pieces -/

/-- Reading a buffer and then what comes behind it is reading both at once. -/
theorem agree_feed_ofBuffer (codec : Codec) (buffer piece : List UInt8) :
    Agree ((ofBuffer codec buffer).feed codec piece) (ofBuffer codec (buffer ++ piece)) := by
  induction hn : buffer.length using Nat.strongRecOn generalizing buffer with
  | ind n ih =>
    rw [ofBuffer_eq codec buffer]
    cases hstep : codec.step buffer with
    | wait => exact Agree.refl _
    | refuse fault =>
      rw [ofBuffer_eq codec (buffer ++ piece), step_append (by rw [hstep]; nofun) piece, hstep]
      exact ⟨rfl, rfl, nofun⟩
    | take frame rest =>
      rw [ofBuffer_eq codec (buffer ++ piece), step_append (by rw [hstep]; nofun) piece, hstep]
      cases frame with
      | error fault => exact ⟨rfl, rfl, nofun⟩
      | ok frame =>
        have hlength := length_of_step_take hstep
        have hrest := ih rest.length (by unfold headerLength at hlength; omega) rest rfl
        show Agree (((ofBuffer codec rest).after frame).feed codec piece)
          ((ofBuffer codec (rest ++ piece)).after frame)
        simpa using hrest.after frame

/-- Pieces are read as all their bytes at once, behind a buffer that was read before. -/
theorem agree_foldl_feed (pieces : List (List UInt8)) {s : FrameStream} {buffer : List UInt8}
    (h : Agree s (ofBuffer codec buffer)) :
    Agree (pieces.foldl (feed codec) s) (ofBuffer codec (buffer ++ pieces.flatten)) := by
  induction pieces generalizing s buffer with
  | nil =>
    rw [List.flatten_nil, List.append_nil]
    exact h
  | cons piece pieces ih =>
    rw [List.flatten_cons, ← List.append_assoc]
    exact ih ((h.feed codec piece).trans (agree_feed_ofBuffer codec buffer piece))

/-- What a reader is given is what one is given that reads the whole input at once. -/
theorem read_eq (codec : Codec) (pieces : List (List UInt8)) :
    read codec pieces = (ofBuffer codec pieces.flatten).finish.answers := by
  have hstart : Agree start (ofBuffer codec []) := Agree.refl start
  exact (agree_foldl_feed pieces hstart).answers_finish

/-- Two ways to cut one input, be it acceptable or not, give a reader the same answers. -/
theorem read_eq_of_flatten_eq (codec : Codec) {pieces others : List (List UInt8)}
    (h : pieces.flatten = others.flatten) : read codec pieces = read codec others := by
  rw [read_eq, read_eq, h]

/-- A header of an unknown kind in one piece, and cut inside its mark and inside its kind. -/
theorem read_unknownKind_eq :
    [[0xCA], [0xFE, 0xBA, 0xBE, 0, 0], [0, 9, 0, 0, 0, 0, 0, 0, 0, 0, 7]].flatten =
      [[0xCA, 0xFE, 0xBA, 0xBE, 0, 0, 0, 9, 0, 0, 0, 0, 0, 0, 0, 0, 7]].flatten ∧
    read .standard [[0xCA], [0xFE, 0xBA, 0xBE, 0, 0], [0, 9, 0, 0, 0, 0, 0, 0, 0, 0, 7]] =
      read .standard [[0xCA, 0xFE, 0xBA, 0xBE, 0, 0, 0, 9, 0, 0, 0, 0, 0, 0, 0, 0, 7]] :=
  ⟨rfl, read_eq_of_flatten_eq .standard rfl⟩

/-! ## Between two pieces -/

/-- A buffer whose complete frames were read waits for more bytes. -/
theorem step_buffer_ofBuffer (codec : Codec) (buffer : List UInt8)
    (h : (ofBuffer codec buffer).fault = none) :
    codec.step (ofBuffer codec buffer).buffer = .wait := by
  induction hn : buffer.length using Nat.strongRecOn generalizing buffer with
  | ind n ih =>
    rw [ofBuffer_eq codec buffer] at h ⊢
    cases hstep : codec.step buffer with
    | wait => exact hstep
    | refuse fault =>
      rw [hstep] at h
      cases h
    | take frame rest =>
      rw [hstep] at h
      cases frame with
      | error fault => cases h
      | ok frame =>
        have hlength := length_of_step_take hstep
        exact ih rest.length (by unfold headerLength at hlength; omega) rest h rfl

/-- So does the reader of a stream between two pieces. -/
theorem step_buffer_foldl_feed (codec : Codec) (pieces : List (List UInt8))
    (h : (pieces.foldl (feed codec) start).fault = none) :
    codec.step (pieces.foldl (feed codec) start).buffer = .wait := by
  have hstart : Agree start (ofBuffer codec []) := Agree.refl start
  have hagree := agree_foldl_feed pieces hstart
  rw [hagree.buffer h]
  exact step_buffer_ofBuffer codec _ (hagree.fault ▸ h)

end FramedRpc.FrameStream
