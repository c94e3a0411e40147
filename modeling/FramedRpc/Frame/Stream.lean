import FramedRpc.Frame

/-!
# Streams of frames

A connection delivers its bytes in pieces of any size. A reader keeps the bytes of the frame that
is not yet complete; it reads all frames that are complete before it takes the next piece, and it
ends with the input or with the first fault.
-/

namespace FramedRpc

/-- What is known of the frames of a stream: those that were read, the bytes after them, and the
fault that ended the reading. -/
structure FrameStream where
  /-- The frames that were read, in order. -/
  frames : List Frame
  buffer : List UInt8
  fault : Option Fault

namespace FrameStream

def start : FrameStream := ⟨[], [], none⟩

/-- Reads the complete frames of a buffer. Each round takes at least a header off it. -/
def drain (codec : Codec) : (rounds : Nat) → (buffer : List UInt8) → FrameStream
  | 0, buffer => ⟨[], buffer, none⟩
  | rounds + 1, buffer =>
    match codec.step buffer with
    | .wait => ⟨[], buffer, none⟩
    | .refuse fault => ⟨[], buffer, some fault⟩
    | .take (.error fault) rest => ⟨[], rest, some fault⟩
    | .take (.ok frame) rest =>
      let more := drain codec rounds rest
      { more with frames := frame :: more.frames }

def ofBuffer (codec : Codec) (buffer : List UInt8) : FrameStream :=
  drain codec (buffer.length / Codec.headerLength) buffer

/-- Takes the next piece of the input. After a fault nothing is read. -/
def feed (codec : Codec) (s : FrameStream) (piece : List UInt8) : FrameStream :=
  match s.fault with
  | some _ => s
  | none =>
    let more := ofBuffer codec (s.buffer ++ piece)
    { more with frames := s.frames ++ more.frames }

/-- Ends the input. The bytes of an incomplete frame are a fault. -/
def finish (s : FrameStream) : FrameStream :=
  match s.fault with
  | some _ => s
  | none => if s.buffer.isEmpty then s else { s with fault := some Codec.leftover }

def answers (s : FrameStream) : List (Except Fault Frame) :=
  s.frames.map .ok ++ s.fault.toList.map .error

/-- Cuts an input into pieces of a length. -/
def pieces (length : Nat) (bytes : List UInt8) : List (List UInt8) :=
  (List.range ((bytes.length + length - 1) / length)).map fun i =>
    (bytes.drop (i * length)).take length

/-- What a reader is given for an input that comes in pieces. -/
def read (codec : Codec) (pieces : List (List UInt8)) : List (Except Fault Frame) :=
  ((pieces.foldl (feed codec) start).finish).answers

end FrameStream

end FramedRpc
