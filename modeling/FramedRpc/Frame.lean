import FramedRpc.Message

/-!
# Frames

A message on the wire: a header of sixteen bytes and the encoded message. The header holds four
numbers, most significant byte first: a mark, the kind of the message, the code of the serializer
and the length of what follows. Reading waits until a frame is complete, but refuses a header as
soon as it is there.
-/

namespace FramedRpc

/-- A message and the serializer of its encoding. -/
structure Frame where
  serializer : Serializer
  message : Message
  deriving DecidableEq, Repr

/-- What a peer sends and accepts: which serializers it knows and how long an encoded message may
be. -/
structure Codec where
  plugins : Plugins
  limit : Nat

namespace Codec

/-- The number with which every frame begins. -/
def mark : Nat := 0xCAFEBABE

def headerLength : Nat := 16

/-- The length up to which encoded messages are accepted unless another limit is set. -/
def standardLimit : Nat := 100 * 1024 * 1024

def standard : Codec := ⟨.all, standardLimit⟩

/-! ## Writing -/

/-- The four bytes of a number, the most significant first; larger numbers wrap around. -/
def word (n : Nat) : List UInt8 :=
  [(n / 0x1000000).toUInt8, (n / 0x10000).toUInt8, (n / 0x100).toUInt8, n.toUInt8]

/-- A message of at most the limit's length. -/
def checkLength (codec : Codec) (length : Nat) : Except Fault Unit :=
  if length ≤ codec.limit then .ok ()
  else .error (.protocol ("Frame too large: " ++ Numeral.text length ++ " bytes (max " ++
    Numeral.text codec.limit ++ " bytes)"))

/-- The header of a message of a length. -/
def header (s : Serializer) (kind : Message.Kind) (length : Nat) : List UInt8 :=
  word mark ++ word kind.code.toNat ++ word s.code.toNat ++ word length

def encode (codec : Codec) (frame : Frame) : Except Fault (List UInt8) := do
  let content := frame.message.encode frame.serializer
  codec.checkLength content.length
  return header frame.serializer frame.message.kind content.length ++ content

/-! ## Reading -/

/-- The number that bytes stand for, the most significant first. -/
def number (bytes : List UInt8) : Nat := bytes.foldl (fun n b => n * 0x100 + b.toNat) 0

structure Announcement where
  serializer : Serializer
  kind : Message.Kind
  length : Nat
  deriving DecidableEq, Repr

/-- Reads a header. The first part that is not acceptable is reported. -/
def announcement (codec : Codec) (header : List UInt8) : Except Fault Announcement := do
  let found := number (header.take 4)
  let kind := number ((header.drop 4).take 4)
  let serializer := number ((header.drop 8).take 4)
  let length := number ((header.drop 12).take 4)
  if found ≠ mark then
    throw (.protocol ("Unrecognized magic number 0x" ++ Numeral.hexText 8 found))
  match Message.Kind.ofCode? kind.toUInt32, codec.plugins.get? serializer.toUInt32 with
  | none, _ => throw (.protocol ("Unrecognized message kind " ++ Numeral.text kind))
  | some _, none =>
    throw (.protocol ("Unrecognized serializer code " ++ Numeral.text serializer))
  | some kind, some serializer =>
    codec.checkLength length
    return ⟨serializer, kind, length⟩

/-- The outcome of reading a frame from the front of a buffer. -/
inductive Step where
  /-- More bytes are needed. -/
  | wait
  /-- The header is not acceptable; the buffer stays as it is. -/
  | refuse (fault : Fault)
  /-- The bytes of one frame are read, whether or not they encode a message. -/
  | take (frame : Except Fault Frame) (rest : List UInt8)

/-- Reads a frame from the front of a buffer. -/
def step (codec : Codec) (buffer : List UInt8) : Step :=
  if buffer.length < headerLength then .wait
  else
    match codec.announcement (buffer.take headerLength) with
    | .error fault => .refuse fault
    | .ok a =>
      let content := buffer.drop headerLength
      if content.length < a.length then .wait
      else
        .take ((Frame.mk a.serializer) <$> Message.decode a.serializer a.kind (content.take a.length))
          (content.drop a.length)

/-- Reads a frame if there is one, and leaves the rest of the buffer. -/
def decode (codec : Codec) (buffer : List UInt8) : Except Fault (Option Frame) × List UInt8 :=
  match codec.step buffer with
  | .wait => (.ok none, buffer)
  | .refuse fault => (.error fault, buffer)
  | .take frame rest => (some <$> frame, rest)

/-- The fault of an input that ends inside a frame. -/
def leftover : Fault := .io "bytes remaining on stream"

/-- Reads a frame from a buffer to which nothing will be added. -/
def decodeAtEnd (codec : Codec) (buffer : List UInt8) :
    Except Fault (Option Frame) × List UInt8 :=
  match codec.decode buffer with
  | (.ok none, buffer) => if buffer.isEmpty then (.ok none, buffer) else (.error leftover, buffer)
  | result => result

end Codec

end FramedRpc
