import FramedRpc.Text.Numeral

/-!
# UTF-8

Encoding of texts as bytes and the strict decoding of bytes as text. A refused byte sequence tells
how many of its bytes were well formed and how long the ill-formed stretch after them is; the
length is absent when the input ends inside a character.
-/

namespace FramedRpc.Utf8

structure Flaw where
  validUpTo : Nat
  badLength : Option Nat
  deriving DecidableEq, Repr

def Flaw.message (flaw : Flaw) : String :=
  match flaw.badLength with
  | some length =>
    "invalid utf-8 sequence of " ++ Numeral.text length ++ " bytes from index " ++
      Numeral.text flaw.validUpTo
  | none => "incomplete utf-8 byte sequence from index " ++ Numeral.text flaw.validUpTo

/-- The one to four bytes of a code point. -/
def encodeScalar (n : Nat) : List UInt8 :=
  if n < 0x80 then [n.toUInt8]
  else if n < 0x800 then [(0xC0 + n / 0x40).toUInt8, (0x80 + n % 0x40).toUInt8]
  else if n < 0x10000 then
    [(0xE0 + n / 0x1000).toUInt8, (0x80 + n / 0x40 % 0x40).toUInt8, (0x80 + n % 0x40).toUInt8]
  else
    [(0xF0 + n / 0x40000).toUInt8, (0x80 + n / 0x1000 % 0x40).toUInt8,
      (0x80 + n / 0x40 % 0x40).toUInt8, (0x80 + n % 0x40).toUInt8]

def encode (s : String) : List UInt8 :=
  s.toList.flatMap fun c => encodeScalar c.toNat

/-- Continuation bytes carry six bits each. -/
def isTail (b : UInt8) : Bool := 0x80 ≤ b && b ≤ 0xBF

/-- The bytes allowed after `a` as first byte of three: no overlong forms and no surrogates. -/
def isSecondOfThree (a b : UInt8) : Bool :=
  if a = 0xE0 then 0xA0 ≤ b && b ≤ 0xBF
  else if a = 0xED then 0x80 ≤ b && b ≤ 0x9F
  else isTail b

/-- The bytes allowed after `a` as first byte of four: no overlong forms, nothing above U+10FFFF. -/
def isSecondOfFour (a b : UInt8) : Bool :=
  if a = 0xF0 then 0x90 ≤ b && b ≤ 0xBF
  else if a = 0xF4 then 0x80 ≤ b && b ≤ 0x8F
  else isTail b

/-- The six bits of a continuation byte. -/
def tailBits (b : UInt8) : Nat := b.toNat - 0x80

/-- Decodes the bytes after the first `offset` ones, whose characters are `done`, last first. -/
def decodeFrom (offset : Nat) (done : List Char) : List UInt8 → Except Flaw (List Char)
  | [] => .ok done.reverse
  | a :: rest =>
    if a < 0x80 then decodeFrom (offset + 1) (Char.ofNat a.toNat :: done) rest
    else if 0xC2 ≤ a && a ≤ 0xDF then
      match rest with
      | [] => .error ⟨offset, none⟩
      | b :: rest =>
        if isTail b then
          decodeFrom (offset + 2) (Char.ofNat ((a.toNat - 0xC0) * 0x40 + tailBits b) :: done) rest
        else .error ⟨offset, some 1⟩
    else if 0xE0 ≤ a && a ≤ 0xEF then
      match rest with
      | [] => .error ⟨offset, none⟩
      | b :: rest =>
        if isSecondOfThree a b then
          match rest with
          | [] => .error ⟨offset, none⟩
          | c :: rest =>
            if isTail c then
              decodeFrom (offset + 3)
                (Char.ofNat ((a.toNat - 0xE0) * 0x1000 + tailBits b * 0x40 + tailBits c) :: done)
                rest
            else .error ⟨offset, some 2⟩
        else .error ⟨offset, some 1⟩
    else if 0xF0 ≤ a && a ≤ 0xF4 then
      match rest with
      | [] => .error ⟨offset, none⟩
      | b :: rest =>
        if isSecondOfFour a b then
          match rest with
          | [] => .error ⟨offset, none⟩
          | c :: rest =>
            if isTail c then
              match rest with
              | [] => .error ⟨offset, none⟩
              | d :: rest =>
                if isTail d then
                  decodeFrom (offset + 4)
                    (Char.ofNat ((a.toNat - 0xF0) * 0x40000 + tailBits b * 0x1000
                      + tailBits c * 0x40 + tailBits d) :: done)
                    rest
                else .error ⟨offset, some 3⟩
            else .error ⟨offset, some 2⟩
        else .error ⟨offset, some 1⟩
    else .error ⟨offset, some 1⟩

def decode (bytes : List UInt8) : Except Flaw String := do
  let chars ← decodeFrom 0 [] bytes
  return String.ofList chars

end FramedRpc.Utf8
