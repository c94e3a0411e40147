/-!
# Reproducible random numbers

The ChaCha stream with twelve rounds as a source of random numbers, started from a seed of 64 bits,
and the unbiased choice of a number below a bound.
-/

namespace FramedRpc.Random

/-! ## The block function -/

abbrev Block := Vector UInt32 16

def rotateLeft (x : UInt32) (count : UInt32) : UInt32 :=
  x <<< count ||| x >>> (32 - count)

/-- Stirs four words of a block. -/
def quarterRound (x : Block) (a b c d : Fin 16) : Block :=
  let x := x.set a (x[a] + x[b])
  let x := x.set d (rotateLeft (x[d] ^^^ x[a]) 16)
  let x := x.set c (x[c] + x[d])
  let x := x.set b (rotateLeft (x[b] ^^^ x[c]) 12)
  let x := x.set a (x[a] + x[b])
  let x := x.set d (rotateLeft (x[d] ^^^ x[a]) 8)
  let x := x.set c (x[c] + x[d])
  x.set b (rotateLeft (x[b] ^^^ x[c]) 7)

def doubleRound (x : Block) : Block :=
  let x := quarterRound x 0 4 8 12
  let x := quarterRound x 1 5 9 13
  let x := quarterRound x 2 6 10 14
  let x := quarterRound x 3 7 11 15
  let x := quarterRound x 0 5 10 15
  let x := quarterRound x 1 6 11 12
  let x := quarterRound x 2 7 8 13
  quarterRound x 3 4 9 14

def output (x : Block) : Block :=
  Vector.zipWith (· + ·) (Nat.repeat doubleRound 6 x) x

/-! ## The generator -/

/-- A source of words: a key, the number of the next block, and the words of the last block that
are not yet used. -/
structure Generator where
  key : Vector UInt32 8
  counter : UInt64
  unused : List UInt32

namespace Generator

/-- One step of the sequence that spreads a seed. -/
def spread (s : UInt64) : UInt64 := s * 6364136223846793005 + 11634580027462260723

/-- The word that a state of that sequence gives. -/
def spreadWord (s : UInt64) : UInt32 :=
  let mixed := (((s >>> 18) ^^^ s) >>> 27).toUInt32
  let count := (s >>> 59).toUInt32
  mixed >>> count ||| mixed <<< (32 - count)

/-- The words of the key for a seed. -/
def keyWords : (count : Nat) → UInt64 → List UInt32
  | 0, _ => []
  | count + 1, s => let s := spread s; spreadWord s :: keyWords count s

def ofSeed (seed : UInt64) : Generator :=
  let words := keyWords 8 seed
  ⟨Vector.ofFn fun i => words.getD i 0, 0, []⟩

def block (g : Generator) : Block :=
  let k := g.key
  #v[0x61707865, 0x3320646E, 0x79622D32, 0x6B206574, k[0], k[1], k[2], k[3], k[4], k[5], k[6], k[7],
    g.counter.toUInt32, (g.counter >>> 32).toUInt32, 0, 0]

def nextWord (g : Generator) : UInt32 × Generator :=
  match g.unused with
  | w :: rest => (w, { g with unused := rest })
  | [] =>
    let words := output g.block
    (words[0], { g with counter := g.counter + 1, unused := words.toList.tail })

/-- The next number of 64 bits, made of two words, the lower half first. -/
def next (g : Generator) : Nat × Generator :=
  let (low, g) := g.nextWord
  let (high, g) := g.nextWord
  (low.toNat + high.toNat * 0x100000000, g)

/-- The largest lower half of a product with `bound` that is accepted, so that each choice is the
upper half of equally many accepted products. -/
def acceptLimit (bound : Nat) : Nat := bound * Nat.pow 2 (63 - Nat.log2 bound) - 1

/-- A number below `bound`: the upper half of the product of `bound` and a draw. Draws whose lower
half is too large are repeated, `retries` times at most. -/
def below (bound : Nat) : (retries : Nat) → Generator → Nat × Generator
  | 0, g =>
    let (v, g) := g.next
    (v * bound / 0x10000000000000000, g)
  | retries + 1, g =>
    let (v, g) := g.next
    if v * bound % 0x10000000000000000 ≤ acceptLimit bound then (v * bound / 0x10000000000000000, g)
    else below bound retries g

/-- A number below `bound`. Every second draw at least is accepted, so the retries do not run out
in practice. -/
def choose (bound : Nat) (g : Generator) : Nat × Generator := below bound 1024 g

end Generator

end FramedRpc.Random
