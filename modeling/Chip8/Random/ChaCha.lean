import Chip8.Random

/-!
# Seeded random bytes

The key stream of ChaCha with twelve rounds, a 64-bit block counter from zero and a zero nonce. The key is spread out
from a 64-bit seed by a permuted congruential generator. Each output word gives its low byte.
-/

namespace Chip8.ChaCha

abbrev Block := Vector UInt32 16

def rotateLeft (w : UInt32) (k : UInt32) : UInt32 := (w <<< k) ||| (w >>> (32 - k))

/-! ## The block function -/

def quarterRound (a b c d : Fin 16) (s : Block) : Block :=
  let s := s.set a (s[a] + s[b])
  let s := s.set d (rotateLeft (s[d] ^^^ s[a]) 16)
  let s := s.set c (s[c] + s[d])
  let s := s.set b (rotateLeft (s[b] ^^^ s[c]) 12)
  let s := s.set a (s[a] + s[b])
  let s := s.set d (rotateLeft (s[d] ^^^ s[a]) 8)
  let s := s.set c (s[c] + s[d])
  s.set b (rotateLeft (s[b] ^^^ s[c]) 7)

/-- A round on the columns and a round on the diagonals. -/
def doubleRound (s : Block) : Block :=
  let s := quarterRound 0 4 8 12 s
  let s := quarterRound 1 5 9 13 s
  let s := quarterRound 2 6 10 14 s
  let s := quarterRound 3 7 11 15 s
  let s := quarterRound 0 5 10 15 s
  let s := quarterRound 1 6 11 12 s
  let s := quarterRound 2 7 8 13 s
  quarterRound 3 4 9 14 s

/-- Constants, key, block counter and nonce. -/
def initialBlock (key : Vector UInt32 8) (counter : Nat) : Block :=
  #v[0x61707865, 0x3320646e, 0x79622d32, 0x6b206574,
    key[0], key[1], key[2], key[3], key[4], key[5], key[6], key[7],
    UInt32.ofNat counter, UInt32.ofNat (counter / 0x100000000), 0, 0]

/-- One block of the key stream after twelve rounds. -/
def block (key : Vector UInt32 8) (counter : Nat) : Block :=
  let start := initialBlock key counter
  Vector.zipWith (· + ·) (Nat.repeat doubleRound 6 start) start

/-- Word `k` of the key stream. -/
def word (key : Vector UInt32 8) (k : Nat) : UInt32 := (block key (k / 16))[k % 16]

/-! ## The key of a seed -/

def seedStep (state : UInt64) : UInt64 := state * 6364136223846793005 + 11634580027462260723

/-- The permuted output of a generator state. -/
def seedOutput (state : UInt64) : UInt32 :=
  let mixed := (((state >>> 18) ^^^ state) >>> 27).toUInt32
  let turn := (state >>> 59).toUInt32
  (mixed >>> turn) ||| (mixed <<< ((32 - turn) &&& 31))

/-- Output `k` of the generator, which steps before each output. -/
def seedWord (seed : UInt64) (k : Nat) : UInt32 := seedOutput (Nat.repeat seedStep (k + 1) seed)

def keyOfSeed (seed : UInt64) : Vector UInt32 8 := Vector.ofFn fun i => seedWord seed i.val

/-- The bytes that a seed gives. -/
def source (seed : UInt64) : RandomSource :=
  let key := keyOfSeed seed
  .ofBytes fun k => (word key k).toUInt8

end Chip8.ChaCha
