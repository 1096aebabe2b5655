import Chip8.Instruction.Encoding
import Chip8.Instruction.Mnemonic

/-!
# Listings of a program image

An image is cut into words from its first byte, a last odd byte left out; word `k` stands at `base + 2 * k` modulo
2 ^ 16. The distance from the base is itself a sixteen-bit number, so an image with more than 32768 words cannot be
listed: `Listing.ofImage` fails with `Listing.Overflow`.
-/

namespace Chip8.Listing

open Numeral (hex)

/-- One word of an image. -/
structure Line where
  address : UInt16
  word : UInt16
  instruction : Instruction
  deriving DecidableEq, Repr

/-- The image has more words than distances in sixteen bits. -/
structure Overflow where
  deriving DecidableEq, Repr

def Overflow.message (_ : Overflow) : String := "attempt to multiply with overflow"

/-- The words of an image. -/
def words : List UInt8 → List UInt16
  | high :: low :: rest => Word.ofBytes high low :: words rest
  | _ => []

/-- The lines of consecutive words, the first of them `index` words after `base`. -/
def linesFrom (base : UInt16) : Nat → List UInt16 → List Line
  | _, [] => []
  | index, w :: rest => ⟨base + UInt16.ofNat (2 * index), w, .decode w⟩ :: linesFrom base (index + 1) rest

/-- The largest number of words whose distances fit. -/
def maxWords : Nat := 0x8000

/-- The listing of an image whose first byte stands at `base`. -/
def ofImage (bytes : List UInt8) (base : UInt16) : Except Overflow (List Line) :=
  if bytes.length / 2 ≤ maxWords then .ok (linesFrom base 0 (words bytes)) else .error {}

/-- Address, word and mnemonic, three blanks apart. -/
def Line.text (l : Line) : String :=
  "0x" ++ hex 3 l.address.toNat ++ "   " ++ hex 4 l.word.toNat ++ "   " ++ l.instruction.mnemonic

/-- The lines, each ended by a line feed. -/
def text (lines : List Line) : String := String.join (lines.map fun l => l.text ++ "\n")

end Chip8.Listing
