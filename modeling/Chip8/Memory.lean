/-!
# Memory

Four kilobytes, the glyphs of the hexadecimal digits at the bottom. An address has sixteen bits and counts modulo the
size of memory.
-/

namespace Chip8

/-! ## The built-in glyphs -/

namespace Glyphs

/-- The rows of one glyph. -/
def height : Nat := 5

/-- The glyphs of the digits 0 to F, five bytes each. -/
def bytes : List UInt8 := [
  0xF0, 0x90, 0x90, 0x90, 0xF0,
  0x20, 0x60, 0x20, 0x20, 0x70,
  0xF0, 0x10, 0xF0, 0x80, 0xF0,
  0xF0, 0x10, 0xF0, 0x10, 0xF0,
  0x90, 0x90, 0xF0, 0x10, 0x10,
  0xF0, 0x80, 0xF0, 0x10, 0xF0,
  0xF0, 0x80, 0xF0, 0x90, 0xF0,
  0xF0, 0x10, 0x20, 0x40, 0x40,
  0xF0, 0x90, 0xF0, 0x90, 0xF0,
  0xF0, 0x90, 0xF0, 0x10, 0xF0,
  0xF0, 0x90, 0xF0, 0x90, 0x90,
  0xE0, 0x90, 0xE0, 0x90, 0xE0,
  0xF0, 0x80, 0x80, 0x80, 0xF0,
  0xE0, 0x90, 0x90, 0x90, 0xE0,
  0xF0, 0x80, 0xF0, 0x80, 0xF0,
  0xF0, 0x80, 0xF0, 0x80, 0x80]

/-- The bytes that all glyphs take. -/
def size : Nat := 80

/-- Where the glyph of a digit starts. -/
def address (digit : Nat) : UInt16 := UInt16.ofNat (digit * height)

end Glyphs

/-! ## Reading and writing -/

structure Memory where
  bytes : Vector UInt8 4096
  deriving DecidableEq

namespace Memory

def size : Nat := 4096

def zero : Memory := ⟨Vector.replicate 4096 0⟩

/-- The byte at address `a` modulo the size. -/
def read (m : Memory) (a : Nat) : UInt8 := m.bytes[a % 4096]

/-- Replaces the byte at address `a` modulo the size. -/
def write (m : Memory) (a : Nat) (b : UInt8) : Memory := ⟨m.bytes.set (a % 4096) b⟩

/-- The bytes from address `a` on. -/
def readMany (m : Memory) (a len : Nat) : List UInt8 := (List.range len).map fun k => m.read (a + k)

/-- Writes bytes from address `a` on, one after the other. -/
def writeMany (m : Memory) : Nat → List UInt8 → Memory
  | _, [] => m
  | a, b :: rest => (m.write a b).writeMany (a + 1) rest

/-- The memory of a new machine. -/
def initial : Memory := zero.writeMany 0 Glyphs.bytes

@[simp] theorem read_write (m : Memory) (a c : Nat) (b : UInt8) :
    (m.write a b).read c = if a % 4096 = c % 4096 then b else m.read c := by
  simp [read, write, Vector.getElem_set]

end Memory

end Chip8
