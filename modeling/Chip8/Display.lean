import Chip8.Numeral

/-!
# The display

Sixty-four columns and thirty-two rows of pixels. A row is a bit vector whose most significant bit is column 0, so the
pixel at `(x, y)` is bit `x` of row `y` counted from the left (`Display.pixel`). Drawing turns over the pixels of a
sprite, eight columns wide, and wraps at both edges (`Display.draw`).
-/

namespace Chip8

structure Display where
  rows : Vector (BitVec 64) 32
  deriving DecidableEq

namespace Display

def width : Nat := 64

def height : Nat := 32

def blank : Display := ⟨Vector.replicate 32 0⟩

/-! ## Reading -/

/-- Row `y` counted modulo the height. -/
def row (d : Display) (y : Nat) : BitVec 64 := d.rows[y % 32]

/-- There is no row of this number. -/
structure NoRow where
  index : Nat
  deriving DecidableEq, Repr

def NoRow.message (e : NoRow) : String :=
  "index out of bounds: the len is 32 but the index is " ++ Numeral.decimal 1 e.index

def row? (d : Display) (y : Nat) : Except NoRow (BitVec 64) :=
  if y < height then .ok (d.row y) else .error ⟨y⟩

/-- The row in which only column `x` is lit. -/
def column? (x : Nat) : Option (BitVec 64) :=
  if x < width then some (1#64 <<< (63 - x)) else none

/-- Why there is no column of a number past the last. -/
def columnMessage : String := "attempt to subtract with overflow"

/-- Whether a row is lit in column `x`. -/
def isLit (row : BitVec 64) (x : Nat) : Bool := (column? x).any fun mask => row &&& mask != 0

/-- Whether the pixel in column `x` of row `y` is lit; none is outside the display. -/
def pixel (d : Display) (x y : Nat) : Bool := decide (x < width) && decide (y < height) && isLit (d.row y) x

/-- The rows from the top, one line of binary digits each. -/
def text (d : Display) : String :=
  String.join (d.rows.toList.map fun r => Numeral.binary width r.toNat ++ "\n")

/-! ## Drawing -/

/-- Eight pixels starting at column `x` modulo the width, those past the right edge coming in at the left. -/
def spriteRow (pixels x : UInt8) : BitVec 64 :=
  (pixels.toBitVec ++ 0#56).rotateRight (x.toNat % 64)

/-- Turns over the pixels of row `y` modulo the height that are set in `pattern`. -/
def flip (d : Display) (y : Nat) (pattern : BitVec 64) : Display :=
  ⟨d.rows.set (y % 32) (d.row y ^^^ pattern)⟩

@[simp] theorem row_flip (d : Display) (y z : Nat) (pattern : BitVec 64) :
    (d.flip y pattern).row z = if y % 32 = z % 32 then d.row z ^^^ pattern else d.row z := by
  simp only [row, flip, Vector.getElem_set]
  split
  · next h => simp only [h]
  · rfl

/-- Draws sprite rows downwards from row `y`; tells whether a lit pixel was turned off, or `hit` held before. -/
def drawFrom (x : UInt8) : Nat → List UInt8 → Bool × Display → Bool × Display
  | _, [], drawn => drawn
  | y, pixels :: rest, (hit, d) =>
    let pattern := spriteRow pixels x
    let old := d.row y
    let new := old ^^^ pattern
    drawFrom x (y + 1) rest (hit || (old ||| pattern) ^^^ new != 0, d.flip y pattern)

/-- Draws a sprite with its upper left corner at `(x, y)`; tells whether a lit pixel was turned off. -/
def draw (d : Display) (x y : UInt8) (sprite : List UInt8) : Bool × Display :=
  drawFrom x y.toNat sprite (false, d)

end Display

end Chip8
