import Chip8.Word

/-!
# Instructions

The thirty-four instructions, and one constructor for the words that are none. Fields keep the width of the value they
stand for: a register or a digit is a `Nibble`, an immediate a byte, an address any sixteen bits.
-/

namespace Chip8

/-- What `8xyN` does with `Vx` and `Vy`. -/
inductive Arith
  /-- `Vx := Vy`. -/
  | copy
  | or
  | and
  | xor
  /-- `Vx := Vx + Vy`, the carry in `VF`. -/
  | add
  /-- `Vx := Vx - Vy`, `Vx > Vy` in `VF`. -/
  | sub
  /-- `Vx := Vx / 2`, the bit shifted out in `VF`. -/
  | shiftRight
  /-- `Vx := Vy - Vx`, `Vy > Vx` in `VF`. -/
  | subFrom
  /-- `Vx := 2 * Vx`, the bit shifted out in `VF`. -/
  | shiftLeft
  deriving DecidableEq, Repr

inductive Instruction
  /-- `00E0`: clear the display. -/
  | clear
  /-- `00EE`: return from a subroutine. -/
  | ret
  /-- `1nnn`: jump. -/
  | jump (nnn : UInt16)
  /-- `2nnn`: call a subroutine. -/
  | call (nnn : UInt16)
  /-- `3xnn`: skip if `Vx = nn`. -/
  | skipEqByte (x : Nibble) (nn : UInt8)
  /-- `4xnn`: skip if `Vx ≠ nn`. -/
  | skipNeByte (x : Nibble) (nn : UInt8)
  /-- `5xy0`: skip if `Vx = Vy`. -/
  | skipEq (x y : Nibble)
  /-- `6xnn`: `Vx := nn`. -/
  | setByte (x : Nibble) (nn : UInt8)
  /-- `7xnn`: `Vx := Vx + nn`, no carry. -/
  | addByte (x : Nibble) (nn : UInt8)
  /-- `8xyN`: arithmetic on two registers. -/
  | arith (op : Arith) (x y : Nibble)
  /-- `9xy0`: skip if `Vx ≠ Vy`. -/
  | skipNe (x y : Nibble)
  /-- `Annn`: `I := nnn`. -/
  | setIndex (nnn : UInt16)
  /-- `Bnnn`: jump to `nnn + V0`. -/
  | jumpPlus (nnn : UInt16)
  /-- `Cxnn`: `Vx :=` a random byte masked by `nn`. -/
  | random (x : Nibble) (nn : UInt8)
  /-- `Dxyn`: draw `n` sprite rows from `I` at `(Vx, Vy)`, the collision in `VF`. -/
  | draw (x y n : Nibble)
  /-- `Ex9E`: skip if key `Vx` is held. -/
  | skipHeld (x : Nibble)
  /-- `ExA1`: skip if key `Vx` is not held. -/
  | skipNotHeld (x : Nibble)
  /-- `Fx07`: `Vx :=` the delay timer. -/
  | readDelay (x : Nibble)
  /-- `Fx0A`: wait for a key and put its number in `Vx`. -/
  | waitKey (x : Nibble)
  /-- `Fx15`: the delay timer `:= Vx`. -/
  | setDelay (x : Nibble)
  /-- `Fx18`: the sound timer `:= Vx`. -/
  | setSound (x : Nibble)
  /-- `Fx1E`: `I := I + Vx`. -/
  | addIndex (x : Nibble)
  /-- `Fx29`: `I :=` the glyph of the low digit of `Vx`. -/
  | glyph (x : Nibble)
  /-- `Fx33`: the three decimal digits of `Vx` at `I`. -/
  | decimal (x : Nibble)
  /-- `Fx55`: store `V0` to `Vx` at `I`. -/
  | save (x : Nibble)
  /-- `Fx65`: load `V0` to `Vx` from `I`. -/
  | restore (x : Nibble)
  /-- A word of no other form. -/
  | unknown (word : UInt16)
  deriving DecidableEq, Repr

end Chip8
