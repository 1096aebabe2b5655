import Chip8.Instruction

/-!
# The encoding of instructions

`Instruction.decode` reads a word and `Instruction.encode` writes one. Decoding is total: a word of no known form is
`Instruction.unknown`. Encoding drops the bits of an address above the twelfth.
-/

namespace Chip8

namespace Arith

/-- The last digit of the word. -/
def digit : Arith → Nibble
  | .copy => 0x0
  | .or => 0x1
  | .and => 0x2
  | .xor => 0x3
  | .add => 0x4
  | .sub => 0x5
  | .shiftRight => 0x6
  | .subFrom => 0x7
  | .shiftLeft => 0xE

def ofDigit? : Nibble → Option Arith
  | 0x0 => some .copy
  | 0x1 => some .or
  | 0x2 => some .and
  | 0x3 => some .xor
  | 0x4 => some .add
  | 0x5 => some .sub
  | 0x6 => some .shiftRight
  | 0x7 => some .subFrom
  | 0xE => some .shiftLeft
  | _ => none

theorem ofDigit?_digit (op : Arith) : ofDigit? op.digit = some op := by cases op <;> rfl

theorem digit_of_ofDigit? {n : Nibble} {op : Arith} (h : ofDigit? n = some op) : op.digit = n := by
  unfold ofDigit? at h
  split at h <;> cases h <;> rfl

end Arith

namespace Instruction

/-- The instruction of kind `E` with low byte `nn`. -/
def decodeKey? (x : Nibble) : UInt8 → Option Instruction
  | 0x9E => some (.skipHeld x)
  | 0xA1 => some (.skipNotHeld x)
  | _ => none

/-- The instruction of kind `F` with low byte `nn`. -/
def decodeDevice? (x : Nibble) : UInt8 → Option Instruction
  | 0x07 => some (.readDelay x)
  | 0x0A => some (.waitKey x)
  | 0x15 => some (.setDelay x)
  | 0x18 => some (.setSound x)
  | 0x1E => some (.addIndex x)
  | 0x29 => some (.glyph x)
  | 0x33 => some (.decimal x)
  | 0x55 => some (.save x)
  | 0x65 => some (.restore x)
  | _ => none

/-- The instruction that a word stands for, if it has a known form. -/
def decode? (w : UInt16) : Option Instruction :=
  match Word.kind w with
  | 0x0 => if w = 0x00E0 then some .clear else if w = 0x00EE then some .ret else none
  | 0x1 => some (.jump (Word.nnn w))
  | 0x2 => some (.call (Word.nnn w))
  | 0x3 => some (.skipEqByte (Word.x w) (Word.nn w))
  | 0x4 => some (.skipNeByte (Word.x w) (Word.nn w))
  | 0x5 => if Word.n w = 0 then some (.skipEq (Word.x w) (Word.y w)) else none
  | 0x6 => some (.setByte (Word.x w) (Word.nn w))
  | 0x7 => some (.addByte (Word.x w) (Word.nn w))
  | 0x8 => (Arith.ofDigit? (Word.n w)).map fun op => .arith op (Word.x w) (Word.y w)
  | 0x9 => if Word.n w = 0 then some (.skipNe (Word.x w) (Word.y w)) else none
  | 0xA => some (.setIndex (Word.nnn w))
  | 0xB => some (.jumpPlus (Word.nnn w))
  | 0xC => some (.random (Word.x w) (Word.nn w))
  | 0xD => some (.draw (Word.x w) (Word.y w) (Word.n w))
  | 0xE => decodeKey? (Word.x w) (Word.nn w)
  | _ => decodeDevice? (Word.x w) (Word.nn w)

/-- The instruction that a word stands for. -/
def decode (w : UInt16) : Instruction := (decode? w).getD (.unknown w)

/-- The word of an instruction. -/
def encode : Instruction → UInt16
  | .clear => 0x00E0
  | .ret => 0x00EE
  | .jump nnn => Word.ofAddress 0x1 nnn
  | .call nnn => Word.ofAddress 0x2 nnn
  | .skipEqByte x nn => Word.ofByte 0x3 x nn
  | .skipNeByte x nn => Word.ofByte 0x4 x nn
  | .skipEq x y => Word.ofDigits 0x5 x y 0x0
  | .setByte x nn => Word.ofByte 0x6 x nn
  | .addByte x nn => Word.ofByte 0x7 x nn
  | .arith op x y => Word.ofDigits 0x8 x y op.digit
  | .skipNe x y => Word.ofDigits 0x9 x y 0x0
  | .setIndex nnn => Word.ofAddress 0xA nnn
  | .jumpPlus nnn => Word.ofAddress 0xB nnn
  | .random x nn => Word.ofByte 0xC x nn
  | .draw x y n => Word.ofDigits 0xD x y n
  | .skipHeld x => Word.ofByte 0xE x 0x9E
  | .skipNotHeld x => Word.ofByte 0xE x 0xA1
  | .readDelay x => Word.ofByte 0xF x 0x07
  | .waitKey x => Word.ofByte 0xF x 0x0A
  | .setDelay x => Word.ofByte 0xF x 0x15
  | .setSound x => Word.ofByte 0xF x 0x18
  | .addIndex x => Word.ofByte 0xF x 0x1E
  | .glyph x => Word.ofByte 0xF x 0x29
  | .decimal x => Word.ofByte 0xF x 0x33
  | .save x => Word.ofByte 0xF x 0x55
  | .restore x => Word.ofByte 0xF x 0x65
  | .unknown w => w

end Instruction

end Chip8
