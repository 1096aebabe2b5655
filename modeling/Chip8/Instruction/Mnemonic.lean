import Chip8.Instruction
import Chip8.Numeral

/-!
# Mnemonics

The text of an instruction. Registers are `V` and a digit, bytes two digits after `0x`, addresses at least three.
-/

namespace Chip8

open Numeral (hex)

/-- The name of an arithmetic instruction. -/
def Arith.mnemonic : Arith → String
  | .copy => "LD"
  | .or => "OR"
  | .and => "AND"
  | .xor => "XOR"
  | .add => "ADD"
  | .sub => "SUB"
  | .shiftRight => "SHR"
  | .subFrom => "SUBN"
  | .shiftLeft => "SHL"

namespace Mnemonic

def register (x : Nibble) : String := "V" ++ hex 1 x.val

def byte (nn : UInt8) : String := "0x" ++ hex 2 nn.toNat

def address (nnn : UInt16) : String := "0x" ++ hex 3 nnn.toNat

end Mnemonic

open Mnemonic

/-- The text of an instruction. -/
def Instruction.mnemonic : Instruction → String
  | .clear => "CLS"
  | .ret => "RET"
  | .jump nnn => "JP " ++ address nnn
  | .call nnn => "CALL " ++ address nnn
  | .skipEqByte x nn => "SE " ++ register x ++ ", " ++ byte nn
  | .skipNeByte x nn => "SNE " ++ register x ++ ", " ++ byte nn
  | .skipEq x y => "SE " ++ register x ++ ", " ++ register y
  | .setByte x nn => "LD " ++ register x ++ ", " ++ byte nn
  | .addByte x nn => "ADD " ++ register x ++ ", " ++ byte nn
  | .arith op x y => op.mnemonic ++ " " ++ register x ++ ", " ++ register y
  | .skipNe x y => "SNE " ++ register x ++ ", " ++ register y
  | .setIndex nnn => "LD I, " ++ address nnn
  | .jumpPlus nnn => "JP V0, " ++ address nnn
  | .random x nn => "RND " ++ register x ++ ", " ++ byte nn
  | .draw x y n => "DRW " ++ register x ++ ", " ++ register y ++ ", 0x" ++ hex 1 n.val
  | .skipHeld x => "SKP " ++ register x
  | .skipNotHeld x => "SKNP " ++ register x
  | .readDelay x => "LD " ++ register x ++ ", DT"
  | .waitKey x => "LD " ++ register x ++ ", K"
  | .setDelay x => "LD DT, " ++ register x
  | .setSound x => "LD ST, " ++ register x
  | .addIndex x => "ADD I, " ++ register x
  | .glyph x => "LD F, " ++ register x
  | .decimal x => "LD B, " ++ register x
  | .save x => "LD [I], " ++ register x
  | .restore x => "LD " ++ register x ++ ", [I]"
  | .unknown _ => "???"

end Chip8
