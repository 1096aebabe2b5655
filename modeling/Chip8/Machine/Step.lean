import Chip8.Machine

/-!
# Executing instructions

One step fetches the word at the program counter, moves the counter past it and performs the instruction
(`Machine.step`). The counter moves modulo 4096. A step that faults or waits for a key puts the counter back.
-/

namespace Chip8

/-- How a step ended. -/
inductive Outcome
  | executed
  /-- No key is held; the instruction is still to be done. -/
  | awaitingKey
  | faulted (f : Fault)
  /-- The random source broke off. -/
  | crashed (message : String)
  deriving DecidableEq, Repr

/-- The sum of two addresses within memory. -/
def wrapAdd (a b : UInt16) : UInt16 := (a + b) &&& 0x0FFF

theorem toNat_wrapAdd (a b : UInt16) : (wrapAdd a b).toNat = (a.toNat + b.toNat) % 0x1000 := by
  have h : (wrapAdd a b).toNat = (a + b).toNat % 0x1000 := Word.toNat_nnn (a + b)
  rw [h, UInt16.toNat_add]
  omega

namespace Machine

/-- Moves the program counter to the next word. -/
def advance (m : Machine) : Machine := { m with pc := wrapAdd m.pc 2 }

/-- Skips the next word if the condition holds. -/
def skipIf (m : Machine) (condition : Bool) : Machine := if condition then m.advance else m

/-- The register number of the flags. -/
def flag : Nibble := 0xF

/-! ## Arithmetic -/

/-- The sum of two bytes, and whether it does not fit into one. -/
def overflowingAdd (a b : UInt8) : UInt8 × Bool := (a + b, BitVec.uaddOverflow a.toBitVec b.toBitVec)

/-- An operation on `Vx` and `Vy`. The carry of an addition is written after the sum; the other flags are written
before the result. -/
def arith (m : Machine) (op : Arith) (x y : Nibble) : Machine :=
  let a := m.reg x
  let b := m.reg y
  match op with
  | .copy => m.setReg x b
  | .or => m.setReg x (a ||| b)
  | .and => m.setReg x (a &&& b)
  | .xor => m.setReg x (a ^^^ b)
  | .add =>
    let (sum, carry) := overflowingAdd a b
    (m.setReg x sum).setReg flag (if carry then 1 else 0)
  | .sub => (m.setReg flag (if b < a then 1 else 0)).setReg x (a - b)
  | .subFrom => (m.setReg flag (if a < b then 1 else 0)).setReg x (b - a)
  | .shiftRight => (m.setReg flag (a &&& 1)).setReg x (a >>> 1)
  | .shiftLeft => (m.setReg flag (a >>> 7)).setReg x (a <<< 1)

/-! ## Memory through the index register -/

/-- The address `k` places after the index register, modulo 2 ^ 16. -/
def indexed (m : Machine) (k : Nat) : Nat := (m.i + UInt16.ofNat k).toNat

/-- Writes bytes at the index register and after it, the first of them `k` places on. -/
def storeFrom (m : Machine) : Nat → List UInt8 → Machine
  | _, [] => m
  | k, b :: rest => ({ m with memory := m.memory.write (m.indexed k) b } : Machine).storeFrom (k + 1) rest

/-- The `n` bytes at the index register. -/
def indexedBytes (m : Machine) (n : Nat) : List UInt8 := (List.range n).map fun k => m.memory.read (m.indexed k)

/-- The three decimal digits of a byte. -/
def decimalDigits (b : UInt8) : List UInt8 := [b / 100, b / 10 % 10, b % 10]

/-- The registers from `V0` to `Vx`. -/
def firstRegs (m : Machine) (x : Nibble) : List UInt8 := m.v.toList.take (x.val + 1)

/-- Puts bytes into the registers from `Vk` on. -/
def setRegsFrom (m : Machine) : Nat → List UInt8 → Machine
  | _, [] => m
  | k, b :: rest => (m.setReg (Fin.ofNat 16 k) b).setRegsFrom (k + 1) rest

/-! ## Instructions -/

/-- Asks the random source for a byte and puts it, masked, into `Vx`. -/
def randomByte (m : Machine) (address word : UInt16) (x : Nibble) (mask : UInt8) : Outcome × Machine :=
  let (answer, random) := m.random.next
  let m := { m with random := random }
  match answer with
  | .byte b => (.executed, m.setReg x (b &&& mask))
  | .failure cause => (.faulted (.randomFailed address word cause), m)
  | .crash message => (.crashed message, m)

/-- Draws the sprite at the index register. -/
def drawIndexed (m : Machine) (x y n : Nibble) : Machine :=
  let (hit, m) := m.drawSprite (m.reg x) (m.reg y) (m.indexedBytes n.val)
  m.setReg flag (if hit then 1 else 0)

/-- Puts the lowest held key into `Vx`, if there is one. -/
def waitKey (m : Machine) (x : Nibble) : Outcome × Machine :=
  match m.keypad.lowest? with
  | some key => (.executed, m.setReg x (UInt8.ofNat key.val))
  | none => (.awaitingKey, m)

/-- Pushes the program counter and jumps, unless the stack is at its limit. -/
def call (m : Machine) (address word target : UInt16) : Outcome × Machine :=
  let pushed := { m with stack := m.pc :: m.stack, pc := target }
  match m.config.stackLimit with
  | some limit =>
    if limit ≤ m.stack.length then (.faulted (.stackOverflow address word limit), m) else (.executed, pushed)
  | none => (.executed, pushed)

/-- Jumps to the newest return address. -/
def ret (m : Machine) (address word : UInt16) : Outcome × Machine :=
  match m.stack with
  | top :: rest => (.executed, { m with stack := rest, pc := top })
  | [] => (.faulted (.stackUnderflow address word), m)

/-- Performs the instruction that `word` at `address` stands for, the program counter already past it. -/
def perform (m : Machine) (address word : UInt16) : Instruction → Outcome × Machine
  | .clear => (.executed, { m with display := .blank })
  | .ret => m.ret address word
  | .jump nnn => (.executed, { m with pc := nnn })
  | .call nnn => m.call address word nnn
  | .skipEqByte x nn => (.executed, m.skipIf (m.reg x == nn))
  | .skipNeByte x nn => (.executed, m.skipIf (m.reg x != nn))
  | .skipEq x y => (.executed, m.skipIf (m.reg x == m.reg y))
  | .setByte x nn => (.executed, m.setReg x nn)
  | .addByte x nn => (.executed, m.setReg x (m.reg x + nn))
  | .arith op x y => (.executed, m.arith op x y)
  | .skipNe x y => (.executed, m.skipIf (m.reg x != m.reg y))
  | .setIndex nnn => (.executed, { m with i := nnn })
  | .jumpPlus nnn => (.executed, { m with pc := wrapAdd nnn (m.reg 0).toUInt16 })
  | .random x nn => m.randomByte address word x nn
  | .draw x y n => (.executed, m.drawIndexed x y n)
  | .skipHeld x => (.executed, m.skipIf (m.keypad.isHeld (m.reg x)))
  | .skipNotHeld x => (.executed, m.skipIf (!m.keypad.isHeld (m.reg x)))
  | .readDelay x => (.executed, m.setReg x m.delay.value)
  | .waitKey x => m.waitKey x
  | .setDelay x => (.executed, { m with delay := m.delay.set (m.reg x) })
  | .setSound x => (.executed, { m with sound := m.sound.set (m.reg x) })
  | .addIndex x => (.executed, { m with i := wrapAdd m.i (m.reg x).toUInt16 })
  | .glyph x => (.executed, { m with i := Glyphs.address (m.reg x &&& 0x0F).toNat })
  | .decimal x => (.executed, m.storeFrom 0 (decimalDigits (m.reg x)))
  | .save x => (.executed, m.storeFrom 0 (m.firstRegs x))
  | .restore x => (.executed, m.setRegsFrom 0 (m.indexedBytes (x.val + 1)))
  | .unknown w => (.faulted (.unknownInstruction address w), m)

/-- Fetches, decodes and performs one instruction. -/
def step (m : Machine) : Outcome × Machine :=
  let address := m.pc
  let word := m.fetch
  match m.advance.perform address word (.decode word) with
  | (.executed, after) => (.executed, after)
  | (.crashed message, after) => (.crashed message, after)
  | (outcome, after) => (outcome, { after with pc := address })

/-- Steps until one does not execute, at most `n` times, after `count` steps that ended with `last`: the steps that
executed, the last outcome and the machine. -/
def stepsFrom : Nat → Nat × Outcome × Machine → Nat × Outcome × Machine
  | 0, run => run
  | n + 1, (count, _, m) =>
    match m.step with
    | (.executed, after) => stepsFrom n (count + 1, .executed, after)
    | (outcome, after) => (count, outcome, after)

/-- Steps until one does not execute, at most `n` times. -/
def steps (n : Nat) (m : Machine) : Nat × Outcome × Machine := stepsFrom n (0, .executed, m)

end Machine

end Chip8
