import Chip8.Proofs.Footprint

/-!
# Arithmetic on two registers

The nine operations on `Vx` and `Vy` in whole numbers: `Arith.value` is what an operation leaves in `Vx`, and
`Arith.carry` the flag that it leaves in `VF`. If `Vx` is `VF` itself, an addition leaves its flag there and every other
operation its result (`Machine.ArithDone`). Both operands are read before anything is written, so it does not matter
whether `y` names `VF` or the same register as `x`. Main statement: a step on a word `8xyN` does just this
(`Machine.step_arith`), and result and flag of additions and shifts together lose nothing.
-/

namespace Chip8

namespace Arith

/-- The operations by the last digit of their words. -/
def table : List (Nibble × Arith) :=
  [(0x0, .copy), (0x1, .or), (0x2, .and), (0x3, .xor), (0x4, .add), (0x5, .sub), (0x6, .shiftRight), (0x7, .subFrom),
    (0xE, .shiftLeft)]

theorem digit_of_mem_table {row : Nibble × Arith} (h : row ∈ table) : row.2.digit = row.1 := by
  have all : ∀ row ∈ table, row.2.digit = row.1 := by decide
  exact all row h

/-- The result for the bytes `a` in `Vx` and `b` in `Vy`. -/
def value (op : Arith) (a b : Nat) : Nat :=
  match op with
  | .copy => b
  | .or => a ||| b
  | .and => a &&& b
  | .xor => a ^^^ b
  | .add => (a + b) % 256
  | .sub => (256 + a - b) % 256
  | .subFrom => (256 + b - a) % 256
  | .shiftRight => a / 2
  | .shiftLeft => 2 * a % 256

/-- The flag beside the result; zero for an operation that sets none. -/
def carry (op : Arith) (a b : Nat) : Nat :=
  match op with
  | .add => if 255 < a + b then 1 else 0
  | .sub => if b < a then 1 else 0
  | .subFrom => if a < b then 1 else 0
  | .shiftRight => a % 2
  | .shiftLeft => a / 128
  | .copy | .or | .and | .xor => 0

/-- What is carried out of a sum, out of the doubled byte or out of the halved one is in the flag. -/
theorem carry_complete {a b : Nat} (ha : a < 256) (hb : b < 256) :
    256 * carry .add a b + value .add a b = a + b ∧ 256 * carry .shiftLeft a b + value .shiftLeft a b = 2 * a ∧
      2 * value .shiftRight a b + carry .shiftRight a b = a := by
  simp only [carry, value]
  split <;> omega

end Arith

namespace Machine

/-! ## The result and the flag -/

/-- The registers that an operation leaves. The addition writes `VF` last, the other operations `Vx`. -/
structure ArithDone (op : Arith) (x y : Nibble) (m after : Machine) : Prop where
  result : x ≠ flag ∨ op ≠ .add → (after.reg x).toNat = op.value (m.reg x).toNat (m.reg y).toNat
  carry : op.setsFlag = true → x ≠ flag ∨ op = .add →
    (after.reg flag).toNat = op.carry (m.reg x).toNat (m.reg y).toNat
  others : ∀ z, z ≠ x → (op.setsFlag = true → z ≠ flag) → after.reg z = m.reg z

variable {m : Machine} {op : Arith} {x y : Nibble}

theorem toNat_sub_byte (a b : UInt8) : (a - b).toNat = (256 + a.toNat - b.toNat) % 256 := by
  have hb := b.toNat_lt
  rw [UInt8.toNat_sub]
  omega

theorem toNat_bit (p : Prop) [Decidable p] : (if p then 1 else 0 : UInt8).toNat = if p then 1 else 0 := by
  split <;> rfl

theorem toNat_overflowingAdd (a b : UInt8) : (overflowingAdd a b).1.toNat = (a.toNat + b.toNat) % 256 :=
  UInt8.toNat_add a b

/-- A sum overflows just if it is too large for a byte. -/
theorem overflowingAdd_iff (a b : UInt8) : (overflowingAdd a b).2 = true ↔ 255 < a.toNat + b.toNat :=
  decide_eq_true_iff

theorem toNat_shiftRight_one (a : UInt8) : (a >>> 1).toNat = a.toNat / 2 :=
  (UInt8.toNat_shiftRight a 1).trans (Nat.shiftRight_eq_div_pow a.toNat 1)

theorem toNat_shiftRight_seven (a : UInt8) : (a >>> 7).toNat = a.toNat / 128 :=
  (UInt8.toNat_shiftRight a 7).trans (Nat.shiftRight_eq_div_pow a.toNat 7)

theorem toNat_shiftLeft_one (a : UInt8) : (a <<< 1).toNat = 2 * a.toNat % 256 := by
  rw [UInt8.toNat_shiftLeft, Nat.shiftLeft_eq, Nat.mul_comm]
  rfl

theorem toNat_and_one (a : UInt8) : (a &&& 1).toNat = a.toNat % 2 :=
  (UInt8.toNat_and a 1).trans (Nat.and_two_pow_sub_one_eq_mod a.toNat 1)

/-- The result, in a register that is written last. -/
theorem reg_arith_result (h : x ≠ flag ∨ op ≠ .add) :
    ((m.arith op x y).reg x).toNat = op.value (m.reg x).toNat (m.reg y).toNat := by
  cases op with
  | copy | or | and | xor => simp [arith, Arith.value]
  | add =>
    have hx : flag ≠ x := by
      rcases h with h | h
      · exact Ne.symm h
      · exact absurd rfl h
    simp only [arith, Arith.value, reg_setReg, if_neg hx, if_true, toNat_overflowingAdd]
  | sub | subFrom => simp [arith, Arith.value, toNat_sub_byte]
  | shiftRight => simp only [arith, Arith.value, reg_setReg, if_true, toNat_shiftRight_one]
  | shiftLeft => simp only [arith, Arith.value, reg_setReg, if_true, toNat_shiftLeft_one]

/-- The flag, if it is written last or into a register of its own. -/
theorem reg_arith_flag (sets : op.setsFlag = true) (h : x ≠ flag ∨ op = .add) :
    ((m.arith op x y).reg flag).toNat = op.carry (m.reg x).toNat (m.reg y).toNat := by
  cases op with
  | copy | or | and | xor => cases sets
  | add => simp only [arith, Arith.carry, reg_setReg, if_true, toNat_bit, overflowingAdd_iff]
  | sub | subFrom | shiftRight | shiftLeft =>
    have hx : x ≠ flag := by
      rcases h with h | h
      · exact h
      · cases h
    simp only [arith, Arith.carry, reg_setReg, if_neg hx, if_true, toNat_bit, UInt8.lt_iff_toNat_lt, toNat_and_one,
      toNat_shiftRight_seven]

theorem arithDone (m : Machine) (op : Arith) (x y : Nibble) : ArithDone op x y m (m.arith op x y) where
  result := reg_arith_result
  carry := reg_arith_flag
  others z hx hf := by
    refine Decidable.byContradiction fun hne => ?_
    rcases writes_of_reg_arith_ne hne with rfl | ⟨sets, rfl⟩
    · exact hx rfl
    · exact hf sets rfl

/-! ## One step -/

theorem step_of_arith (h : m.fetch = Word.ofDigits 0x8 x y op.digit) :
    m.step = (.executed, m.advance.arith op x y) := by
  have hdecode : Instruction.decode m.fetch = .arith op x y := by
    rw [h]
    simp [Instruction.decode, Instruction.decode?, Word.digits_ofDigits, Arith.ofDigit?_digit]
  have ha : m.attempt = (.executed, m.advance.arith op x y) := by rw [attempt, hdecode]; rfl
  exact step_of_executed ha

/-- Sums, doubled values and halved values are found again in result and flag together. -/
structure Lossless (op : Arith) (x y : Nibble) (m after : Machine) : Prop where
  add : op = .add → 256 * (after.reg flag).toNat + (after.reg x).toNat = (m.reg x).toNat + (m.reg y).toNat
  shiftLeft : op = .shiftLeft → 256 * (after.reg flag).toNat + (after.reg x).toNat = 2 * (m.reg x).toNat
  shiftRight : op = .shiftRight → 2 * (after.reg x).toNat + (after.reg flag).toNat = (m.reg x).toNat

theorem ArithDone.lossless {after : Machine} (h : ArithDone op x y m after) (hx : x ≠ flag) :
    Lossless op x y m after := by
  have hcomplete := Arith.carry_complete (m.reg x).toNat_lt (m.reg y).toNat_lt
  have hresult := h.result (.inl hx)
  refine ⟨?_, ?_, ?_⟩
  · rintro rfl
    rw [hresult, h.carry rfl (.inl hx)]
    exact hcomplete.1
  · rintro rfl
    rw [hresult, h.carry rfl (.inl hx)]
    exact hcomplete.2.1
  · rintro rfl
    rw [hresult, h.carry rfl (.inl hx)]
    exact hcomplete.2.2

/-- **Arithmetic under every aliasing of the operands.** A step on a word `8xyN` of the table executes its operation and
leaves all but the registers and the program counter alone. -/
theorem step_arith {n : Nibble} (row : (n, op) ∈ Arith.table) (word : m.fetch = Word.ofDigits 0x8 x y n) :
    m.step.1 = .executed ∧ m.step.2 = { m.advance with v := m.step.2.v } ∧ ArithDone op x y m m.step.2 ∧
      (x ≠ flag → Lossless op x y m m.step.2) := by
  have hdigit : op.digit = n := Arith.digit_of_mem_table row
  have hstep : m.step = (.executed, m.advance.arith op x y) := step_of_arith (by rw [word, hdigit])
  obtain ⟨v, hv⟩ := m.advance.arith_eq op x y
  have hrest : m.step.2 = { m.advance with v := m.step.2.v } := by rw [hstep, hv]
  have hdone : ArithDone op x y m m.step.2 := by
    have h := arithDone m.advance op x y
    rw [hstep]
    exact ⟨h.result, h.carry, h.others⟩
  exact ⟨by rw [hstep], hrest, hdone, hdone.lossless⟩

/-- A machine with 200 in all registers and one word to execute. -/
def hasOneWord (word : UInt16) : Machine :=
  { initial Config.standard (.scripted []) with
    memory := Memory.initial.writeMany 0x200 (Word.toBytes word)
    v := Vector.replicate 16 200 }

/-- `V3` and `VF` added: the sum takes both registers. `VF` added to itself: the carry stays. -/
theorem step_arith_flag :
    ((hasOneWord 0x83F4).fetch = Word.ofDigits 0x8 0x3 flag 0x4 ∧ (hasOneWord 0x83F4).step.1 = .executed ∧
      256 * ((hasOneWord 0x83F4).step.2.reg flag).toNat + ((hasOneWord 0x83F4).step.2.reg 0x3).toNat = 400) ∧
      (hasOneWord 0x8FF4).fetch = Word.ofDigits 0x8 flag flag 0x4 ∧
        ((hasOneWord 0x8FF4).step.2.reg flag).toNat = 1 := by
  have row : (0x4, .add) ∈ Arith.table := by decide
  have hsum : (hasOneWord 0x83F4).fetch = Word.ofDigits 0x8 0x3 flag 0x4 := by decide +kernel
  have hcarry : (hasOneWord 0x8FF4).fetch = Word.ofDigits 0x8 flag flag 0x4 := by decide +kernel
  obtain ⟨hexecuted, -, -, hlossless⟩ := step_arith row hsum
  obtain ⟨-, -, hdone, -⟩ := step_arith row hcarry
  refine ⟨⟨hsum, hexecuted, ?_⟩, hcarry, ?_⟩
  · rw [(hlossless (by decide)).add rfl]
    decide +kernel
  · rw [hdone.carry rfl (.inr rfl)]
    decide +kernel

end Machine

end Chip8
