import Chip8.Proofs.Step

/-!
# Control flow of one instruction

Most instructions leave the program counter, the index register and the stack as they find them. `Control m i pc index
stack` lists what each instruction may make of the three, and `perform_control` says that the list is complete. A step
leaves what the instruction made of them, or puts the program counter back (`step_snd`).
-/

namespace Chip8.Machine

/-! ## What the helpers leave alone -/

theorem skipIf_cases (m : Machine) (condition : Bool) :
    m.skipIf condition = m ∨ m.skipIf condition = m.advance := by
  cases condition with
  | true => exact .inr rfl
  | false => exact .inl rfl

theorem arith_eq (m : Machine) (op : Arith) (x y : Nibble) : ∃ v, m.arith op x y = { m with v := v } := by
  cases op <;> exact ⟨_, rfl⟩

theorem storeFrom_eq (m : Machine) (k : Nat) (bytes : List UInt8) :
    ∃ memory, m.storeFrom k bytes = { m with memory := memory } := by
  induction bytes generalizing m k with
  | nil => exact ⟨m.memory, rfl⟩
  | cons b rest ih =>
    obtain ⟨memory, h⟩ := ih { m with memory := m.memory.write (m.indexed k) b } (k + 1)
    exact ⟨memory, h⟩

theorem setRegsFrom_eq (m : Machine) (k : Nat) (bytes : List UInt8) :
    ∃ v, m.setRegsFrom k bytes = { m with v := v } := by
  induction bytes generalizing m k with
  | nil => exact ⟨m.v, rfl⟩
  | cons b rest ih =>
    obtain ⟨v, h⟩ := ih (m.setReg (Fin.ofNat 16 k) b) (k + 1)
    exact ⟨v, h⟩

theorem drawIndexed_eq (m : Machine) (x y n : Nibble) :
    ∃ display v, m.drawIndexed x y n = { m with display := display, v := v } :=
  ⟨_, _, rfl⟩

/-- The next word, also behind the end of memory. -/
theorem toNat_advance_pc (m : Machine) : m.advance.pc.toNat = (m.pc.toNat + 2) % 0x1000 := toNat_wrapAdd m.pc 2

/-! ## One instruction -/

/-- What an instruction may make of the program counter, the index register and the stack. -/
inductive Control (m : Machine) : Instruction → UInt16 → UInt16 → List UInt16 → Prop
  | keep {i : Instruction} : Control m i m.pc m.i m.stack
  | skip {i : Instruction} : Control m i m.advance.pc m.i m.stack
  | ret {top : UInt16} {rest : List UInt16} : m.stack = top :: rest → Control m .ret top m.i rest
  | jump {nnn : UInt16} : Control m (.jump nnn) nnn m.i m.stack
  | jumpPlus {nnn : UInt16} : Control m (.jumpPlus nnn) (wrapAdd nnn (m.reg 0).toUInt16) m.i m.stack
  | call {nnn : UInt16} : (∀ limit, m.config.stackLimit = some limit → m.stack.length < limit) →
      Control m (.call nnn) nnn m.i (m.pc :: m.stack)
  | setIndex {nnn : UInt16} : Control m (.setIndex nnn) m.pc nnn m.stack
  | addIndex {x : Nibble} : Control m (.addIndex x) m.pc (wrapAdd m.i (m.reg x).toUInt16) m.stack
  | glyph {x : Nibble} : Control m (.glyph x) m.pc (Glyphs.address (m.reg x &&& 0x0F).toNat) m.stack

variable (m : Machine) (address word : UInt16)

theorem skipIf_control (i : Instruction) (condition : Bool) :
    (m.skipIf condition).config = m.config ∧
      Control m i (m.skipIf condition).pc (m.skipIf condition).i (m.skipIf condition).stack := by
  rcases m.skipIf_cases condition with h | h <;> rw [h]
  · exact ⟨rfl, .keep⟩
  · exact ⟨rfl, .skip⟩

/-- Every instruction keeps the settings and makes of control what `Control` says. -/
theorem perform_control (i : Instruction) :
    (m.perform address word i).2.config = m.config ∧
      Control m i (m.perform address word i).2.pc (m.perform address word i).2.i
        (m.perform address word i).2.stack := by
  cases i with
  | ret =>
    rcases m.ret_cases address word with ⟨-, h⟩ | ⟨top, rest, hs, h⟩ <;> rw [perform, h]
    · exact ⟨rfl, .keep⟩
    · exact ⟨rfl, .ret hs⟩
  | call nnn =>
    rcases m.call_cases address word nnn with ⟨limit, -, -, h⟩ | ⟨hl, h⟩ <;> rw [perform, h]
    · exact ⟨rfl, .keep⟩
    · exact ⟨rfl, .call hl⟩
  | random x nn =>
    rcases m.randomByte_cases address word x nn with ⟨b, -, h⟩ | ⟨cause, -, h⟩ | ⟨message, -, h⟩ <;>
      rw [perform, h] <;>
      exact ⟨rfl, .keep⟩
  | waitKey x =>
    rcases m.waitKey_cases x with ⟨key, -, h⟩ | ⟨-, h⟩ <;> rw [perform, h] <;> exact ⟨rfl, .keep⟩
  | skipEqByte x nn | skipNeByte x nn | skipEq x y | skipNe x y | skipHeld x | skipNotHeld x =>
    exact m.skipIf_control _ _
  | arith op x y =>
    obtain ⟨v, h⟩ := m.arith_eq op x y
    rw [perform, h]
    exact ⟨rfl, .keep⟩
  | draw x y n =>
    obtain ⟨display, v, h⟩ := m.drawIndexed_eq x y n
    rw [perform, h]
    exact ⟨rfl, .keep⟩
  | decimal x =>
    obtain ⟨memory, h⟩ := m.storeFrom_eq 0 (decimalDigits (m.reg x))
    rw [perform, h]
    exact ⟨rfl, .keep⟩
  | save x =>
    obtain ⟨memory, h⟩ := m.storeFrom_eq 0 (m.firstRegs x)
    rw [perform, h]
    exact ⟨rfl, .keep⟩
  | restore x =>
    obtain ⟨v, h⟩ := m.setRegsFrom_eq 0 (m.indexedBytes (x.val + 1))
    rw [perform, h]
    exact ⟨rfl, .keep⟩
  | jump nnn => exact ⟨rfl, .jump⟩
  | jumpPlus nnn => exact ⟨rfl, .jumpPlus⟩
  | setIndex nnn => exact ⟨rfl, .setIndex⟩
  | addIndex x => exact ⟨rfl, .addIndex⟩
  | glyph x => exact ⟨rfl, .glyph⟩
  | clear | setByte x nn | addByte x nn | readDelay x | setDelay x | setSound x | unknown w => exact ⟨rfl, .keep⟩

/-! ## One step -/

/-- A step leaves what the instruction left, or puts the program counter back. -/
theorem step_snd : m.step.2 = m.attempt.2 ∨ m.step.2 = { m.attempt.2 with pc := m.pc } := by
  cases h : m.attempt with
  | mk outcome after =>
    cases outcome with
    | executed => exact .inl (by rw [step_of_executed h])
    | crashed message => exact .inl (by rw [step_of_crashed h])
    | awaitingKey => exact .inr (by rw [step_of_awaitingKey h])
    | faulted f => exact .inr (by rw [step_of_faulted h])

/-- No step changes the settings. -/
theorem step_config : m.step.2.config = m.config := by
  have h := (m.advance.perform_control m.pc m.fetch (.decode m.fetch)).1
  rcases m.step_snd with e | e <;> rw [e] <;> exact h

end Chip8.Machine
