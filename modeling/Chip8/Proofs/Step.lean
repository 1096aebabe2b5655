import Chip8.Machine.Step
import Chip8.Proofs.Encoding

/-!
# Steps that do not execute

`Machine.step` performs the instruction at the program counter on the machine whose counter has moved on
(`Machine.attempt`), and takes the move back if the instruction does not execute.

- `Faults m f`: the instruction at the program counter of `m` cannot be done, with fault `f`. A step faults with `f`
  just then (`step_faulted_iff`) and leaves the machine as it was, the random source apart (`step_of_faults`).
- `Waits m`: the instruction waits for a key while none is held. A step answers that it waits just then
  (`step_awaitingKey_iff`) and changes nothing (`step_of_waits`).
- A lasting fault (`Fault.lasts`) hangs on the program counter, the memory, the stack and the settings only
  (`Faults.congr`).
-/

namespace Chip8

/-- A fault that comes again when the instruction is tried again. -/
def Fault.lasts : Fault → Bool
  | .randomFailed .. => false
  | _ => true

/-- The program counter stays where the instruction has left it. -/
def Outcome.movesOn : Outcome → Bool
  | .executed | .crashed _ => true
  | .awaitingKey | .faulted _ => false

theorem Keypad.testBit_of_find?_none {n : Nat} (hn : n < 65536)
    (h : (List.finRange 16).find? (fun k => n.testBit k.val) = none) : n = 0 := by
  apply Nat.eq_of_testBit_eq
  intro k
  rw [Nat.zero_testBit]
  by_cases hk : k < 16
  · simpa using List.find?_eq_none.mp h ⟨k, hk⟩ (List.mem_finRange _)
  · have hpow : 2 ^ 16 ≤ 2 ^ k := Nat.pow_le_pow_right (by omega) (Nat.le_of_not_lt hk)
    exact Nat.testBit_lt_two_pow (Nat.lt_of_lt_of_le hn hpow)

/-- No key is found just when the mask is empty. -/
theorem Keypad.lowest?_eq_none_iff {p : Keypad} : p.lowest? = none ↔ p.mask = 0 := by
  constructor
  · intro h
    apply UInt16.toNat_inj.mp
    exact testBit_of_find?_none p.mask.toNat_lt h
  · intro h
    simp [lowest?, h]

namespace Machine

/-! ## The instructions that may fail to execute -/

section Partial

variable (m : Machine) (address word : UInt16)

theorem ret_cases : m.stack = [] ∧ m.ret address word = (.faulted (.stackUnderflow address word), m) ∨
    ∃ top rest, m.stack = top :: rest ∧ m.ret address word = (.executed, { m with stack := rest, pc := top }) := by
  unfold ret
  cases h : m.stack with
  | nil => exact .inl ⟨rfl, rfl⟩
  | cons top rest => exact .inr ⟨top, rest, rfl, rfl⟩

theorem call_cases (target : UInt16) :
    (∃ limit, m.config.stackLimit = some limit ∧ limit ≤ m.stack.length ∧
      m.call address word target = (.faulted (.stackOverflow address word limit), m)) ∨
    (∀ limit, m.config.stackLimit = some limit → m.stack.length < limit) ∧
      m.call address word target = (.executed, { m with stack := m.pc :: m.stack, pc := target }) := by
  unfold call
  cases hl : m.config.stackLimit with
  | none => exact .inr ⟨fun limit h => (nomatch h), rfl⟩
  | some limit =>
    by_cases hd : limit ≤ m.stack.length
    · exact .inl ⟨limit, rfl, hd, by simp only [hd, if_true]⟩
    · refine .inr ⟨fun limit' h => ?_, by simp only [hd, if_false]⟩
      cases h
      omega

/-- The machine whose random source has answered once more. -/
def ask : Machine := { m with random := m.random.next.2 }

theorem randomByte_cases (x : Nibble) (mask : UInt8) :
    (∃ b, m.random.next.1 = .byte b ∧ m.randomByte address word x mask = (.executed, m.ask.setReg x (b &&& mask))) ∨
    (∃ cause, m.random.next.1 = .failure cause ∧
      m.randomByte address word x mask = (.faulted (.randomFailed address word cause), m.ask)) ∨
    ∃ message, m.random.next.1 = .crash message ∧ m.randomByte address word x mask = (.crashed message, m.ask) := by
  unfold randomByte ask
  cases h : m.random.next.1 with
  | byte b => exact .inl ⟨b, rfl, by simp only [h]⟩
  | failure cause => exact .inr (.inl ⟨cause, rfl, by simp only [h]⟩)
  | crash message => exact .inr (.inr ⟨message, rfl, by simp only [h]⟩)

theorem waitKey_cases (x : Nibble) :
    (∃ key, m.keypad.lowest? = some key ∧ m.waitKey x = (.executed, m.setReg x (UInt8.ofNat key.val))) ∨
    m.keypad.lowest? = none ∧ m.waitKey x = (.awaitingKey, m) := by
  unfold waitKey
  cases h : m.keypad.lowest? with
  | none => exact .inr ⟨rfl, rfl⟩
  | some key => exact .inl ⟨key, rfl, rfl⟩

end Partial

/-! ## Taking the move back -/

/-- What the instruction at the program counter comes to on the machine whose counter has moved on. -/
def attempt (m : Machine) : Outcome × Machine := m.advance.perform m.pc m.fetch (.decode m.fetch)

theorem step_of_executed {m after : Machine} (h : m.attempt = (.executed, after)) : m.step = (.executed, after) := by
  unfold attempt at h
  simp only [step, h]

theorem step_of_crashed {m after : Machine} {message : String} (h : m.attempt = (.crashed message, after)) :
    m.step = (.crashed message, after) := by
  unfold attempt at h
  simp only [step, h]

theorem step_of_faulted {m after : Machine} {f : Fault} (h : m.attempt = (.faulted f, after)) :
    m.step = (.faulted f, { after with pc := m.pc }) := by
  unfold attempt at h
  simp only [step, h]

theorem step_of_awaitingKey {m after : Machine} (h : m.attempt = (.awaitingKey, after)) :
    m.step = (.awaitingKey, { after with pc := m.pc }) := by
  unfold attempt at h
  simp only [step, h]

theorem step_fst (m : Machine) : m.step.1 = m.attempt.1 := by
  cases h : m.attempt with
  | mk outcome after =>
    cases outcome with
    | executed => rw [step_of_executed h]
    | awaitingKey => rw [step_of_awaitingKey h]
    | faulted f => rw [step_of_faulted h]
    | crashed message => rw [step_of_crashed h]

theorem step_snd_of_executed {m : Machine} (h : m.step.1 = .executed) : m.step.2 = m.attempt.2 := by
  rw [step_fst] at h
  have ha : m.attempt = (.executed, m.attempt.2) := Prod.ext h rfl
  rw [step_of_executed ha]

/-- A step is the attempt, with the move taken back if the instruction waits or faults. -/
theorem step_eq (m : Machine) :
    m.step = (m.attempt.1, if m.attempt.1.movesOn then m.attempt.2 else { m.attempt.2 with pc := m.pc }) := by
  cases h : m.attempt with
  | mk outcome after =>
    cases outcome with
    | executed => exact step_of_executed h
    | awaitingKey => exact step_of_awaitingKey h
    | faulted f => exact step_of_faulted h
    | crashed message => exact step_of_crashed h

/-! ## Faults -/

/-- The instruction at the program counter cannot be done. -/
inductive Faults (m : Machine) : Fault → Prop
  | unknown : Instruction.decode m.fetch = .unknown m.fetch → Faults m (.unknownInstruction m.pc m.fetch)
  | underflow : m.fetch = 0x00EE → m.stack = [] → Faults m (.stackUnderflow m.pc m.fetch)
  | overflow {limit : Nat} : Word.kind m.fetch = 0x2 → m.config.stackLimit = some limit → limit ≤ m.stack.length →
      Faults m (.stackOverflow m.pc m.fetch limit)
  | random {cause : String} : Word.kind m.fetch = 0xC → m.random.next.1 = .failure cause →
      Faults m (.randomFailed m.pc m.fetch cause)

/-- A fault tells the address and the word of its instruction. -/
theorem Faults.place {m : Machine} {f : Fault} (h : m.Faults f) : f.address = m.pc ∧ f.word = m.fetch := by
  cases h <;> exact ⟨rfl, rfl⟩

/-- The step of an instruction that cannot be done. -/
theorem step_of_faults {m : Machine} {f : Fault} (h : m.Faults f) :
    m.step = (.faulted f, if f.lasts then m else m.ask) := by
  cases h with
  | unknown hd =>
    have ha : m.attempt = (.faulted (.unknownInstruction m.pc m.fetch), m.advance) := by rw [attempt, hd]; rfl
    exact (step_of_faulted ha :)
  | underflow hw hs =>
    rcases m.advance.ret_cases m.pc m.fetch with ⟨-, hr⟩ | ⟨top, rest, hs', -⟩
    · have ha : m.attempt = (.faulted (.stackUnderflow m.pc m.fetch), m.advance) := by
        rw [attempt, Instruction.decode_eq_ret_iff.mpr hw]; exact hr
      exact (step_of_faulted ha :)
    · rw [show m.advance.stack = m.stack from rfl, hs] at hs'
      cases hs'
  | @overflow limit hk hl hd =>
    rcases m.advance.call_cases m.pc m.fetch (Word.nnn m.fetch) with ⟨limit', hl', -, hc⟩ | ⟨hfree, -⟩
    · obtain rfl : limit = limit' := Option.some.inj (hl.symm.trans hl')
      have ha : m.attempt = (.faulted (.stackOverflow m.pc m.fetch limit), m.advance) := by
        rw [attempt, Instruction.decode_eq_call_iff.mpr ⟨hk, rfl⟩]; exact hc
      exact (step_of_faulted ha :)
    · exact absurd (hfree limit hl) (Nat.not_lt.mpr hd)
  | @random cause hk hn =>
    rcases m.advance.randomByte_cases m.pc m.fetch (Word.x m.fetch) (Word.nn m.fetch) with
      ⟨b, hb, -⟩ | ⟨cause', hc, hr⟩ | ⟨message, hc, -⟩
    · cases hn.symm.trans hb
    · cases hn.symm.trans hc
      have ha : m.attempt = (.faulted (.randomFailed m.pc m.fetch cause), m.advance.ask) := by
        rw [attempt, Instruction.decode_eq_random_iff.mpr ⟨hk, rfl, rfl⟩]; exact hr
      exact (step_of_faulted ha :)
    · cases hn.symm.trans hc

/-- What a lasting fault hangs on. -/
theorem Faults.congr {m m' : Machine} {f : Fault} (h : m.Faults f) (lasting : f.lasts = true)
    (hc : m'.config = m.config) (hm : m'.memory = m.memory) (hp : m'.pc = m.pc) (hs : m'.stack = m.stack) :
    m'.Faults f := by
  have hf : m'.fetch = m.fetch := by simp only [fetch, hm, hp]
  cases h with
  | unknown hd =>
    have hu : m'.Faults (.unknownInstruction m'.pc m'.fetch) := .unknown (by rw [hf]; exact hd)
    rwa [hp, hf] at hu
  | underflow hw he =>
    have hu : m'.Faults (.stackUnderflow m'.pc m'.fetch) := .underflow (hf.trans hw) (hs.trans he)
    rwa [hp, hf] at hu
  | @overflow limit hk hl hd =>
    have hu : m'.Faults (.stackOverflow m'.pc m'.fetch limit) :=
      .overflow (by rw [hf]; exact hk) (by rw [hc]; exact hl) (by rw [hs]; exact hd)
    rwa [hp, hf] at hu
  | random => cases lasting

/-! ## Waiting for a key -/

/-- The instruction at the program counter waits for a key while none is held. -/
def Waits (m : Machine) : Prop :=
  (Word.kind m.fetch = 0xF ∧ Word.nn m.fetch = 0x0A) ∧ m.keypad.mask = 0

/-- The step of an instruction that waits. -/
theorem step_of_waits {m : Machine} (h : m.Waits) : m.step = (.awaitingKey, m) := by
  obtain ⟨hw, hk⟩ := h
  rcases m.advance.waitKey_cases (Word.x m.fetch) with ⟨key, hl, -⟩ | ⟨-, hr⟩
  · cases (Keypad.lowest?_eq_none_iff.mpr hk).symm.trans hl
  · have ha : m.attempt = (.awaitingKey, m.advance) := by
      rw [attempt, Instruction.decode_eq_waitKey_iff.mpr ⟨hw, rfl⟩]; exact hr
    exact (step_of_awaitingKey ha :)

/-! ## The outcomes of a step -/

/-- An instruction executes unless it cannot be done, waits, or the random source breaks off. -/
theorem attempt_cases (m : Machine) :
    m.attempt.1 = .executed ∨ (∃ f, m.Faults f ∧ m.attempt.1 = .faulted f) ∨ (m.Waits ∧ m.attempt.1 = .awaitingKey) ∨
      ∃ message, m.attempt.1 = .crashed message := by
  unfold attempt
  cases hi : Instruction.decode m.fetch with
  | ret =>
    rcases m.advance.ret_cases m.pc m.fetch with ⟨hs, hr⟩ | ⟨top, rest, -, hr⟩ <;> rw [perform, hr]
    · exact .inr (.inl ⟨_, .underflow (Instruction.decode_eq_ret_iff.mp hi) hs, rfl⟩)
    · exact .inl rfl
  | call nnn =>
    rcases m.advance.call_cases m.pc m.fetch nnn with ⟨limit, hl, hd, hc⟩ | ⟨-, hc⟩ <;> rw [perform, hc]
    · exact .inr (.inl ⟨_, .overflow (Instruction.decode_eq_call_iff.mp hi).1 hl hd, rfl⟩)
    · exact .inl rfl
  | random x nn =>
    rcases m.advance.randomByte_cases m.pc m.fetch x nn with ⟨b, -, hr⟩ | ⟨cause, hn, hr⟩ | ⟨message, -, hr⟩ <;>
      rw [perform, hr]
    · exact .inl rfl
    · exact .inr (.inl ⟨_, .random (Instruction.decode_eq_random_iff.mp hi).1 hn, rfl⟩)
    · exact .inr (.inr (.inr ⟨message, rfl⟩))
  | waitKey x =>
    rcases m.advance.waitKey_cases x with ⟨key, -, hw⟩ | ⟨hl, hw⟩ <;> rw [perform, hw]
    · exact .inl rfl
    · have hk := Keypad.lowest?_eq_none_iff.mp hl
      exact .inr (.inr (.inl ⟨⟨(Instruction.decode_eq_waitKey_iff.mp hi).1, hk⟩, rfl⟩))
  | unknown w =>
    obtain rfl := Instruction.eq_of_decode_eq_unknown hi
    exact .inr (.inl ⟨_, .unknown hi, rfl⟩)
  | _ => exact .inl rfl

/-- A step faults just when it meets an instruction that cannot be done. -/
theorem step_faulted_iff {m : Machine} {f : Fault} : m.step.1 = .faulted f ↔ m.Faults f := by
  constructor
  · intro h
    rw [step_fst] at h
    rcases m.attempt_cases with h' | ⟨f', hf, h'⟩ | ⟨-, h'⟩ | ⟨message, h'⟩ <;> cases h.symm.trans h'
    exact hf
  · intro h
    rw [step_of_faults h]

/-- A step answers that it waits just when it meets an instruction that does. -/
theorem step_awaitingKey_iff {m : Machine} : m.step.1 = .awaitingKey ↔ m.Waits := by
  constructor
  · intro h
    rw [step_fst] at h
    rcases m.attempt_cases with h' | ⟨f', -, h'⟩ | ⟨hw, h'⟩ | ⟨message, h'⟩ <;> cases h.symm.trans h'
    exact hw
  · intro h
    rw [step_of_waits h]

end Machine

end Chip8
