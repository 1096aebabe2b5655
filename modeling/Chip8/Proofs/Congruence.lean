import Chip8.Proofs.Addresses
import Chip8.Proofs.Expiry
import Mathlib.Data.Nat.ModEq

/-!
# Addresses act modulo the size of memory

The program counter and the index register may be set to any sixteen bits, but a program sees them modulo 4096.

- `Machine.Congruent m m'`: the machines differ at most in these two, and there by multiples of 4096.
- Fetching, and reading and writing through the index register, come to the same on both. The counter moves on before an
  instruction is performed, and modulo 4096, so by then only the index register is left to differ
  (`perform_congruent`).
- A step leaves congruent machines, with the same outcome but for the address of a fault (`Congruent.step`). If it is
  executed, it leads into memory as long as the return addresses lie there (`ReturnsInside.step`), and they always do.
  `Machine.addresses_modulo` says this for every moment of a history.
-/

namespace Chip8

/-! ## Addresses -/

theorem wrapAdd_congr {a b : UInt16} (h : a.toNat ≡ b.toNat [MOD 0x1000]) (k : UInt16) : wrapAdd a k = wrapAdd b k := by
  refine UInt16.toNat_inj.mp ?_
  rw [toNat_wrapAdd, toNat_wrapAdd]
  exact h.add_right k.toNat

/-- Sums of sixteen bits go round at a multiple of 4096. -/
theorem toNat_add_modEq {a b : UInt16} (h : a.toNat ≡ b.toNat [MOD 0x1000]) (k : UInt16) :
    (a + k).toNat ≡ (b + k).toNat [MOD 0x1000] := by
  have round (c : UInt16) : (c + k).toNat ≡ c.toNat + k.toNat [MOD 0x1000] := by
    rw [UInt16.toNat_add]
    exact Nat.mod_mod_of_dvd _ (by decide)
  exact (round a).trans ((h.add_right _).trans (round b).symm)

namespace Memory

theorem read_congr (mem : Memory) {a b : Nat} (h : a ≡ b [MOD 0x1000]) : mem.read a = mem.read b := by
  have hmod : a % 4096 = b % 4096 := h
  simp only [read, hmod]

theorem write_congr (mem : Memory) {a b : Nat} (h : a ≡ b [MOD 0x1000]) (byte : UInt8) :
    mem.write a byte = mem.write b byte := by
  have hmod : a % 4096 = b % 4096 := h
  simp only [write, hmod]

end Memory

/-! ## Outcomes -/

/-- The same fault of the same word at another address. -/
def Fault.movedTo : Fault → UInt16 → Fault
  | .unknownInstruction _ word, a => .unknownInstruction a word
  | .stackUnderflow _ word, a => .stackUnderflow a word
  | .stackOverflow _ word limit, a => .stackOverflow a word limit
  | .randomFailed _ word cause, a => .randomFailed a word cause

/-- The outcomes are the same but for the address of a fault, which counts modulo 4096. -/
inductive Outcome.Congruent : Outcome → Outcome → Prop
  | executed : Congruent .executed .executed
  | awaitingKey : Congruent .awaitingKey .awaitingKey
  | faulted {f : Fault} {a : UInt16} : f.address.toNat ≡ a.toNat [MOD 0x1000] →
      Congruent (.faulted f) (.faulted (f.movedTo a))
  | crashed {message : String} : Congruent (.crashed message) (.crashed message)

theorem Outcome.Congruent.movesOn {o o' : Outcome} (h : o.Congruent o') : o'.movesOn = o.movesOn := by
  cases h <;> rfl

namespace Machine

/-! ## An instruction, and another index register -/

section Index

variable (m : Machine) {i : UInt16}

theorem skipIf_index (condition : Bool) :
    ({ m with i := i } : Machine).skipIf condition = { m.skipIf condition with i := i } := by
  cases condition <;> rfl

theorem arith_index (op : Arith) (x y : Nibble) :
    ({ m with i := i } : Machine).arith op x y = { m.arith op x y with i := i } := by
  cases op <;> rfl

theorem setRegsFrom_index (k : Nat) (bytes : List UInt8) :
    ({ m with i := i } : Machine).setRegsFrom k bytes = { m.setRegsFrom k bytes with i := i } := by
  induction bytes generalizing m k with
  | nil => rfl
  | cons b rest ih => exact ih (m.setReg (Fin.ofNat 16 k) b) (k + 1)

variable (hi : m.i.toNat ≡ i.toNat [MOD 0x1000])

include hi

theorem indexed_congr (k : Nat) : m.indexed k ≡ ({ m with i := i } : Machine).indexed k [MOD 0x1000] :=
  toNat_add_modEq hi _

theorem indexedBytes_congr (n : Nat) : ({ m with i := i } : Machine).indexedBytes n = m.indexedBytes n :=
  List.map_congr_left fun k _ => m.memory.read_congr (m.indexed_congr hi k).symm

theorem storeFrom_congr (k : Nat) (bytes : List UInt8) :
    ({ m with i := i } : Machine).storeFrom k bytes = { m.storeFrom k bytes with i := i } := by
  induction bytes generalizing m k with
  | nil => rfl
  | cons b rest ih =>
    have hwrite := m.memory.write_congr (m.indexed_congr hi k).symm b
    simp only [storeFrom]
    rw [hwrite]
    exact ih { m with memory := m.memory.write (m.indexed k) b } hi (k + 1)

theorem drawIndexed_congr (x y n : Nibble) :
    ({ m with i := i } : Machine).drawIndexed x y n = { m.drawIndexed x y n with i := i } := by
  simp only [drawIndexed, m.indexedBytes_congr hi]
  rfl

end Index

/-- What an instruction came to on two machines that go on with the same program counter. -/
def CongruentDone (r r' : Outcome × Machine) : Prop :=
  r.1.Congruent r'.1 ∧ ∃ i, r.2.i.toNat ≡ i.toNat [MOD 0x1000] ∧ r'.2 = { r.2 with i := i }

section Partial

variable (m : Machine) {i address address' : UInt16} (hi : m.i.toNat ≡ i.toNat [MOD 0x1000])
  (ha : address.toNat ≡ address'.toNat [MOD 0x1000]) (word : UInt16)

include hi

theorem storeFrom_congruent (bytes : List UInt8) :
    CongruentDone (.executed, m.storeFrom 0 bytes) (.executed, ({ m with i := i } : Machine).storeFrom 0 bytes) := by
  have hstore := m.storeFrom_congr hi 0 bytes
  obtain ⟨memory, h⟩ := m.storeFrom_eq 0 bytes
  rw [hstore, h]
  exact ⟨.executed, i, hi, rfl⟩

theorem waitKey_congruent (x : Nibble) : CongruentDone (m.waitKey x) (({ m with i := i } : Machine).waitKey x) := by
  simp only [waitKey]
  cases m.keypad.lowest? with
  | none => exact ⟨.awaitingKey, i, hi, rfl⟩
  | some key => exact ⟨.executed, i, hi, rfl⟩

include ha

theorem ret_congruent : CongruentDone (m.ret address word) (({ m with i := i } : Machine).ret address' word) := by
  unfold ret
  cases hs : m.stack with
  | nil => exact ⟨.faulted ha, i, hi, by simp only [hs]⟩
  | cons top rest => exact ⟨.executed, i, hi, rfl⟩

theorem call_congruent (target : UInt16) :
    CongruentDone (m.call address word target) (({ m with i := i } : Machine).call address' word target) := by
  simp only [call]
  cases m.config.stackLimit with
  | none => exact ⟨.executed, i, hi, rfl⟩
  | some limit =>
    by_cases hfull : limit ≤ m.stack.length
    · simp only [hfull, if_true]
      exact ⟨.faulted ha, i, hi, rfl⟩
    · simp only [hfull, if_false]
      exact ⟨.executed, i, hi, rfl⟩

theorem randomByte_congruent (x : Nibble) (mask : UInt8) :
    CongruentDone (m.randomByte address word x mask)
      (({ m with i := i } : Machine).randomByte address' word x mask) := by
  simp only [randomByte]
  cases m.random.next.1 with
  | byte b => exact ⟨.executed, i, hi, rfl⟩
  | failure cause => exact ⟨.faulted ha, i, hi, rfl⟩
  | crash message => exact ⟨.crashed, i, hi, rfl⟩

end Partial

/-- The same instruction at congruent addresses, on machines that differ in the index register only. -/
theorem perform_congruent (m : Machine) {i address address' : UInt16} (hi : m.i.toNat ≡ i.toNat [MOD 0x1000])
    (ha : address.toNat ≡ address'.toNat [MOD 0x1000]) (word : UInt16) (instruction : Instruction) :
    CongruentDone (m.perform address word instruction)
      (({ m with i := i } : Machine).perform address' word instruction) := by
  cases instruction with
  | setIndex nnn => exact ⟨.executed, nnn, .refl _, rfl⟩
  | addIndex x =>
    refine ⟨.executed, wrapAdd m.i (m.reg x).toUInt16, .refl _, ?_⟩
    rw [wrapAdd_congr hi]
    rfl
  | glyph x => exact ⟨.executed, Glyphs.address (m.reg x &&& 0x0F).toNat, .refl _, rfl⟩
  | draw x y n => exact ⟨.executed, i, hi, m.drawIndexed_congr hi x y n⟩
  | decimal x => exact m.storeFrom_congruent hi _
  | save x => exact m.storeFrom_congruent hi _
  | restore x =>
    obtain ⟨v, h⟩ := m.setRegsFrom_eq 0 (m.indexedBytes (x.val + 1))
    refine ⟨.executed, i, ?_, ?_⟩
    · rw [perform, h]
      exact hi
    · rw [perform, m.indexedBytes_congr hi]
      exact m.setRegsFrom_index 0 _
  | skipEqByte x nn | skipNeByte x nn | skipEq x y | skipNe x y | skipHeld x | skipNotHeld x =>
    refine ⟨.executed, i, ?_, m.skipIf_index _⟩
    simp only [perform, skipIf]
    split <;> exact hi
  | arith op x y =>
    refine ⟨.executed, i, ?_, m.arith_index op x y⟩
    obtain ⟨v, h⟩ := m.arith_eq op x y
    rw [perform, h]
    exact hi
  | ret => exact m.ret_congruent hi ha word
  | call nnn => exact m.call_congruent hi ha word nnn
  | random x nn => exact m.randomByte_congruent hi ha word x nn
  | waitKey x => exact m.waitKey_congruent hi x
  | unknown w => exact ⟨.faulted ha, i, hi, rfl⟩
  | jump | jumpPlus | clear | setByte | addByte | readDelay | setDelay | setSound => exact ⟨.executed, i, hi, rfl⟩

/-! ## One step -/

/-- The machines differ at most in the program counter and the index register, and there by multiples of 4096. -/
structure Congruent (m m' : Machine) : Prop where
  pc : m.pc.toNat ≡ m'.pc.toNat [MOD 0x1000]
  index : m.i.toNat ≡ m'.i.toNat [MOD 0x1000]
  rest : m' = { m with pc := m'.pc, i := m'.i }

namespace Congruent

variable {m m' : Machine}

/-- The second machine is the first one with two other registers. -/
theorem exists_eq (h : Congruent m m') :
    ∃ pc i, m' = { m with pc := pc, i := i } ∧ m.pc.toNat ≡ pc.toNat [MOD 0x1000] ∧ m.i.toNat ≡ i.toNat [MOD 0x1000] :=
  ⟨m'.pc, m'.i, h.rest, h.pc, h.index⟩

theorem fetch (h : Congruent m m') : m'.fetch = m.fetch := by
  obtain ⟨pc, i, rfl, hpc, -⟩ := h.exists_eq
  have hhigh := m.memory.read_congr hpc
  have hlow := m.memory.read_congr (toNat_add_modEq hpc 1)
  simp only [Machine.fetch, hhigh, hlow]

theorem attempt (h : Congruent m m') : CongruentDone m.attempt m'.attempt := by
  have hfetch := h.fetch
  obtain ⟨pc, i, rfl, hpc, hi⟩ := h.exists_eq
  have hadvance : ({ m with pc := pc, i := i } : Machine).advance = { m.advance with i := i } := by
    simp only [Machine.advance, wrapAdd_congr hpc]
  rw [Machine.attempt, Machine.attempt, hfetch, hadvance]
  exact m.advance.perform_congruent hi hpc m.fetch (.decode m.fetch)

/-- A step ends in the same way on both. If the program counter moves on, it moves on to the same address. -/
theorem step (h : Congruent m m') :
    m.step.1.Congruent m'.step.1 ∧ Congruent m.step.2 m'.step.2 ∧
      (m.step.1 = .executed → m'.step.2.pc = m.step.2.pc) := by
  obtain ⟨houtcome, i, hi, hafter⟩ := h.attempt
  rw [step_eq m, step_eq m', houtcome.movesOn, hafter]
  cases hmoves : m.attempt.1.movesOn with
  | true => exact ⟨houtcome, ⟨.refl _, hi, rfl⟩, fun _ => rfl⟩
  | false =>
    refine ⟨houtcome, ⟨h.pc, hi, rfl⟩, fun (he : m.attempt.1 = .executed) => ?_⟩
    rw [he] at hmoves
    cases hmoves

/-- Whatever else happens, happens to both. -/
theorem happen (h : Congruent m m') (e : Happening) : Congruent (m.happen e) (m'.happen e) := by
  cases e with
  | delay e | sound e =>
    obtain ⟨pc, i, rfl, hpc, hi⟩ := h.exists_eq
    exact ⟨hpc, hi, rfl⟩
  | change c =>
    cases c with
    | step => exact h.step.2.1
    | load program =>
      obtain ⟨pc, i, rfl, hpc, hi⟩ := h.exists_eq
      simp only [Machine.happen, change_load]
      split
      · exact ⟨.refl _, hi, rfl⟩
      · exact ⟨hpc, hi, rfl⟩
    | setPc a =>
      obtain ⟨pc, i, rfl, -, hi⟩ := h.exists_eq
      exact ⟨.refl _, hi, rfl⟩
    | setIndex a =>
      obtain ⟨pc, i, rfl, hpc, -⟩ := h.exists_eq
      exact ⟨hpc, .refl _, rfl⟩
    | setReg | draw | clear | setKeys | setDelay | setSound | tick =>
      obtain ⟨pc, i, rfl, hpc, hi⟩ := h.exists_eq
      exact ⟨hpc, hi, rfl⟩

theorem after (h : Congruent m m') (history : List Happening) : Congruent (m.after history) (m'.after history) := by
  induction history generalizing m m' with
  | nil => exact h
  | cons e rest ih => exact ih (h.happen e)

end Congruent

/-! ## Return addresses -/

/-- All return addresses lie in memory. -/
def ReturnsInside (m : Machine) : Prop := ∀ a ∈ m.stack, a.toNat < 0x1000

namespace ReturnsInside

variable {m : Machine}

/-- A step keeps return addresses in memory, and if it is executed, it leads there. -/
theorem step (h : ReturnsInside m) : ReturnsInside m.step.2 ∧ (m.step.1 = .executed → m.step.2.pc.toNat < 0x1000) := by
  obtain ⟨-, hcontrol⟩ := m.advance.perform_control m.pc m.fetch (.decode m.fetch)
  have hadvance : m.advance.pc.toNat < 0x1000 := wrapAdd_lt _ _
  have hreturns : ReturnsInside m.advance := h
  obtain ⟨hpc, hreturn⟩ := hcontrol.inside hadvance hreturns fun _ => Instruction.address_lt_of_decode
  refine ⟨?_, fun he => ?_⟩
  · rcases m.step_snd with e | e <;> rw [e] <;> exact hreturn
  · rw [step_snd_of_executed he]
    exact hpc

theorem happen (h : ReturnsInside m) (e : Happening) : ReturnsInside (m.happen e) := by
  cases e with
  | delay e | sound e => exact h
  | change c =>
    cases c with
    | step => exact h.step.1
    | load program =>
      rw [Machine.happen, change_load]
      split <;> exact h
    | setPc | setIndex | setReg | draw | clear | setKeys | setDelay | setSound | tick => exact h

theorem after (h : ReturnsInside m) (history : List Happening) : ReturnsInside (m.after history) := by
  induction history generalizing m with
  | nil => exact h
  | cons e rest ih => exact ih (h.happen e)

end ReturnsInside

/-! ## Every moment of a history -/

/-- The next steps of two congruent machines. -/
structure StepAlike (m m' : Machine) : Prop where
  congruent : Congruent m m'
  outcome : m.step.1.Congruent m'.step.1
  after : Congruent m.step.2 m'.step.2
  pc_eq : m.step.1 = .executed → m'.step.2.pc = m.step.2.pc
  pc_lt : m.step.1 = .executed → m.step.2.pc.toNat < 0x1000

/-- **Addresses act modulo 4096.** Return addresses always lie in memory. Where they do, two machines that differ by
multiples of 4096 in the program counter and the index register step alike after every history, and executed steps lead
to the same address in memory. -/
theorem addresses_modulo :
    (∀ (config : Config) (random : RandomSource) (history : List Happening),
      ReturnsInside ((initial config random).after history)) ∧
    ∀ (m m' : Machine), ReturnsInside m → Congruent m m' →
      ∀ history : List Happening, StepAlike (m.after history) (m'.after history) := by
  refine ⟨fun config random history => ?_, fun m m' inside h history => ?_⟩
  · have hnone : ReturnsInside (initial config random) := fun a ha => nomatch ha
    exact hnone.after history
  · obtain ⟨houtcome, hafter, hpc⟩ := (h.after history).step
    exact ⟨h.after history, houtcome, hafter, hpc, (inside.after history).step.2⟩

/-- A machine in a subroutine that writes three digits across the end of memory and returns to the last word. -/
def writesAcrossEnd : Machine :=
  { initial Config.standard (.scripted []) with
    memory := Memory.initial.writeMany 0x200 [0xF0, 0x33, 0x00, 0xEE]
    v := (Vector.replicate 16 0).set 0 123
    i := 0x0FFF
    stack := [0x0FFE] }

/-- The same machine with both registers set beyond memory. -/
def writesAcrossEndToo : Machine := { writesAcrossEnd with pc := 0xF200, i := 0xFFFF }

theorem addresses_modulo_writesAcrossEnd :
    ReturnsInside writesAcrossEnd ∧ Congruent writesAcrossEnd writesAcrossEndToo ∧
      (∀ history, StepAlike (writesAcrossEnd.after history) (writesAcrossEndToo.after history)) ∧
      (writesAcrossEndToo.after [.change .step]).memory.readMany 0xFFF 3 = [1, 2, 3] ∧
      (writesAcrossEndToo.after [.change .step, .change .step]).step.1 =
        .faulted (.unknownInstruction 0x0FFE 0x0001) := by
  have inside : ReturnsInside writesAcrossEnd := by
    intro a ha
    obtain rfl := List.mem_singleton.mp ha
    decide
  have congruent : Congruent writesAcrossEnd writesAcrossEndToo := ⟨rfl, rfl, rfl⟩
  exact ⟨inside, congruent, addresses_modulo.2 _ _ inside congruent, by decide +kernel, by decide +kernel⟩

end Machine

end Chip8
