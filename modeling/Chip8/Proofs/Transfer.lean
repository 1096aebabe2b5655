import Chip8.Proofs.Congruence
import Chip8.Proofs.Loading

/-!
# Registers and memory

The bytes that `Fx33` and `Fx55` store and those that `Fx65` loads stand at the index register and behind it. The
addresses have sixteen bits and memory counts them modulo its size, so they are the addresses of `Memory.writeMany`
and `Memory.readMany` (`Machine.storeFrom_eq_writeMany`, `Machine.indexedBytes_eq_readMany`). Bytes that fit into memory
are read back as they were written (`Memory.readMany_writeMany`), and bytes that were read may be written back
(`Memory.writeMany_readMany`).

So registers that were saved are restored whatever became of them in between, and memory is what it was if registers are
saved that were just restored (`Machine.save_restore`). Restoring the digits of `Vx` puts them into `V0`, `V1` and `V2`
(`Machine.decimal_restore`).
-/

namespace Chip8

/-! ## Reading what was written, and writing what was read -/

namespace Memory

theorem readMany_succ (m : Memory) (a len : Nat) : m.readMany a (len + 1) = m.read a :: m.readMany (a + 1) len := by
  simp only [readMany, List.range_succ_eq_map, List.map_cons, List.map_map, Nat.add_zero]
  refine congrArg _ (List.map_congr_left fun k _ => ?_)
  rw [Function.comp_apply, Nat.succ_eq_add_one, Nat.add_comm k 1, ← Nat.add_assoc]

/-- Bytes that fit into memory are read back. -/
theorem readMany_writeMany (m : Memory) (a : Nat) (bytes : List UInt8) (fits : bytes.length ≤ 4096) :
    (m.writeMany a bytes).readMany a bytes.length = bytes := by
  refine List.ext_getElem (by simp [readMany]) fun k _ hk => ?_
  simp only [readMany, List.getElem_map, List.getElem_range]
  exact m.read_writeMany a bytes fits hk

theorem write_read (m : Memory) (a : Nat) : m.write a (m.read a) = m := by
  rw [write, read, Vector.set_getElem_self]

/-- Bytes that were read may be written back. -/
theorem writeMany_readMany (m : Memory) (a len : Nat) : m.writeMany a (m.readMany a len) = m := by
  induction len generalizing a with
  | zero => rfl
  | succ len ih => rw [readMany_succ, writeMany, write_read, ih]

end Memory

namespace Machine

/-! ## Memory at the index register -/

section Index

variable (m : Machine)

theorem indexedBytes_eq_readMany (n : Nat) : m.indexedBytes n = m.memory.readMany m.i.toNat n :=
  List.map_congr_left fun k _ => m.memory.read_congr (m.indexed_mod k)

theorem memory_storeFrom (k : Nat) (bytes : List UInt8) :
    (m.storeFrom k bytes).memory = m.memory.writeMany (m.i.toNat + k) bytes := by
  induction bytes generalizing m k with
  | nil => rfl
  | cons b rest ih =>
    have hplace := m.memory.write_congr (m.indexed_mod k) b
    rw [storeFrom, ih, Memory.writeMany, hplace]
    rfl

theorem storeFrom_eq_writeMany (bytes : List UInt8) :
    m.storeFrom 0 bytes = { m with memory := m.memory.writeMany m.i.toNat bytes } := by
  have hmemory := m.memory_storeFrom 0 bytes
  obtain ⟨memory, h⟩ := m.storeFrom_eq 0 bytes
  rw [h] at hmemory ⊢
  rw [show memory = m.memory.writeMany m.i.toNat bytes from hmemory]

/-! ## Runs of registers -/

theorem length_firstRegs (x : Nibble) : (m.firstRegs x).length = x.val + 1 := by
  rw [firstRegs, List.length_take, Vector.length_toList]
  exact Nat.min_eq_left x.isLt

theorem getElem_firstRegs (x : Nibble) {k : Nat} (hk : k < (m.firstRegs x).length) (hreg : k < 16) :
    (m.firstRegs x)[k] = m.reg ⟨k, hreg⟩ := by
  simp only [firstRegs, List.getElem_take, Vector.getElem_toList]
  rfl

theorem getD_firstRegs (x y : Nibble) (d : UInt8) : (m.firstRegs x).getD y.val d = if y ≤ x then m.reg y else d := by
  have hlength := m.length_firstRegs x
  rw [List.getD_eq_getElem?_getD]
  split
  · next h =>
    have hplace : y.val < (m.firstRegs x).length := by
      rw [hlength]
      exact Nat.lt_succ_of_le h
    rw [List.getElem?_eq_getElem hplace, Option.getD_some, m.getElem_firstRegs x hplace y.isLt]
  · next h =>
    rw [List.getElem?_eq_none (by rw [hlength]; exact Nat.lt_of_not_le h)]
    rfl

/-- Bytes put into the registers from `Vk` on are in them, and the other registers keep their values. -/
theorem reg_setRegsFrom_of_fits (k : Nat) (bytes : List UInt8) (fits : k + bytes.length ≤ 16) (y : Nibble) :
    (m.setRegsFrom k bytes).reg y = if k ≤ y.val then bytes.getD (y.val - k) (m.reg y) else m.reg y := by
  induction bytes generalizing m k with
  | nil => simp [setRegsFrom]
  | cons b rest ih =>
    rw [List.length_cons] at fits
    have hk : (Fin.ofNat 16 k).val = k := Nat.mod_eq_of_lt (by omega)
    have hfirst : (m.setReg (Fin.ofNat 16 k) b).reg y = if k = y.val then b else m.reg y := by
      simp only [reg_setReg, Fin.ext_iff, hk]
    rw [setRegsFrom, ih _ (k + 1) (by omega), hfirst]
    rcases Nat.lt_trichotomy k y.val with hlt | heq | hgt
    · -- a register behind the first one
      have hplace : y.val - k = y.val - (k + 1) + 1 := by omega
      rw [if_pos (Nat.succ_le_of_lt hlt), if_neg (Nat.ne_of_lt hlt), if_pos (Nat.le_of_lt hlt), hplace,
        List.getD_cons_succ]
    · rw [if_neg (by omega), if_pos heq, if_pos (Nat.le_of_eq heq), heq, Nat.sub_self, List.getD_cons_zero]
    · rw [if_neg (by omega), if_neg (Nat.ne_of_gt hgt), if_neg (by omega)]

theorem reg_setRegsFrom_zero {bytes : List UInt8} (fits : bytes.length ≤ 16) (y : Nibble) :
    (m.setRegsFrom 0 bytes).reg y = bytes.getD y.val (m.reg y) := by
  rw [reg_setRegsFrom_of_fits m 0 bytes (by omega), if_pos (Nat.zero_le _), Nat.sub_zero]

theorem memory_setRegsFrom (k : Nat) (bytes : List UInt8) : (m.setRegsFrom k bytes).memory = m.memory := by
  obtain ⟨v, h⟩ := m.setRegsFrom_eq k bytes
  rw [h]

/-- As many registers as bytes were put into them hold these bytes. -/
theorem firstRegs_setRegsFrom {x : Nibble} {bytes : List UInt8} (h : bytes.length = x.val + 1) :
    (m.setRegsFrom 0 bytes).firstRegs x = bytes := by
  refine List.ext_getElem (by rw [length_firstRegs, h]) fun k hk hk' => ?_
  have hx := x.isLt
  rw [getElem_firstRegs _ x hk (by omega), reg_setRegsFrom_zero m (by omega), List.getD_eq_getElem?_getD,
    List.getElem?_eq_getElem hk', Option.getD_some]

end Index

/-! ## Instructions performed by themselves -/

/-- The instruction takes `m` to `after`, whatever word it stands for and wherever that stands. -/
def Performed (i : Instruction) (m after : Machine) : Prop :=
  ∀ address word, m.advance.perform address word i = (.executed, after)

section Performed

variable (m : Machine)

theorem performed_save (x : Nibble) :
    Performed (.save x) m { m.advance with memory := m.memory.writeMany m.i.toNat (m.firstRegs x) } := by
  intro address word
  rw [perform, storeFrom_eq_writeMany]
  rfl

theorem performed_decimal (x : Nibble) :
    Performed (.decimal x) m
      { m.advance with memory := m.memory.writeMany m.i.toNat (decimalDigits (m.reg x)) } := by
  intro address word
  rw [perform, storeFrom_eq_writeMany]
  rfl

theorem performed_restore (x : Nibble) :
    Performed (.restore x) m (m.advance.setRegsFrom 0 (m.memory.readMany m.i.toNat (x.val + 1))) := by
  intro address word
  rw [perform, indexedBytes_eq_readMany]
  rfl

/-- Registers are restored from as many bytes as were stored. -/
theorem performed_restore_written {x : Nibble} {bytes : List UInt8} (h : bytes.length = x.val + 1) :
    Performed (.restore x) { m with memory := m.memory.writeMany m.i.toNat bytes }
      (({ m.advance with memory := m.memory.writeMany m.i.toNat bytes } : Machine).setRegsFrom 0 bytes) := by
  have hx := x.isLt
  have hread := m.memory.readMany_writeMany m.i.toNat bytes (by omega)
  have hrestore := performed_restore { m with memory := m.memory.writeMany m.i.toNat bytes } x
  rw [h] at hread
  simp only [hread] at hrestore
  exact hrestore

end Performed

/-- Two instructions on, nothing has changed but registers and the `n` bytes at the index register. -/
structure Within (n : Nat) (m after : Machine) : Prop where
  memory (a : Nat) : (∀ k < n, a % 4096 ≠ (m.i.toNat + k) % 4096) → after.memory.read a = m.memory.read a
  rest : after = { m with pc := wrapAdd (wrapAdd m.pc 2) 2, memory := after.memory, v := after.v }

theorem within_setRegsFrom (m : Machine) (v : Vector UInt8 16) (bytes : List UInt8) :
    Within bytes.length m
      (({ m.advance.advance with v := v, memory := m.memory.writeMany m.i.toNat bytes } : Machine).setRegsFrom 0
        bytes) := by
  obtain ⟨v', h⟩ :=
    ({ m.advance.advance with v := v, memory := m.memory.writeMany m.i.toNat bytes } : Machine).setRegsFrom_eq 0 bytes
  rw [h]
  refine ⟨fun a ha => m.memory.read_writeMany_of_ne _ _ fun k hk => Ne.symm (ha k hk), rfl⟩

/-! ## Saving and restoring -/

/-- **Saved registers are restored.** Whatever all registers hold in between, those up to `Vx` have their values back,
the others keep the new ones, and only the bytes at the index register were written. The other way round, saving what
was just restored leaves the memory as it is. -/
theorem save_restore (m : Machine) (x : Nibble) :
    (∀ v : Vector UInt8 16, ∃ saved after,
      Performed (.save x) m saved ∧ Performed (.restore x) { saved with v := v } after ∧
        (∀ y, after.reg y = if y ≤ x then m.reg y else v.get y) ∧
        (∀ y ≤ x, after.memory.read (m.i.toNat + y.val) = m.reg y) ∧ Within (x.val + 1) m after) ∧
      ∃ restored after, Performed (.restore x) m restored ∧ Performed (.save x) restored after ∧
        after = { m with pc := wrapAdd (wrapAdd m.pc 2) 2, v := restored.v } := by
  have hx := x.isLt
  have hlength := m.length_firstRegs x
  constructor
  · intro v
    have hwithin := m.within_setRegsFrom v (m.firstRegs x)
    rw [hlength] at hwithin
    refine ⟨_, _, m.performed_save x, performed_restore_written { m.advance with v := v } hlength, ?_, ?_, hwithin⟩
    · intro y
      rw [reg_setRegsFrom_zero _ (by omega), getD_firstRegs]
      rfl
    · intro y h
      have hplace : y.val < (m.firstRegs x).length := by
        rw [hlength]
        exact Nat.lt_succ_of_le h
      rw [memory_setRegsFrom, ← m.getElem_firstRegs x hplace y.isLt]
      exact m.memory.read_writeMany _ _ (by omega) hplace
  · -- the registers hold the bytes that stand in memory already
    have hregs : (m.advance.setRegsFrom 0 (m.memory.readMany m.i.toNat (x.val + 1))).firstRegs x =
        m.memory.readMany m.i.toNat (x.val + 1) :=
      m.advance.firstRegs_setRegsFrom (by simp [Memory.readMany])
    refine ⟨_, _, m.performed_restore x, performed_save _ x, ?_⟩
    rw [hregs]
    obtain ⟨v, h⟩ := m.advance.setRegsFrom_eq 0 (m.memory.readMany m.i.toNat (x.val + 1))
    rw [h]
    simp only [advance, Memory.writeMany_readMany]

/-- A machine whose index register is at the last address, so that all bytes but the first wrap around to the glyphs. -/
def atLastAddress : Machine :=
  { (initial Config.standard (.scripted [])).setReg 1 254 with i := 0xFFFF }

theorem save_restore_atLastAddress :
    ∃ saved after, Performed (.save 1) atLastAddress saved ∧
      Performed (.restore 1) { saved with v := Vector.replicate 16 7 } after ∧
      after.reg 0 = 0 ∧ after.reg 1 = 254 ∧ after.reg 2 = 7 ∧
      after.memory.read 0 = 254 ∧ after.memory.read 1 = 0x90 := by
  obtain ⟨saved, after, hsaved, hrestored, hregs, hstored, hwithin⟩ :=
    (save_restore atLastAddress 1).1 (Vector.replicate 16 7)
  refine ⟨saved, after, hsaved, hrestored, hregs 0, hregs 1, hregs 2, ?_, ?_⟩
  · rw [after.memory.read_congr (show 0 ≡ atLastAddress.i.toNat + (1 : Nibble).val [MOD 0x1000] from rfl)]
    exact hstored 1 (Nat.le_refl _)
  · exact hwithin.memory 1 (by decide)

/-! ## Decimal digits -/

/-- A byte is what its three decimal digits make. -/
theorem decimalDigits_value (b : UInt8) :
    (b / 100 ≤ 9 ∧ b / 10 % 10 ≤ 9 ∧ b % 10 ≤ 9) ∧
      100 * (b / 100).toNat + 10 * (b / 10 % 10).toNat + (b % 10).toNat = b.toNat := by
  have hb := b.toNat_lt
  simp only [UInt8.le_iff_toNat_le, UInt8.toNat_div, UInt8.toNat_mod, UInt8.reduceToNat]
  omega

/-- **The digits of `Vx` are put into `V0`, `V1` and `V2`**, also where one of these is `Vx`. -/
theorem decimal_restore (m : Machine) (x : Nibble) :
    ∃ written after, Performed (.decimal x) m written ∧ Performed (.restore 2) written after ∧
      (after.reg 0 ≤ 9 ∧ after.reg 1 ≤ 9 ∧ after.reg 2 ≤ 9) ∧
      100 * (after.reg 0).toNat + 10 * (after.reg 1).toNat + (after.reg 2).toNat = (m.reg x).toNat ∧
      (∀ y, 2 < y → after.reg y = m.reg y) ∧ Within 3 m after := by
  obtain ⟨hdigits, hvalue⟩ := decimalDigits_value (m.reg x)
  have hlength : (decimalDigits (m.reg x)).length = 3 := rfl
  refine ⟨_, _, m.performed_decimal x, performed_restore_written m.advance hlength, ?_⟩
  have hwithin := m.within_setRegsFrom m.v (decimalDigits (m.reg x))
  simp only [reg_setRegsFrom_zero _ (show (decimalDigits (m.reg x)).length ≤ 16 by rw [hlength]; decide)]
  refine ⟨hdigits, hvalue, fun y hy => ?_, hwithin⟩
  rw [List.getD_eq_getElem?_getD, List.getElem?_eq_none (by rw [hlength]; exact hy)]
  rfl

theorem decimal_restore_atLastAddress :
    ∃ written after, Performed (.decimal 1) atLastAddress written ∧ Performed (.restore 2) written after ∧
      100 * (after.reg 0).toNat + 10 * (after.reg 1).toNat + (after.reg 2).toNat = 254 ∧
      after.memory.read 2 = 0x90 := by
  obtain ⟨written, after, hwritten, hrestored, -, hvalue, -, hwithin⟩ := decimal_restore atLastAddress 1
  refine ⟨written, after, hwritten, hrestored, hvalue, ?_⟩
  exact hwithin.memory 2 (by decide)

end Machine

end Chip8
