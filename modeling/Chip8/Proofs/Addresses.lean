import Chip8.Proofs.Control
import Chip8.Proofs.History

/-!
# Addresses stay within memory

The program counter, the index register and the return addresses hold sixteen bits, but memory has twelve bits of
addresses. `Machine.Bounded` says that all of them lie in memory and that the stack keeps to its limit. Every
instruction keeps it (`Control.bounded`), so does whatever else may happen to a machine (`bounded_invariant`), and a
machine with accepted settings starts with it: it holds after every history (`Runner.bounded_after`).
-/

namespace Chip8

theorem wrapAdd_lt (a b : UInt16) : (wrapAdd a b).toNat < 0x1000 := by
  rw [toNat_wrapAdd]
  exact Nat.mod_lt _ (by decide)

theorem Glyphs.address_lt {digit : Nat} (h : digit < 16) : (address digit).toNat < 0x1000 := by
  have hs : digit * height < 0x1000 := Nat.lt_of_lt_of_le (Nat.mul_lt_mul_of_pos_right h (by decide)) (by decide)
  rw [address, UInt16.toNat_ofNat_of_lt' (Nat.lt_trans hs (by decide))]
  exact hs

/-! ## Accepted settings -/

namespace Config

/-- A program is loaded behind the glyphs and at a word, the clocks go on, and a call is possible. -/
structure Sound (c : Config) : Prop where
  aligned : c.programOffset.toNat % 2 = 0
  above : 80 ≤ c.programOffset.toNat
  below : c.programOffset.toNat < 4096
  cpu : c.cpuPeriod ≠ .zero
  timer : c.timerPeriod ≠ .zero
  stack : c.stackLimit ≠ some 0

theorem ite_some_eq_none_iff {α : Type} {p : Prop} [Decidable p] {e : α} {rest : Option α} :
    (if p then some e else rest) = none ↔ ¬ p ∧ rest = none := by
  split
  · next h => simp [h]
  · next h => simp [h]

/-- The settings that are accepted are the sound ones. -/
theorem validate_eq_ok_iff {c : Config} : c.validate = .ok () ↔ c.Sound := by
  have hnone : c.validate = .ok () ↔ c.error? = none := by
    unfold validate
    cases c.error? <;> simp
  rw [hnone]
  simp only [error?, ite_some_eq_none_iff]
  simp only [Glyphs.size, Memory.size, and_true]
  constructor
  · rintro ⟨habove, hbelow, haligned, hcpu, htimer, hstack⟩
    exact ⟨by omega, by omega, by omega, hcpu, htimer, hstack⟩
  · rintro ⟨haligned, habove, hbelow, hcpu, htimer, hstack⟩
    exact ⟨by omega, by omega, by omega, hcpu, htimer, hstack⟩

/-- Accepted settings load a program into memory. -/
theorem offset_lt {c : Config} (accepted : c.validate = .ok ()) : c.programOffset.toNat < 0x1000 :=
  (validate_eq_ok_iff.mp accepted).below

end Config

namespace Machine

/-- All addresses lie in memory, and the stack keeps to its limit. -/
structure Bounded (c : Config) (m : Machine) : Prop where
  config_eq : m.config = c
  pc_lt : m.pc.toNat < 0x1000
  index_lt : m.i.toNat < 0x1000
  return_lt : ∀ a ∈ m.stack, a.toNat < 0x1000
  depth_le : ∀ limit, c.stackLimit = some limit → m.stack.length ≤ limit

variable {c : Config} {m : Machine}

theorem bounded_initial (accepted : c.validate = .ok ()) (random : RandomSource) : Bounded c (initial c random) where
  config_eq := rfl
  pc_lt := Config.offset_lt accepted
  index_lt := Nat.zero_lt_succ _
  return_lt _ ha := nomatch ha
  depth_le limit _ := Nat.zero_le limit

/-! ## One step -/

theorem Bounded.advance (h : Bounded c m) : Bounded c m.advance :=
  { h with pc_lt := wrapAdd_lt _ _ }

/-- An instruction whose address lies in memory leads there, and leaves return addresses that lie there. -/
theorem Control.inside {i : Instruction} {pc index : UInt16} {stack : List UInt16} (hpc : m.pc.toNat < 0x1000)
    (hs : ∀ a ∈ m.stack, a.toNat < 0x1000) (ha : ∀ a, i.address? = some a → a.toNat < 0x1000)
    (hi : Control m i pc index stack) : pc.toNat < 0x1000 ∧ ∀ a ∈ stack, a.toNat < 0x1000 := by
  cases hi with
  | keep | setIndex | addIndex | glyph => exact ⟨hpc, hs⟩
  | skip => exact ⟨wrapAdd_lt _ _, hs⟩
  | @ret top rest hstack =>
    -- what is popped was pushed before
    rw [hstack] at hs
    exact ⟨hs _ (.head _), fun a ha' => hs a (.tail _ ha')⟩
  | jump => exact ⟨ha _ rfl, hs⟩
  | jumpPlus => exact ⟨wrapAdd_lt _ _, hs⟩
  | call =>
    refine ⟨ha _ rfl, fun a ha' => ?_⟩
    rcases List.mem_cons.mp ha' with rfl | hm
    · exact hpc
    · exact hs a hm

/-- Every instruction whose address lies in memory keeps all addresses there. -/
theorem Control.bounded {i : Instruction} {pc index : UInt16} {stack : List UInt16} (h : Bounded c m)
    (ha : ∀ a, i.address? = some a → a.toNat < 0x1000) (hi : Control m i pc index stack) :
    pc.toNat < 0x1000 ∧ index.toNat < 0x1000 ∧ (∀ a ∈ stack, a.toNat < 0x1000) ∧
      ∀ limit, c.stackLimit = some limit → stack.length ≤ limit := by
  obtain ⟨hpc, hreturn⟩ := hi.inside h.pc_lt h.return_lt ha
  cases hi with
  | keep | skip | jump | jumpPlus => exact ⟨hpc, h.index_lt, hreturn, h.depth_le⟩
  | @ret top rest hs =>
    refine ⟨hpc, h.index_lt, hreturn, fun limit hl => ?_⟩
    have hd := h.depth_le limit hl
    rw [hs, List.length_cons] at hd
    omega
  | call room =>
    refine ⟨hpc, h.index_lt, hreturn, fun limit hl => ?_⟩
    rw [← h.config_eq] at hl
    exact room limit hl
  | setIndex => exact ⟨hpc, ha _ rfl, hreturn, h.depth_le⟩
  | addIndex => exact ⟨hpc, wrapAdd_lt _ _, hreturn, h.depth_le⟩
  | glyph => exact ⟨hpc, Glyphs.address_lt (Nibble.low _).isLt, hreturn, h.depth_le⟩

theorem Bounded.step (h : Bounded c m) : Bounded c m.step.2 := by
  obtain ⟨hc, hi⟩ := m.advance.perform_control m.pc m.fetch (.decode m.fetch)
  obtain ⟨hpc, hindex, hreturn, hdepth⟩ :=
    hi.bounded h.advance fun _ => Instruction.address_lt_of_decode
  have after : Bounded c m.attempt.2 := ⟨hc.trans h.config_eq, hpc, hindex, hreturn, hdepth⟩
  rcases m.step_snd with e | e <;> rw [e]
  · exact after
  · exact { after with pc_lt := h.pc_lt }

/-! ## Edits -/

theorem Bounded.load {loaded : Machine} {program : List UInt8} (hc : c.programOffset.toNat < 0x1000)
    (h : Bounded c m) (hl : m.load program = .ok loaded) : Bounded c loaded := by
  unfold Machine.load at hl
  dsimp only at hl
  split at hl
  · cases hl
    have hpc : m.config.programOffset.toNat < 0x1000 := by rw [h.config_eq]; exact hc
    exact { h with pc_lt := hpc }
  · cases hl

theorem Bounded.write {target : Debugger.Target} {value : UInt16} (h : Bounded c m)
    (hv : value.toNat ≤ target.limit) : Bounded c (target.write value m) := by
  cases target with
  | v x => exact { h with }
  | i => exact { h with index_lt := Nat.lt_succ_of_le hv }
  | pc => exact { h with pc_lt := Nat.lt_succ_of_le hv }

/-- All addresses stay in memory whatever is done to a machine. -/
theorem bounded_invariant (accepted : c.validate = .ok ()) : Invariant c (Bounded c) where
  config_eq h := h.config_eq
  step h := h.step
  setKeys _ h := { h with }
  tick h := { h with }
  load h := h.load (Config.offset_lt accepted)
  write h := h.write

end Machine

/-- Accepted settings make a machine if its timers get their threads. From it on all addresses stay in memory and the
stack keeps to its limit, whatever happens to the runner. -/
theorem Runner.bounded_after {config : Config} (accepted : config.validate = .ok ()) (random : RandomSource) :
    (∃ m, Machine.create config .started random = .ok m) ∧
      ∀ threads m, Machine.create config threads random = .ok m →
        ∀ history, Machine.Bounded config ((Runner.ofMachine m).after history).machine := by
  refine ⟨⟨_, Machine.create_eq_ok_iff.mpr ⟨accepted, rfl, rfl⟩⟩, fun threads m h history => ?_⟩
  obtain ⟨-, -, rfl⟩ := Machine.create_eq_ok_iff.mp h
  exact (Machine.bounded_invariant accepted).after history (Machine.bounded_initial accepted random)

/-- The settings of a machine whose calls are at most sixteen deep. -/
theorem Runner.bounded_after_sixteen :
    ({ Config.standard with stackLimit := some 16 } : Config).validate = .ok () ∧
      ∃ m, Machine.create { Config.standard with stackLimit := some 16 } .started (.scripted []) = .ok m ∧
        ∀ history, Machine.Bounded { Config.standard with stackLimit := some 16 }
          ((Runner.ofMachine m).after history).machine := by
  have accepted : ({ Config.standard with stackLimit := some 16 } : Config).validate = .ok () := rfl
  obtain ⟨⟨m, hcreate⟩, hbounded⟩ := bounded_after accepted (.scripted [])
  exact ⟨accepted, m, hcreate, hbounded _ m hcreate⟩

end Chip8
