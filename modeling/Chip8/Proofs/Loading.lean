import Chip8.Proofs.Addresses
import Chip8.Proofs.Subroutine

/-!
# Loading a program

A program is loaded if it fits between the program offset and the end of memory, and refused otherwise. Its bytes go to
the addresses from the offset on and to no others (`Memory.read_writeMany`, `Memory.read_writeMany_of_ne`), and next to
them only the program counter changes (`Machine.Loaded`). The room is that of the settings, which nothing changes
(`Machine.Reaches.config_eq`). So with accepted settings loading is exact in every state of the machine, however many
programs were loaded before (`Machine.load_exact`).
-/

namespace Chip8

/-! ## Bytes written one after the other -/

namespace Memory

/-- An address that no byte is written to keeps its byte. -/
theorem read_writeMany_of_ne (m : Memory) (a : Nat) (bytes : List UInt8) {c : Nat}
    (h : ∀ k < bytes.length, (a + k) % 4096 ≠ c % 4096) : (m.writeMany a bytes).read c = m.read c := by
  induction bytes generalizing m a with
  | nil => rfl
  | cons b rest ih =>
    have hfirst : a % 4096 ≠ c % 4096 := h 0 (Nat.succ_pos _)
    have hrest : ∀ k < rest.length, (a + 1 + k) % 4096 ≠ c % 4096 := by
      intro k hk
      rw [Nat.add_right_comm]
      exact h (k + 1) (Nat.succ_lt_succ hk)
    rw [writeMany, ih _ _ hrest, read_write, if_neg hfirst]

/-- Bytes that fit into memory are read back. -/
theorem read_writeMany (m : Memory) (a : Nat) (bytes : List UInt8) (fits : bytes.length ≤ 4096) {k : Nat}
    (hk : k < bytes.length) : (m.writeMany a bytes).read (a + k) = bytes[k] := by
  induction bytes generalizing m a k with
  | nil => cases hk
  | cons b rest ih =>
    rw [List.length_cons] at fits
    cases k with
    | zero =>
      -- the other bytes go elsewhere
      have hrest : ∀ j < rest.length, (a + 1 + j) % 4096 ≠ a % 4096 := fun j hj => by omega
      show ((m.write a b).writeMany (a + 1) rest).read a = b
      rw [read_writeMany_of_ne _ _ _ hrest, read_write, if_pos rfl]
    | succ k =>
      have hplace : a + (k + 1) = a + 1 + k := by omega
      rw [writeMany, hplace, ih _ _ (by omega) (Nat.lt_of_succ_lt_succ hk)]
      rfl

end Memory

namespace Machine

/-! ## States of a machine -/

/-- The machine becomes `m` by steps and edits, or in a runner. -/
def Reaches (new m : Machine) : Prop :=
  (∃ changes, m = new.changed changes) ∨ ∃ history, m = ((Runner.ofMachine new).after history).machine

theorem change_config (m : Machine) (change : Change) : (m.change change).config = m.config := by
  cases change with
  | step => exact m.step_config
  | load program =>
    rw [change_load]
    split <;> rfl
  | _ => rfl

theorem changed_config (m : Machine) (changes : List Change) : (m.changed changes).config = m.config := by
  induction changes generalizing m with
  | nil => rfl
  | cons change rest ih => exact (ih _).trans (m.change_config change)

/-- Nothing changes the settings. -/
theorem Reaches.config_eq {new m : Machine} (h : new.Reaches m) : m.config = new.config := by
  rcases h with ⟨changes, rfl⟩ | ⟨history, rfl⟩
  · exact new.changed_config changes
  · exact (config_invariant new.config).after history rfl

/-! ## One load -/

/-- `loaded` is `m` with a program at the offset of the settings and the program counter there. -/
structure Loaded (c : Config) (program : List UInt8) (m loaded : Machine) : Prop where
  bytes : ∀ k (h : k < program.length), loaded.memory.read (c.programOffset.toNat + k) = program[k]
  others : ∀ a < 4096, a < c.programOffset.toNat ∨ c.programOffset.toNat + program.length ≤ a →
    loaded.memory.read a = m.memory.read a
  glyphs : ∀ a < 80, loaded.memory.read a = m.memory.read a
  same : loaded = { m with memory := loaded.memory, pc := c.programOffset }

theorem loaded_writeMany {c : Config} (sound : c.Sound) (m : Machine) {program : List UInt8}
    (fits : c.programOffset.toNat + program.length ≤ 4096) :
    Loaded c program m
      { m with
        memory := m.memory.writeMany c.programOffset.toNat program
        pc := c.programOffset } := by
  have hothers : ∀ a < 4096, a < c.programOffset.toNat ∨ c.programOffset.toNat + program.length ≤ a →
      (m.memory.writeMany c.programOffset.toNat program).read a = m.memory.read a := by
    intro a ha hout
    exact m.memory.read_writeMany_of_ne _ _ fun k hk => by omega
  have habove := sound.above
  exact {
    bytes := fun k hk => m.memory.read_writeMany _ _ (by omega) hk
    others := hothers
    glyphs := fun a ha => hothers a (by omega) (.inl (by omega))
    same := rfl }

theorem load_of_fits {m : Machine} {program : List UInt8}
    (fits : m.config.programOffset.toNat + program.length ≤ 4096) :
    m.load program = .ok { m with
      memory := m.memory.writeMany m.config.programOffset.toNat program
      pc := m.config.programOffset } :=
  if_pos fits

theorem load_of_not_fits {m : Machine} {program : List UInt8}
    (large : ¬ m.config.programOffset.toNat + program.length ≤ 4096) :
    m.load program = .error ⟨program.length, 4096 - m.config.programOffset.toNat⟩ :=
  if_neg large

/-- **Loading is exact.** The settings that are accepted are the sound ones, and they make a machine if its timers get
their threads. Whatever has become of it, a program that fits behind the offset is loaded, and a larger one changes
nothing. -/
theorem load_exact (c : Config) (random : RandomSource) :
    (c.validate = .ok () ↔ c.Sound) ∧
      (c.Sound → (∃ new, create c .started random = .ok new) ∧
        ∀ threads new, create c threads random = .ok new → ∀ m, new.Reaches m → ∀ program : List UInt8,
          if program.length ≤ 4096 - c.programOffset.toNat then
            ∃ loaded, m.load program = .ok loaded ∧ Loaded c program m loaded ∧ m.change (.load program) = loaded
          else
            m.load program = .error ⟨program.length, 4096 - c.programOffset.toNat⟩ ∧
              m.change (.load program) = m) := by
  refine ⟨Config.validate_eq_ok_iff, fun sound => ⟨⟨_, create_eq_ok_iff.mpr ⟨?_, rfl, rfl⟩⟩,
    fun threads new h m reached program => ?_⟩⟩
  · exact Config.validate_eq_ok_iff.mpr sound
  · obtain ⟨-, -, rfl⟩ := create_eq_ok_iff.mp h
    obtain rfl : m.config = c := reached.config_eq
    have hbelow := sound.below
    split
    · next h =>
      have fits : m.config.programOffset.toNat + program.length ≤ 4096 := by omega
      have hload := load_of_fits fits
      refine ⟨_, hload, loaded_writeMany sound m fits, ?_⟩
      simp only [change, hload]
    · next h =>
      have large : ¬ m.config.programOffset.toNat + program.length ≤ 4096 := by omega
      have hload := load_of_not_fits large
      exact ⟨hload, by simp only [change, hload]⟩

/-- With standard settings 3584 bytes fit and 3585 do not. -/
theorem load_exact_standard :
    Config.standard.Sound ∧
      ∃ new, create Config.standard .started (.scripted []) = .ok new ∧ ∀ m, new.Reaches m →
        (∃ loaded, m.load (List.replicate 3584 1) = .ok loaded ∧
          Loaded Config.standard (List.replicate 3584 1) m loaded) ∧
        m.load (List.replicate 3585 1) = .error ⟨3585, 3584⟩ := by
  have sound : Config.standard.Sound := Config.validate_eq_ok_iff.mp rfl
  have hroom : 4096 - Config.standard.programOffset.toNat = 3584 := rfl
  obtain ⟨⟨new, hcreate⟩, hall⟩ := (load_exact Config.standard (.scripted [])).2 sound
  have hloads := hall _ new hcreate
  rw [hroom] at hloads
  refine ⟨sound, new, hcreate, fun m reached => ⟨?_, ?_⟩⟩
  · have hloaded : ∀ program : List UInt8, program.length = 3584 →
        ∃ loaded, m.load program = .ok loaded ∧ Loaded Config.standard program m loaded := by
      intro program hlength
      have h := hloads m reached program
      rw [if_pos (Nat.le_of_eq hlength)] at h
      obtain ⟨loaded, hload, hloaded, -⟩ := h
      exact ⟨loaded, hload, hloaded⟩
    exact hloaded _ List.length_replicate
  · have hrefused : ∀ program : List UInt8, program.length = 3585 → m.load program = .error ⟨3585, 3584⟩ := by
      intro program hlength
      have h := hloads m reached program
      rw [if_neg (by omega), hlength] at h
      exact h.1
    exact hrefused _ List.length_replicate

end Machine

end Chip8
