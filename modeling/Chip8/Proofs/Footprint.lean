import Chip8.Proofs.Control
import Chip8.Proofs.Sprite

/-!
# The footprint of one instruction

What an executed instruction may touch is read off the instruction, before it is performed: the registers it writes
(`Instruction.writes`), how many bytes it stores at the index register (`Instruction.stored`), the pixels it may turn
over (`Instruction.paints`), and what it makes of the stack, the timers and the random source (`Instruction.stackOn` and
its like). `Footprint i m after` says that `after` differs from `m` nowhere else, the program counter apart.
`perform_footprint` goes through the instructions once; `step_footprint` is the statement about a step. A step that does
not execute changes next to nothing (`step_of_not_executed`).
-/

namespace Chip8

/-! ## What an instruction may touch -/

/-- The operation leaves its second result in `VF`. -/
def Arith.setsFlag : Arith → Bool
  | .add | .sub | .subFrom | .shiftRight | .shiftLeft => true
  | .copy | .or | .and | .xor => false

namespace Instruction

/-- The registers that the instruction may change. -/
def writes : Instruction → Nibble → Prop
  | .setByte x _, y | .addByte x _, y | .random x _, y | .readDelay x, y | .waitKey x, y => y = x
  | .arith op x _, y => y = x ∨ op.setsFlag = true ∧ y = 0xF
  | .draw _ _ _, y => y = 0xF
  | .restore x, y => y ≤ x
  | _, _ => False

/-- How many bytes the instruction stores at the index register. -/
def stored : Instruction → Nat
  | .decimal _ => 3
  | .save x => x.val + 1
  | _ => 0

/-- The pixel in column `c` of row `r` is one that the instruction may change. -/
def paints (m : Machine) : Instruction → Nat → Nat → Prop
  | .clear, _, _ => True
  | .draw x y n, c, r =>
    (∃ k < n.val, r = ((m.reg y).toNat + k) % 32) ∧ ∃ j < 8, c = ((m.reg x).toNat + j) % 64
  | _, _, _ => False

def movesIndex : Instruction → Bool
  | .setIndex _ | .addIndex _ | .glyph _ => true
  | _ => false

/-- A call pushes the address of the next word, a return takes an address off. -/
def stackOn (m : Machine) : Instruction → List UInt16
  | .call _ => wrapAdd m.pc 2 :: m.stack
  | .ret => m.stack.tail
  | _ => m.stack

def delayOn (m : Machine) : Instruction → Timer
  | .setDelay x => m.delay.set (m.reg x)
  | _ => m.delay

def soundOn (m : Machine) : Instruction → Timer
  | .setSound x => m.sound.set (m.reg x)
  | _ => m.sound

/-- The random source once it was asked for what the instruction needs: one byte, or none. -/
def randomOn (m : Machine) : Instruction → RandomSource
  | .random _ _ => m.random.next.2
  | _ => m.random

/-- The instruction leaves the stack, the timers and the random source alone. -/
def isPlain : Instruction → Bool
  | .call _ | .ret | .setDelay _ | .setSound _ | .random _ _ => false
  | _ => true

end Instruction

/-! ## Pixels that a sprite changes -/

namespace Display

theorem pixel_outside (d : Display) {c r : Nat} (h : ¬ (c < 64 ∧ r < 32)) : d.pixel c r = false := by
  rw [pixel, width, height, ← Bool.decide_and, decide_eq_false h, Bool.false_and]

/-- A pixel that drawing changes lies in one of the rows and one of the eight columns of the sprite. -/
theorem exists_place_of_pixel_ne {x : UInt8} {y : Nat} {sprite : List UInt8} {hit : Bool} {d : Display} {c r : Nat}
    (h : (drawFrom x y sprite (hit, d)).2.pixel c r ≠ d.pixel c r) :
    ∃ k < sprite.length, ∃ j < 8, r = (y + k) % 32 ∧ c = (x.toNat + j) % 64 := by
  by_cases hin : c < 64 ∧ r < 32
  case neg => exact absurd ((pixel_outside _ hin).trans (pixel_outside d hin).symm) h
  have hdrawn := (drawn_drawFrom x y sprite hit d).1 c hin.1 r hin.2
  by_cases hodd : hits x.toNat y sprite c r % 2 = 1
  case neg =>
    rw [decide_eq_false hodd, Bool.xor_false] at hdrawn
    exact absurd hdrawn h
  -- an odd number of hits is not zero
  have hpos : 0 < hits x.toNat y sprite c r := by omega
  obtain ⟨k, hk, j, hj, hr, hc, -⟩ := hits_pos_iff.mp hpos
  exact ⟨k, hk, j, hj, hr.symm, hc.symm⟩

end Display

namespace Machine

/-- From `m` to `after` only what instruction `i` may touch has changed. -/
structure Footprint (i : Instruction) (m after : Machine) : Prop where
  config : after.config = m.config
  keypad : after.keypad = m.keypad
  memory : ∀ a, after.memory.read a ≠ m.memory.read a → ∃ k < i.stored, a % 4096 = (m.i.toNat + k) % 4096
  display : ∀ c r, after.display.pixel c r ≠ m.display.pixel c r → i.paints m c r
  stack : after.stack = i.stackOn m
  /-- There was an address to take off. -/
  pops : i = .ret → m.stack ≠ []
  index : after.i ≠ m.i → i.movesIndex = true
  registers : ∀ y, after.reg y ≠ m.reg y → i.writes y
  delay : after.delay = i.delayOn m
  sound : after.sound = i.soundOn m
  random : after.random = i.randomOn m

/-! ## What the helpers change -/

theorem eq_of_reg_setReg_ne {m : Machine} {x y : Nibble} {b : UInt8} (h : (m.setReg x b).reg y ≠ m.reg y) : y = x := by
  rw [reg_setReg] at h
  by_cases hx : x = y
  · exact hx.symm
  · rw [if_neg hx] at h
    exact absurd rfl h

/-- Arithmetic changes `Vx`, and `VF` if the operation sets it. -/
theorem writes_of_reg_arith_ne {m : Machine} {op : Arith} {x y z : Nibble} (h : (m.arith op x y).reg z ≠ m.reg z) :
    (Instruction.arith op x y).writes z := by
  -- a register that is neither keeps its value
  by_cases hx : x = z
  · exact .inl hx.symm
  by_cases hf : flag = z
  · refine .inr ⟨?_, hf.symm⟩
    cases op with
    | copy | or | and | xor => simp [arith, hx] at h
    | add | sub | subFrom | shiftRight | shiftLeft => rfl
  · cases op <;> simp [arith, hx, hf] at h

/-- Bytes put into the registers from `Vk` on leave the later registers alone. -/
theorem reg_setRegsFrom (m : Machine) (k : Nat) (bytes : List UInt8) {y : Nibble} (h : k + bytes.length ≤ y.val) :
    (m.setRegsFrom k bytes).reg y = m.reg y := by
  induction bytes generalizing m k with
  | nil => rfl
  | cons b rest ih =>
    rw [List.length_cons] at h
    have hne : Fin.ofNat 16 k ≠ y := by
      intro heq
      have hk := congrArg Fin.val heq
      simp only [Fin.ofNat] at hk
      omega
    rw [setRegsFrom, ih _ (k + 1) (by omega), reg_setReg, if_neg hne]

/-- A byte that storing changes stands at one of the stored places. -/
theorem exists_of_read_storeFrom_ne {m : Machine} {k a : Nat} {bytes : List UInt8}
    (h : (m.storeFrom k bytes).memory.read a ≠ m.memory.read a) :
    ∃ j < bytes.length, a % 4096 = (m.i.toNat + (k + j)) % 4096 := by
  induction bytes generalizing m k with
  | nil => exact absurd rfl h
  | cons b rest ih =>
    by_cases ha : m.indexed k % 4096 = a % 4096
    · refine ⟨0, Nat.succ_pos _, ?_⟩
      rw [← ha, indexed_mod, Nat.add_zero]
    · -- the first byte went elsewhere, so the others made the difference
      have hfirst : (m.memory.write (m.indexed k) b).read a = m.memory.read a := by rw [Memory.read_write, if_neg ha]
      rw [storeFrom, ← hfirst] at h
      obtain ⟨j, hj, hplace⟩ := ih h
      refine ⟨j + 1, Nat.succ_lt_succ hj, hplace.trans ?_⟩
      rw [Nat.add_right_comm k 1 j]
      rfl

/-- A pixel that a draw changes is hit by a place of the sprite. -/
theorem paints_of_pixel_drawIndexed_ne {m : Machine} {x y n : Nibble} {c r : Nat}
    (h : (m.drawIndexed x y n).display.pixel c r ≠ m.display.pixel c r) : (Instruction.draw x y n).paints m c r := by
  obtain ⟨k, hk, j, hj, hr, hc⟩ := Display.exists_place_of_pixel_ne h
  rw [length_indexedBytes] at hk
  exact ⟨⟨k, hk, hr⟩, j, hj, hc⟩

/-! ## One instruction -/

/-- The stack, the timers and the random source as the instruction leaves them, and a new program counter. -/
theorem Footprint.ofExact {m : Machine} {i : Instruction} {pc : UInt16} {stack : List UInt16} {delay sound : Timer}
    {random : RandomSource} (hs : stack = i.stackOn m) (hp : i = .ret → m.stack ≠ []) (hd : delay = i.delayOn m)
    (hb : sound = i.soundOn m) (hr : random = i.randomOn m) :
    Footprint i m { m with pc := pc, stack := stack, delay := delay, sound := sound, random := random } where
  config := rfl
  keypad := rfl
  memory := fun _ h => absurd rfl h
  display := fun _ _ h => absurd rfl h
  stack := hs
  pops := hp
  index := fun h => absurd rfl h
  registers := fun _ h => absurd rfl h
  delay := hd
  sound := hb
  random := hr

/-- A plain instruction may leave everything but the program counter. -/
theorem Footprint.ofPc (m : Machine) (i : Instruction) (pc : UInt16) (h : i.isPlain = true) :
    Footprint i m { m with pc := pc } := by
  cases i with
  | call | ret | setDelay | setSound | random => cases h
  | _ => exact ofExact rfl (by simp) rfl rfl rfl

/-- It may change the registers that it writes. -/
theorem Footprint.ofRegisters {m : Machine} {i : Instruction} {v : Vector UInt8 16} (h : i.isPlain = true)
    (hv : ∀ y, ({ m with v := v } : Machine).reg y ≠ m.reg y → i.writes y) :
    Footprint i m { m.advance with v := v } :=
  { ofPc m i m.advance.pc h with registers := hv }

theorem skipIf_footprint (m : Machine) (i : Instruction) (condition : Bool) (h : i.isPlain = true) :
    Footprint i m (m.advance.skipIf condition) := by
  rcases m.advance.skipIf_cases condition with hs | hs <;> rw [hs]
  · exact .ofPc m i _ h
  · exact .ofPc m i _ h

theorem storeFrom_footprint (m : Machine) (i : Instruction) (bytes : List UInt8) (h : i.isPlain = true)
    (hlen : bytes.length ≤ i.stored) : Footprint i m (m.advance.storeFrom 0 bytes) := by
  have hplaces : ∀ a, (m.advance.storeFrom 0 bytes).memory.read a ≠ m.memory.read a →
      ∃ k < i.stored, a % 4096 = (m.i.toNat + k) % 4096 := by
    intro a ha
    obtain ⟨j, hj, hplace⟩ := exists_of_read_storeFrom_ne ha
    rw [Nat.zero_add] at hplace
    exact ⟨j, Nat.lt_of_lt_of_le hj hlen, hplace⟩
  obtain ⟨memory, hstore⟩ := m.advance.storeFrom_eq 0 bytes
  rw [hstore] at hplaces ⊢
  exact { Footprint.ofPc m i m.advance.pc h with memory := hplaces }

/-- Every instruction that executes stays within its footprint. -/
theorem perform_footprint (m : Machine) (address word : UInt16) (i : Instruction)
    (h : (m.advance.perform address word i).1 = .executed) :
    Footprint i m (m.advance.perform address word i).2 := by
  cases i with
  | ret =>
    rcases m.advance.ret_cases address word with ⟨-, hr⟩ | ⟨top, rest, hs, hr⟩ <;> rw [perform, hr] at h ⊢
    · cases h
    · have hm : m.stack = top :: rest := hs
      have htail : rest = m.stack.tail := by rw [hm]; rfl
      have hne : m.stack ≠ [] := by rw [hm]; exact List.cons_ne_nil _ _
      exact .ofExact htail (fun _ => hne) rfl rfl rfl
  | call nnn =>
    rcases m.advance.call_cases address word nnn with ⟨limit, -, -, hc⟩ | ⟨-, hc⟩ <;> rw [perform, hc] at h ⊢
    · cases h
    · exact .ofExact rfl (by simp) rfl rfl rfl
  | random x nn =>
    rcases m.advance.randomByte_cases address word x nn with ⟨b, -, hr⟩ | ⟨cause, -, hr⟩ | ⟨message, -, hr⟩ <;>
      rw [perform, hr] at h ⊢
    · have hasked : Footprint (.random x nn) m m.advance.ask := .ofExact rfl (by simp) rfl rfl rfl
      exact { hasked with registers := fun _ hy => eq_of_reg_setReg_ne hy }
    · cases h
    · cases h
  | waitKey x =>
    rcases m.advance.waitKey_cases x with ⟨key, -, hw⟩ | ⟨-, hw⟩ <;> rw [perform, hw] at h ⊢
    · exact .ofRegisters rfl fun _ hy => eq_of_reg_setReg_ne hy
    · cases h
  | unknown w => cases h
  | jump nnn => exact .ofPc m (.jump nnn) _ rfl
  | jumpPlus nnn => exact .ofPc m (.jumpPlus nnn) _ rfl
  | skipEqByte x nn | skipNeByte x nn | skipEq x y | skipNe x y | skipHeld x | skipNotHeld x =>
    exact skipIf_footprint m _ _ rfl
  | setByte x nn | addByte x nn | readDelay x => exact .ofRegisters rfl fun _ hy => eq_of_reg_setReg_ne hy
  | arith op x y =>
    have hv : ∀ z, (m.advance.arith op x y).reg z ≠ m.reg z → (Instruction.arith op x y).writes z := fun _ hz =>
      writes_of_reg_arith_ne hz
    obtain ⟨v, hop⟩ := m.advance.arith_eq op x y
    rw [perform]
    rw [hop] at hv ⊢
    exact .ofRegisters rfl hv
  | restore x =>
    have hv : ∀ y, (m.advance.setRegsFrom 0 (m.advance.indexedBytes (x.val + 1))).reg y ≠ m.reg y → y ≤ x := by
      intro y hy
      refine Nat.le_of_not_lt fun hlt => hy (reg_setRegsFrom _ 0 _ ?_)
      rw [length_indexedBytes]
      omega
    obtain ⟨v, hset⟩ := m.advance.setRegsFrom_eq 0 (m.advance.indexedBytes (x.val + 1))
    rw [perform]
    rw [hset] at hv ⊢
    exact .ofRegisters rfl hv
  | clear => exact { Footprint.ofPc m .clear m.advance.pc rfl with display := fun _ _ _ => trivial }
  | draw x y n =>
    exact { Footprint.ofPc m (.draw x y n) m.advance.pc rfl with
      display := fun _ _ hp => paints_of_pixel_drawIndexed_ne hp
      registers := fun _ hy => eq_of_reg_setReg_ne hy }
  | setIndex nnn => exact { Footprint.ofPc m (.setIndex nnn) m.advance.pc rfl with index := fun _ => rfl }
  | addIndex x => exact { Footprint.ofPc m (.addIndex x) m.advance.pc rfl with index := fun _ => rfl }
  | glyph x => exact { Footprint.ofPc m (.glyph x) m.advance.pc rfl with index := fun _ => rfl }
  | setDelay x => exact .ofExact rfl (by simp) rfl rfl rfl
  | setSound x => exact .ofExact rfl (by simp) rfl rfl rfl
  | decimal x => exact storeFrom_footprint m _ _ rfl (Nat.le_refl _)
  | save x =>
    refine storeFrom_footprint m _ _ rfl ?_
    rw [firstRegs, List.length_take]
    exact Nat.min_le_left _ _

/-- An instruction that does not execute has asked for a random byte at most. -/
theorem perform_of_not_executed (m : Machine) (address word : UInt16) (i : Instruction)
    (h : (m.perform address word i).1 ≠ .executed) :
    ∃ random, (m.perform address word i).2 = { m with random := random } := by
  cases i with
  | ret =>
    rcases m.ret_cases address word with ⟨-, hr⟩ | ⟨top, rest, -, hr⟩ <;> rw [perform, hr] at h ⊢
    · exact ⟨m.random, rfl⟩
    · exact absurd rfl h
  | call nnn =>
    rcases m.call_cases address word nnn with ⟨limit, -, -, hc⟩ | ⟨-, hc⟩ <;> rw [perform, hc] at h ⊢
    · exact ⟨m.random, rfl⟩
    · exact absurd rfl h
  | random x nn =>
    rcases m.randomByte_cases address word x nn with ⟨b, -, hr⟩ | ⟨cause, -, hr⟩ | ⟨message, -, hr⟩ <;>
      rw [perform, hr] at h ⊢
    · exact absurd rfl h
    · exact ⟨m.random.next.2, rfl⟩
    · exact ⟨m.random.next.2, rfl⟩
  | waitKey x =>
    rcases m.waitKey_cases x with ⟨key, -, hw⟩ | ⟨-, hw⟩ <;> rw [perform, hw] at h ⊢
    · exact absurd rfl h
    · exact ⟨m.random, rfl⟩
  | unknown w => exact ⟨m.random, rfl⟩
  | _ => exact absurd rfl h

/-! ## One step -/

/-- A step that does not execute changes the program counter and the random source at most. -/
theorem step_of_not_executed {m : Machine} (h : m.step.1 ≠ .executed) :
    ∃ pc random, m.step.2 = { m with pc := pc, random := random } := by
  rw [step_fst] at h
  obtain ⟨random, ha⟩ := m.advance.perform_of_not_executed m.pc m.fetch (.decode m.fetch) h
  rcases m.step_snd with hs | hs
  · exact ⟨m.advance.pc, random, hs.trans ha⟩
  · refine ⟨m.pc, random, ?_⟩
    rw [hs, attempt, ha]
    rfl

/-- **The footprint of a step.** A step that executes changes nothing but the program counter outside what its
instruction may touch. -/
theorem step_footprint {m : Machine} (h : m.step.1 = .executed) : Footprint (.decode m.fetch) m m.step.2 := by
  rw [step_fst] at h
  have hstep : m.step = (.executed, m.attempt.2) := step_of_executed (Prod.ext h rfl)
  rw [hstep]
  exact perform_footprint m m.pc m.fetch (.decode m.fetch) h

/-- A machine whose program stores `V0` and `V1` at the last address, so that the second byte wraps around. -/
def savesAtEnd : Machine :=
  { initial Config.standard (.scripted []) with
    memory := Memory.initial.writeMany 0x200 [0xF1, 0x55]
    i := 0xFFF
    v := Vector.replicate 16 0x2A }

theorem step_footprint_save :
    savesAtEnd.step.1 = .executed ∧ Footprint (.save 1) savesAtEnd savesAtEnd.step.2 := by
  have hdecode : Instruction.decode savesAtEnd.fetch = .save 1 := by decide +kernel
  have hexecuted : savesAtEnd.step.1 = .executed := by decide +kernel
  have hfootprint := step_footprint hexecuted
  rw [hdecode] at hfootprint
  exact ⟨hexecuted, hfootprint⟩

end Machine

end Chip8
