import Chip8.Proofs.Control

/-!
# Subroutines

A call puts the address of the next word on the stack, and a return takes the newest address off. Nothing else that may
happen to a machine (`Change`) touches the stack (`change_stack`). So the address that a call has put there, and all
below it, stay until that address is itself taken off (`suffix_changed`). Hence the step in which the depth first
comes back to what it was before the call is a return; it leads to the word after the call and leaves the stack that the
call found, whatever happened in between (`call_returns`).
-/

namespace Chip8.Machine

/-! ## What may happen to a machine -/

/-- A step, or something that the host, the keypad or a timer does between two steps. -/
inductive Change
  | step
  | setPc (a : UInt16)
  | setIndex (a : UInt16)
  | setReg (x : Nibble) (b : UInt8)
  /-- A program that does not fit is refused. -/
  | load (program : List UInt8)
  | draw (x y : UInt8) (sprite : List UInt8)
  | clear
  | setKeys (mask : UInt16)
  | setDelay (b : UInt8)
  | setSound (b : UInt8)
  | tick
  deriving DecidableEq

def change (m : Machine) : Change → Machine
  | .step => m.step.2
  | .setPc a => { m with pc := a }
  | .setIndex a => { m with i := a }
  | .setReg x b => m.setReg x b
  | .load program =>
    match m.load program with
    | .ok loaded => loaded
    | .error _ => m
  | .draw x y sprite => (m.drawSprite x y sprite).2
  | .clear => { m with display := .blank }
  | .setKeys mask => m.setKeys mask
  | .setDelay b => { m with delay := m.delay.set b }
  | .setSound b => { m with sound := m.sound.set b }
  | .tick => m.tick

/-- A program that does not fit is not loaded. -/
theorem change_load (m : Machine) (program : List UInt8) :
    m.change (.load program) =
      if m.config.programOffset.toNat + program.length ≤ Memory.size then
        { m with
          memory := m.memory.writeMany m.config.programOffset.toNat program
          pc := m.config.programOffset }
      else m := by
  simp only [change, load]
  by_cases h : m.config.programOffset.toNat + program.length ≤ Memory.size
  · simp only [h, if_true]
  · simp only [h, if_false]

/-- The machine after a run of changes, the first of them first. -/
def changed (m : Machine) (changes : List Change) : Machine := changes.foldl change m

@[simp] theorem changed_nil (m : Machine) : m.changed [] = m := rfl

@[simp] theorem changed_cons (m : Machine) (c : Change) (rest : List Change) :
    m.changed (c :: rest) = (m.change c).changed rest := rfl

theorem changed_concat (m : Machine) (changes : List Change) (c : Change) :
    m.changed (changes ++ [c]) = (m.changed changes).change c := by
  rw [changed, List.foldl_append]
  rfl

/-! ## The stack -/

theorem step_of_call {m : Machine} {target : UInt16} (hd : Instruction.decode m.fetch = .call target)
    (he : m.step.1 = .executed) :
    m.step = (.executed, { m.advance with stack := m.advance.pc :: m.stack, pc := target }) := by
  rcases m.advance.call_cases m.pc m.fetch target with ⟨limit, -, -, hc⟩ | ⟨-, hc⟩
  · have ha : m.attempt = (.faulted (.stackOverflow m.pc m.fetch limit), m.advance) := by rw [attempt, hd]; exact hc
    rw [step_of_faulted ha] at he
    cases he
  · exact step_of_executed (by rw [attempt, hd]; exact hc)

theorem step_of_ret {m : Machine} {top : UInt16} {rest : List UInt16} (hd : Instruction.decode m.fetch = .ret)
    (hs : m.stack = top :: rest) : m.step = (.executed, { m.advance with stack := rest, pc := top }) := by
  apply step_of_executed
  rw [attempt, hd]
  show m.advance.ret m.pc m.fetch = _
  unfold ret
  rw [show m.advance.stack = top :: rest from hs]

/-- The step that takes the newest return address off the stack. -/
structure Returns (m : Machine) (c : Change) : Prop where
  step : c = .step
  decode : Instruction.decode m.fetch = .ret
  executed : m.step.1 = .executed
  stack : m.stack = (m.change c).pc :: (m.change c).stack

/-- Of the instructions only a call and a return touch the stack. -/
theorem Control.stack_cases {m : Machine} {i : Instruction} {pc index : UInt16} {stack : List UInt16}
    (h : Control m i pc index stack) :
    stack = m.stack ∨ (∃ a, stack = a :: m.stack) ∨ (i = .ret ∧ ∃ top, m.stack = top :: stack) := by
  cases h with
  | ret hs => exact .inr (.inr ⟨rfl, _, hs⟩)
  | call => exact .inr (.inl ⟨_, rfl⟩)
  | _ => exact .inl rfl

theorem step_stack (m : Machine) :
    m.step.2.stack = m.stack ∨ (∃ a, m.step.2.stack = a :: m.stack) ∨ m.Returns .step := by
  have hs : m.step.2.stack = m.attempt.2.stack := by
    rcases m.step_snd with e | e <;> rw [e]
  have hc := (m.advance.perform_control m.pc m.fetch (.decode m.fetch)).2
  rcases hc.stack_cases with h | ⟨a, h⟩ | ⟨hd, top, h⟩
  · exact .inl (hs.trans h)
  · exact .inr (.inl ⟨a, hs.trans h⟩)
  · have hstep := step_of_ret hd h
    refine .inr (.inr ⟨rfl, hd, ?_, ?_⟩)
    · rw [hstep]
    · show m.stack = m.step.2.pc :: m.step.2.stack
      rw [hstep]
      exact h

/-- Whatever happens to a machine, only a call and a return touch the stack. -/
theorem change_stack (m : Machine) (c : Change) :
    (m.change c).stack = m.stack ∨ (∃ a, (m.change c).stack = a :: m.stack) ∨ m.Returns c := by
  cases c with
  | step => exact m.step_stack
  | load program =>
    left
    rw [change_load]
    split <;> rfl
  | _ => exact .inl rfl

/-- The lower part of the stack stays, unless its newest address is taken off. -/
theorem suffix_change {m : Machine} {top : UInt16} {rest : List UInt16} (h : top :: rest <:+ m.stack) (c : Change) :
    top :: rest <:+ (m.change c).stack ∨ (m.Returns c ∧ (m.change c).pc = top ∧ (m.change c).stack = rest) := by
  rcases m.change_stack c with hs | ⟨a, hs⟩ | hr
  · rw [hs]
    exact .inl h
  · rw [hs]
    exact .inl (h.trans (List.suffix_cons a m.stack))
  · rw [hr.stack] at h
    rcases List.suffix_cons_iff.mp h with heq | hin
    · obtain ⟨hpc, hrest⟩ := List.cons.inj heq
      exact .inr ⟨hr, hpc.symm, hrest.symm⟩
    · exact .inl hin

/-- The lower part of the stack stays while the stack is not as deep as what lies below its newest address. -/
theorem suffix_changed {m : Machine} {top : UInt16} {rest : List UInt16} (h : top :: rest <:+ m.stack)
    {changes : List Change} (deeper : ∀ n ≤ changes.length, (m.changed (changes.take n)).stack.length ≠ rest.length) :
    top :: rest <:+ (m.changed changes).stack := by
  induction changes generalizing m with
  | nil => exact h
  | cons c tail ih =>
    rcases suffix_change h c with hs | ⟨-, -, hs⟩
    · refine ih hs fun n hn => ?_
      have hd := deeper (n + 1) (Nat.succ_le_succ hn)
      rwa [List.take_succ_cons, changed_cons] at hd
    · have hd := deeper 1 (Nat.succ_le_succ (Nat.zero_le _))
      rw [List.take_succ_cons, List.take_zero, changed_cons, changed_nil, hs] at hd
      exact absurd rfl hd

/-! ## Calls come back -/

/-- After a call the depth first comes back to what it was in a return to the word after the call, which leaves the
stack that the call found. -/
theorem call_returns {m : Machine} {target : UInt16} (call : Instruction.decode m.fetch = .call target)
    (executed : m.step.1 = .executed) (changes : List Change) (last : Change)
    (deeper : ∀ n ≤ changes.length, (m.step.2.changed (changes.take n)).stack.length ≠ m.stack.length)
    (back : (m.step.2.changed (changes ++ [last])).stack.length = m.stack.length) :
    last = .step ∧ Instruction.decode (m.step.2.changed changes).fetch = .ret ∧
      (m.step.2.changed changes).step.1 = .executed ∧
      (m.step.2.changed (changes ++ [last])).pc.toNat = (m.pc.toNat + 2) % 4096 ∧
      (m.step.2.changed (changes ++ [last])).stack = m.stack := by
  have hcall : m.step.2.stack = m.advance.pc :: m.stack := by rw [step_of_call call executed]
  have hbase : m.advance.pc :: m.stack <:+ (m.step.2.changed changes).stack :=
    suffix_changed ⟨[], hcall.symm⟩ deeper
  rw [changed_concat] at back ⊢
  rcases suffix_change hbase last with hs | ⟨hr, hpc, hs⟩
  · have hlen := hs.length_le
    rw [List.length_cons, back] at hlen
    omega
  · refine ⟨hr.step, hr.decode, hr.executed, ?_, hs⟩
    rw [hpc, toNat_advance_pc]

/-- A call of a subroutine that calls another one, in which stand a word that is no instruction and a wait for a key. -/
def nestedCall : Machine :=
  { initial Config.standard (.scripted []) with
    memory := Memory.zero.writeMany 0x200
      [0x22, 0x04, 0x00, 0x00, 0x22, 0x08, 0x00, 0xEE, 0xFF, 0xFF, 0xF3, 0x0A, 0x00, 0xEE] }

/-- The fault is stepped once, and the host moves the program counter past it. -/
theorem call_returns_nestedCall :
    let changes : List Change :=
      [.step, .step, .setPc 0x20A, .step, .tick, .setKeys 0x20, .step, .step]
    Instruction.decode nestedCall.fetch = .call 0x204 ∧ nestedCall.step.1 = .executed ∧
      (∀ n ≤ changes.length, (nestedCall.step.2.changed (changes.take n)).stack.length ≠ nestedCall.stack.length) ∧
      (nestedCall.step.2.changed (changes ++ [.step])).stack.length = nestedCall.stack.length ∧
      (nestedCall.step.2.changed (changes ++ [.step])).pc.toNat = 0x202 := by
  intro changes
  have call : Instruction.decode nestedCall.fetch = .call 0x204 := by decide +kernel
  have executed : nestedCall.step.1 = .executed := by decide +kernel
  have deeper : ∀ n ≤ changes.length,
      (nestedCall.step.2.changed (changes.take n)).stack.length ≠ nestedCall.stack.length := by decide +kernel
  have back : (nestedCall.step.2.changed (changes ++ [.step])).stack.length = nestedCall.stack.length := by
    decide +kernel
  obtain ⟨-, -, -, hpc, -⟩ := call_returns call executed changes .step deeper back
  exact ⟨call, executed, deeper, back, hpc⟩

end Chip8.Machine
