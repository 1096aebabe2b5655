import Chip8.Proofs.History
import Chip8.Runner.Pace

/-!
# A run follows direct steps

A run executes the instructions that direct steps execute. Four actions of the loop make one cycle: it looks at the stop
request, executes one instruction, looks at the request again, and compares the program counter with the breakpoints.
`Follows` says, for each phase of the loop, how many direct steps its machine stands for, and `Follows.act` that an
action keeps this. So a run ends after `n` steps just when the `n`-th direct step is the first that does not pass
(`Machine.StopsAt`), and with the machine that the direct steps produce. `Runner.Tracks` says so of a runner, beside
whose loop other things happen.
-/

namespace Chip8

/-! ## Direct steps -/

namespace Machine

/-- The machine after `n` steps. -/
def stepped (m : Machine) : Nat → Machine
  | 0 => m
  | n + 1 => (m.stepped n).step.2

/-- Step number `k`, counted from zero, executes and leaves the program counter outside the breakpoints. -/
def Passes (b : Breakpoints) (m : Machine) (k : Nat) : Prop :=
  (m.stepped k).step.1 = .executed ∧ b.contains (m.stepped (k + 1)).pc = false

/-- Step number `k`, counted from zero, ends a run. -/
inductive Ends (b : Breakpoints) (m : Machine) (k : Nat) : RunEnd → Prop
  | faulted {f : Fault} : (m.stepped k).step.1 = .faulted f → Ends b m k (.faulted f)
  | crashed {message : String} : (m.stepped k).step.1 = .crashed message → Ends b m k .crashed
  | breakpoint : (m.stepped k).step.1 = .executed → b.contains (m.stepped (k + 1)).pc = true →
      Ends b m k (.breakpoint (m.stepped (k + 1)).pc)

/-- The `n`-th step, counted from one, ends a run, and all earlier ones pass. -/
def StopsAt (b : Breakpoints) (m : Machine) (n : Nat) (result : RunEnd) : Prop :=
  ∃ k, n = k + 1 ∧ (∀ j < k, Passes b m j) ∧ Ends b m k result

theorem stepped_config (m : Machine) (n : Nat) : (m.stepped n).config = m.config := by
  induction n with
  | zero => rfl
  | succ n ih => rw [stepped, step_config, ih]

variable {b : Breakpoints} {m : Machine}

theorem Ends.not_passes {k : Nat} {result : RunEnd} (h : Ends b m k result) : ¬ Passes b m k := by
  rintro ⟨he, hb⟩
  cases h with
  | faulted h => cases he.symm.trans h
  | crashed h => cases he.symm.trans h
  | breakpoint _ h => cases hb.symm.trans h

theorem Ends.not_waits {k : Nat} {result : RunEnd} (h : Ends b m k result) : ¬ (m.stepped k).Waits := by
  intro hw
  have he := step_awaitingKey_iff.mpr hw
  cases h with
  | faulted h => cases he.symm.trans h
  | crashed h => cases he.symm.trans h
  | breakpoint h _ => cases he.symm.trans h

theorem Ends.unique {k : Nat} {result result' : RunEnd} (h : Ends b m k result) (h' : Ends b m k result') :
    result = result' := by
  cases h with
  | faulted h =>
    cases h' with
    | faulted h' => cases h.symm.trans h'; rfl
    | crashed h' => cases h.symm.trans h'
    | breakpoint h' _ => cases h.symm.trans h'
  | crashed h =>
    cases h' with
    | faulted h' => cases h.symm.trans h'
    | crashed h' => rfl
    | breakpoint h' _ => cases h.symm.trans h'
  | breakpoint h _ =>
    cases h' with
    | faulted h' => cases h.symm.trans h'
    | crashed h' => cases h.symm.trans h'
    | breakpoint => rfl

theorem Passes.not_waits {k : Nat} (h : Passes b m k) : ¬ (m.stepped k).Waits := by
  intro hw
  cases h.1.symm.trans (step_awaitingKey_iff.mpr hw)

/-- The number of steps and the result are determined. -/
theorem StopsAt.unique {n n' : Nat} {result result' : RunEnd} (h : StopsAt b m n result)
    (h' : StopsAt b m n' result') : n = n' ∧ result = result' := by
  obtain ⟨k, rfl, hp, he⟩ := h
  obtain ⟨k', rfl, hp', he'⟩ := h'
  rcases Nat.lt_trichotomy k k' with hlt | rfl | hlt
  · exact absurd (hp' k hlt) he.not_passes
  · exact ⟨rfl, he.unique he'⟩
  · exact absurd (hp k' hlt) he'.not_passes

theorem StopsAt.lt_of_passes {n i : Nat} {result : RunEnd} (h : StopsAt b m n result) (hi : ∀ j < i, Passes b m j) :
    i < n := by
  obtain ⟨k, rfl, -, he⟩ := h
  exact Nat.lt_succ_of_le (Nat.le_of_not_lt fun hlt => he.not_passes (hi k hlt))

end Machine

/-! ## Phases of the loop -/

namespace RunLoop

/-- A loop keeps the breakpoints it was started with. -/
theorem act_fst (stop : Bool) (m : Machine) (phase : Phase) (b : Breakpoints) :
    (act stop m ⟨phase, b⟩).1 = ⟨(act stop m ⟨phase, b⟩).1.phase, b⟩ := by
  cases phase <;> rfl

end RunLoop

def Phase.executes : Phase → Bool
  | .execute => true
  | _ => false

/-- After `acts` actions a loop on a machine `m` has executed `steps` instructions and is in the given phase, with the
given machine. -/
inductive Follows (b : Breakpoints) (m : Machine) : (acts steps : Nat) → Phase → Machine → Prop
  | ready {k : Nat} : (∀ j < k, m.Passes b j) → Follows b m (4 * k) k .ready (m.stepped k)
  | execute {k : Nat} : (∀ j < k, m.Passes b j) → Follows b m (4 * k + 1) k .execute (m.stepped k)
  | check {k : Nat} : (∀ j < k, m.Passes b j) → (m.stepped k).step.1 = .executed →
      Follows b m (4 * k + 2) (k + 1) (.check (m.stepped (k + 1)).pc) (m.stepped (k + 1))
  | compare {k : Nat} : (∀ j < k, m.Passes b j) → (m.stepped k).step.1 = .executed →
      Follows b m (4 * k + 3) (k + 1) (.compare (m.stepped (k + 1)).pc) (m.stepped (k + 1))
  | keyWait {k acts : Nat} : (∀ j < k, m.Passes b j) → (m.stepped k).Waits →
      Follows b m acts (k + 1) (.keyWait (m.stepped (k + 1)).pc) (m.stepped (k + 1))
  | ended {k acts : Nat} {result : RunEnd} : (∀ j < k, m.Passes b j) → m.Ends b k result →
      Follows b m acts (k + 1) (.ended result) (m.stepped (k + 1))

namespace Follows

variable {b : Breakpoints} {m m' : Machine} {acts steps : Nat} {phase : Phase}

/-- An action of a loop that nobody has asked to stop. -/
theorem act (h : Follows b m acts steps phase m') :
    Follows b m (acts + 1) (steps + phase.executes.toNat) (RunLoop.act false m' ⟨phase, b⟩).1.phase
      (RunLoop.act false m' ⟨phase, b⟩).2.1 := by
  cases h with
  | ready hp => exact .execute hp
  | execute hp =>
    show Follows b m _ (steps + 1) (RunLoop.execute (m.stepped steps)).1 (RunLoop.execute (m.stepped steps)).2.1
    rw [RunLoop.execute_machine, RunLoop.execute_phase]
    cases ho : (m.stepped steps).step.1 with
    | executed => exact .check hp ho
    | awaitingKey => exact .keyWait hp (Machine.step_awaitingKey_iff.mp ho)
    | faulted f => exact .ended hp (.faulted ho)
    | crashed message => exact .ended hp (.crashed ho)
  | check hp he => exact .compare hp he
  | @compare k hp he =>
    cases hb : b.contains (m.stepped (k + 1)).pc with
    | true =>
      simp only [RunLoop.act, RunLoop.compare, hb]
      exact .ended hp (.breakpoint he hb)
    | false =>
      simp only [RunLoop.act, RunLoop.compare, hb]
      show Follows b m (4 * (k + 1)) (k + 1) .ready (m.stepped (k + 1))
      refine .ready fun j hj => ?_
      rcases Nat.lt_succ_iff_lt_or_eq.mp hj with hj | rfl
      · exact hp j hj
      · exact ⟨he, hb⟩
  | @keyWait k acts hp hw =>
    -- no key is held, so the loop looks at the keypad again
    have hm : m.stepped (k + 1) = m.stepped k := by rw [Machine.stepped, Machine.step_of_waits hw]
    have hk : (m.stepped (k + 1)).keypad.lowest? = none := by
      rw [hm]
      exact Keypad.lowest?_eq_none_iff.mpr hw.2
    simp only [RunLoop.act, Keypad.look, hk]
    exact .keyWait hp hw
  | ended hp he => exact .ended hp he

theorem machine_eq (h : Follows b m acts steps phase m') : m' = m.stepped steps := by
  cases h <;> rfl

/-- What a loop that has ended ended with. -/
theorem stopsAt {result : RunEnd} (h : Follows b m acts steps (.ended result) m') : m.StopsAt b steps result := by
  cases h with
  | @ended k _ _ hp he => exact ⟨k, rfl, hp, he⟩

/-- Only the first instruction of a run may stand at a breakpoint. -/
theorem clear_of_execute (h : Follows b m acts steps .execute m') (hs : 0 < steps) : b.contains m'.pc = false := by
  cases h with
  | execute hp =>
    obtain ⟨k, rfl⟩ := Nat.exists_eq_succ_of_ne_zero (Nat.ne_of_gt hs)
    exact (hp k (Nat.lt_succ_self k)).2

/-- At the beginning of a round all steps so far have passed. -/
theorem passes_of_ready (h : Follows b m acts steps .ready m') : ∀ j < steps, m.Passes b j := by
  cases h with
  | ready hp => exact hp

theorem steps_le {n : Nat} {result : RunEnd} (h : Follows b m acts steps phase m') (hs : m.StopsAt b n result) :
    steps ≤ n := by
  cases h with
  | ready hp | execute hp => exact Nat.le_of_lt (hs.lt_of_passes hp)
  | check hp _ | compare hp _ | keyWait hp _ | ended hp _ => exact hs.lt_of_passes hp

/-- A loop that has acted often enough has ended if the direct steps stop. -/
theorem ended_of_stopsAt {n : Nat} {result : RunEnd} (h : Follows b m acts steps phase m')
    (hs : m.StopsAt b n result) (ha : 4 * n ≤ acts) : phase = .ended result ∧ steps = n := by
  cases h with
  | ready hp | execute hp | check hp _ | compare hp _ =>
    have := hs.lt_of_passes hp
    omega
  | @keyWait i _ hp hw =>
    -- the machine would wait at step `i`, but all steps up to the last one pass and that one ends the run
    have hi := hs.lt_of_passes hp
    obtain ⟨k, rfl, hk, he⟩ := hs
    rcases Nat.lt_or_eq_of_le (Nat.le_of_lt_succ hi) with hlt | rfl
    · exact absurd hw (hk i hlt).not_waits
    · exact absurd hw he.not_waits
  | ended hp he =>
    obtain ⟨hn, rfl⟩ := Machine.StopsAt.unique ⟨_, rfl, hp, he⟩ hs
    exact ⟨rfl, hn⟩

end Follows

namespace Runner

/-! ## Counting -/

/-- The runner after `n` direct steps. -/
def stepped (r : Runner) : Nat → Runner
  | 0 => r
  | n + 1 => (r.stepped n).step.2

/-- Whether the event makes the loop execute an instruction. -/
def executes (r : Runner) (e : Event) : Bool := e.isAct && r.loop.any fun l => l.phase.executes

theorem stepped_of_idle {r : Runner} (idle : r.isLive = false) (n : Nat) :
    (r.stepped n).isLive = false ∧ (r.stepped n).machine = r.machine.stepped n := by
  induction n with
  | zero => exact ⟨idle, rfl⟩
  | succ n ih =>
    refine ⟨?_, ?_⟩
    · rw [stepped, isLive, (r.stepped n).step_loop.1]
      exact ih.1
    · rw [stepped, step_of_idle ih.1, ih.2]
      rfl

section Rounds

variable {r : Runner}

/-- A loop at the beginning of a round. -/
theorem loop_of_isReady (h : r.isReady = true) : ∃ b, r.loop = some ⟨.ready, b⟩ := by
  rw [isReady] at h
  cases hl : r.loop with
  | none => rw [hl] at h; cases h
  | some l =>
    rw [hl] at h
    obtain ⟨phase, b⟩ := l
    cases phase with
    | ready => exact ⟨b, rfl⟩
    | _ => cases h

theorem not_executes_of_isReady (h : r.isReady = true) (e : Event) : r.executes e = false := by
  obtain ⟨b, hl⟩ := loop_of_isReady h
  rw [executes, hl]
  exact Bool.and_false _

theorem executes_act_of_isReady (h : r.isReady = true) (hs : r.stopRequested = false) :
    r.act.executes .act = true := by
  obtain ⟨b, hl⟩ := loop_of_isReady h
  rw [executes, act_loop hl, hs]
  rfl

/-- A loop that has ended neither begins a round nor executes anything. -/
theorem of_not_isLive (h : r.isLive = false) : r.isReady = false ∧ r.executes .act = false := by
  rw [isReady, executes]
  cases hl : r.loop with
  | none => exact ⟨rfl, rfl⟩
  | some l =>
    rw [isLive, hl] at h
    obtain ⟨phase, b⟩ := l
    cases phase with
    | ended => exact ⟨rfl, rfl⟩
    | _ => cases h

end Rounds

/-! ## Runs -/

/-- A run of a machine `m` that nobody has asked to stop, after so many actions and instructions. -/
structure Tracks (b : Breakpoints) (m : Machine) (acts steps : Nat) (r : Runner) : Prop where
  stop : r.stopRequested = false
  loop : ∃ phase, r.loop = some ⟨phase, b⟩ ∧ Follows b m acts steps phase r.machine

namespace Tracks

variable {b : Breakpoints} {m : Machine} {acts steps : Nat} {r : Runner}

theorem start (idle : r.isLive = false) (started : r.refusal = none) :
    Tracks r.breakpoints r.machine 0 0 r.start.2 := by
  obtain ⟨hstop, hloop⟩ := start_of_idle idle started
  refine ⟨hstop, .ready, hloop, ?_⟩
  rw [r.start_machine]
  exact .ready fun j hj => absurd hj (Nat.not_lt_zero j)

theorem happen {e : Event} (he : e.Passive) (h : Tracks b m acts steps r) :
    Tracks b m (acts + Event.acts [e]) (steps + (r.executes e).toNat) (r.happen e) := by
  obtain ⟨hstop, phase, hloop, hf⟩ := h
  refine ⟨(r.happen_stopRequested he.run he.stop).trans hstop, ?_⟩
  cases ha : e.isAct with
  | true =>
    obtain rfl := Event.eq_act_of_isAct ha
    have hx : r.executes .act = phase.executes := by
      rw [executes, hloop]
      rfl
    refine ⟨(RunLoop.act false r.machine ⟨phase, b⟩).1.phase, ?_, ?_⟩
    · show r.act.loop = _
      rw [act_loop hloop, hstop]
      exact congrArg some (RunLoop.act_fst false r.machine phase b)
    · show Follows b m (acts + 1) _ _ r.act.machine
      rw [act_machine_eq hloop, hstop, hx]
      exact hf.act
  | false =>
    have hx : r.executes e = false := by rw [executes, ha, Bool.false_and]
    refine ⟨phase, ((r.happen_run ha he.run).1).trans hloop, ?_⟩
    rw [Event.acts_of_not_isAct ha, hx, r.happen_machine ha he]
    exact hf

theorem machine_eq (h : Tracks b m acts steps r) : r.machine = m.stepped steps := by
  obtain ⟨-, phase, -, hf⟩ := h
  exact hf.machine_eq

theorem stopsAt {result : RunEnd} (h : Tracks b m acts steps r) (hr : r.result? = some result) :
    m.StopsAt b steps result := by
  obtain ⟨-, phase, hloop, hf⟩ := h
  rw [result?, hloop] at hr
  cases phase with
  | ended result' =>
    cases hr
    exact hf.stopsAt
  | _ => cases hr

theorem ended_of_stopsAt {n : Nat} {result : RunEnd} (h : Tracks b m acts steps r) (hs : m.StopsAt b n result)
    (ha : 4 * n ≤ acts) : r.result? = some result ∧ steps = n := by
  obtain ⟨-, phase, hloop, hf⟩ := h
  obtain ⟨rfl, rfl⟩ := hf.ended_of_stopsAt hs ha
  exact ⟨result?_of_loop hloop, rfl⟩

theorem passes_of_isReady (h : Tracks b m acts steps r) (hr : r.isReady = true) : ∀ j < steps, m.Passes b j := by
  obtain ⟨-, phase, hloop, hf⟩ := h
  rw [isReady, hloop] at hr
  cases phase with
  | ready => exact hf.passes_of_ready
  | _ => cases hr

theorem steps_le {n : Nat} {result : RunEnd} (h : Tracks b m acts steps r) (hs : m.StopsAt b n result) : steps ≤ n := by
  obtain ⟨-, phase, -, hf⟩ := h
  exact hf.steps_le hs

theorem clear_of_executes (h : Tracks b m acts steps r) (hx : r.executes .act = true) (hs : 0 < steps) :
    b.contains r.machine.pc = false := by
  obtain ⟨-, phase, hloop, hf⟩ := h
  rw [executes, hloop] at hx
  cases phase with
  | execute => exact hf.clear_of_execute hs
  | _ => cases hx

end Tracks

end Runner

end Chip8
