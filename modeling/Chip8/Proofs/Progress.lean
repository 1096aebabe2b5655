import Chip8.Proofs.KeyWait
import Chip8.Proofs.Pace

/-!
# Runs that end at a breakpoint

A run is started at any program counter, also at a breakpoint: the breakpoints are compared after the first instruction.
But they are compared after a wait for a key too, and then the instruction has still to be done. So a run that starts at
a breakpoint at which an instruction waits for a key may end there with nothing executed, as often as it is started.

`Underway m b executed now` is the invariant: what a run of `m` with breakpoints `b` has come to after so many executed
instructions. As long as there are none the machine is `m` up to the keypad and the timers, and the loop is past its
first try only if that waited for a key. One event keeps this (`Underway.happen`), so a history does
(`Underway.after`).
-/

namespace Chip8

/-- The loop has tried an instruction and not yet gone back to look at the stop request. -/
def Phase.hasTried : Phase → Bool
  | .keyWait _ | .check _ | .compare _ => true
  | _ => false

/-- Only the comparison ends a loop at a breakpoint. -/
theorem RunLoop.compare_of_result? {stop : Bool} {m : Machine} {phase : Phase} {b : Breakpoints} {a : UInt16}
    (live : RunLoop.result? ⟨phase, b⟩ = none) (h : (RunLoop.act stop m ⟨phase, b⟩).1.result? = some (.breakpoint a)) :
    phase = .compare a ∧ b.contains a = true := by
  cases phase with
  | ended result => cases live
  | ready | check pc =>
    cases stop <;> cases h
  | keyWait pc =>
    simp only [act] at h
    split at h <;> cases h
  | execute =>
    replace h : RunLoop.result? ⟨(RunLoop.execute m).1, b⟩ = some (.breakpoint a) := h
    rw [execute_phase] at h
    cases ho : m.step.1 with
    | _ => rw [ho] at h; cases h
  | compare pc =>
    cases hb : b.contains pc with
    | true =>
      simp only [act, compare, hb, if_true] at h
      cases h
      exact ⟨rfl, hb⟩
    | false =>
      simp only [act, compare, hb] at h
      cases h

namespace Runner

/-! ## Runs -/

/-- The loop is live before each event of a history and after the last one. -/
def livesThrough (r : Runner) : List Event → Bool
  | [] => r.isLive
  | e :: rest => r.isLive && (r.happen e).livesThrough rest

/-- The number of instructions that the loop executes in a history and that are then done. -/
def executedIn (r : Runner) : List Event → Nat
  | [] => 0
  | e :: rest => (r.completes e).toNat + (r.happen e).executedIn rest

/-- The run that `r` starts lives through the history, and the event after it ends the run. Nothing in the history edits
the machine. -/
structure EndsIn (r : Runner) (history : List Event) (last : Event) (result : RunEnd) : Prop where
  unedited : ∀ e ∈ history, e.edits r.machine.config = false
  live : r.start.2.livesThrough history = true
  ends : ((r.start.2.after history).happen last).result? = some result

/-- The next instruction stands at a breakpoint and waits for a key. -/
structure WaitsAtBreakpoint (r : Runner) : Prop where
  decode : ∃ x, Instruction.decode r.machine.fetch = .waitKey x
  contains : r.breakpoints.contains r.machine.pc = true

/-! ## Events beside the loop -/

theorem isLive_of_ended {r : Runner} {result : RunEnd} {b : Breakpoints} (h : r.loop = some ⟨.ended result, b⟩) :
    r.isLive = false := by
  rw [isLive, h]
  rfl

/-- What leaves the loop live and edits nothing leaves it and the machine alone, up to the keypad and the timers. -/
theorem happen_of_live_after {r : Runner} {e : Event} (live : r.isLive = true) (ha : e.isAct = false)
    (he : e.edits r.machine.config = false) (still : (r.happen e).isLive = true) :
    (r.happen e).loop = r.loop ∧ r.machine.Alike (r.happen e).machine := by
  cases hs : e.stops with
  | false =>
    obtain ⟨hl, -, hm⟩ := happen_of_live live ha hs he
    exact ⟨hl, hm⟩
  | true =>
    cases e with
    | requestStop => exact ⟨rfl, .refl _⟩
    | stop => cases still
    | command c =>
      cases c with
      | pause =>
        rw [happen, Debugger.execute, debugger_pause_snd] at still
        cases still
      | _ => cases hs
    | _ => cases hs

/-- Only an action of a live loop ends it with a result. -/
theorem eq_act_of_result? {r : Runner} {e : Event} {result : RunEnd} (live : r.isLive = true)
    (h : (r.happen e).result? = some result) : e = .act := by
  have same (hr : r.happen e = r) : e = .act := by
    rw [hr, result?_of_live live] at h
    cases h
  have gone (hl : (r.happen e).loop = none) : e = .act := by
    rw [result?, hl] at h
    cases h
  cases hr : e.callsRun with
  | false =>
    cases ha : e.isAct with
    | true => exact Event.eq_act_of_isAct ha
    | false =>
      rw [result?, (r.happen_run ha hr).1] at h
      cases (result?_of_live live).symm.trans h
  | true =>
    cases e with
    | start => exact same (by rw [happen, start_of_live live])
    | collect => exact same (if_pos live)
    | poll => exact same (by rw [happen, poll_of_live live])
    | stop => exact gone rfl
    | command c =>
      cases c with
      | run => exact same (by rw [happen, Debugger.execute, debugger_run_snd, start_of_live live])
      | pause => exact gone (by rw [happen, Debugger.execute, debugger_pause_snd]; rfl)
      | _ => cases hr
    | _ => cases hr

/-! ## The invariant of a run -/

/-- A run of `m` with breakpoints `b`, after so many executed instructions. -/
structure Underway (m : Machine) (b : Breakpoints) (executed : Nat) (now : Runner) : Prop where
  config : now.machine.config = m.config
  loop : ∃ phase, now.loop = some ⟨phase, b⟩ ∧ phase.IsAt now.machine.pc ∧
    (executed = 0 → phase.hasTried = true → ∃ x, Instruction.decode m.fetch = .waitKey x)
  alike : executed = 0 → m.Alike now.machine

namespace Underway

variable {m : Machine} {b : Breakpoints} {executed : Nat} {now : Runner}

theorem start {r : Runner} (idle : r.isLive = false) (live : r.start.2.isLive = true) :
    Underway r.machine r.breakpoints 0 r.start.2 where
  config := by rw [r.start_machine]
  loop := by
    cases hr : r.refusal with
    | some cause =>
      rw [isLive, (start_of_refused idle hr).2] at live
      cases live
    | none => exact ⟨.ready, (start_of_idle idle hr).2, trivial, fun _ ht => absurd ht Bool.false_ne_true⟩
  alike := fun _ => r.start_machine ▸ .refl _

/-- Phases in which the machine stays as it is. -/
theorem of_same (h : Underway m b executed now) {now' : Runner} {phase : Phase} (hm : now'.machine = now.machine)
    (hl : now'.loop = some ⟨phase, b⟩) (hat : phase.IsAt now.machine.pc)
    (htried : executed = 0 → phase.hasTried = true → ∃ x, Instruction.decode m.fetch = .waitKey x) :
    Underway m b executed now' where
  config := by rw [hm]; exact h.config
  loop := ⟨phase, hl, by rw [hm]; exact hat, htried⟩
  alike := fun h0 => by rw [hm]; exact h.alike h0

/-- One action of the loop. -/
theorem act (h : Underway m b executed now) (still : now.act.isLive = true) :
    Underway m b (executed + (now.completes .act).toNat) now.act := by
  obtain ⟨phase, hl, hat, htried⟩ := h.loop
  have hloop := act_loop hl
  have hmachine := act_machine_eq hl
  have hexecutes : now.executes .act = phase.executes := by
    rw [executes, hl]
    rfl
  have ended {result : RunEnd} (he : now.act.loop = some ⟨.ended result, b⟩) : False := by
    cases (isLive_of_ended he).symm.trans still
  cases phase with
  | ended result => cases hat
  | execute =>
    have hx : now.completes .act = decide (now.machine.step.1 = .executed) := by rw [completes, hexecutes]; rfl
    have hm : now.act.machine = now.machine.step.2 := hmachine.trans (RunLoop.execute_machine _)
    have hl' : now.act.loop = some ⟨(RunLoop.execute now.machine).1, b⟩ := hloop
    rw [RunLoop.execute_phase] at hl'
    cases ho : now.machine.step.1 with
    | executed =>
      rw [ho] at hl'
      have hone : executed + (now.completes .act).toNat ≠ 0 := by
        rw [hx, ho]
        exact Nat.succ_ne_zero executed
      exact ⟨by rw [hm, now.machine.step_config]; exact h.config,
        ⟨_, hl', by rw [hm]; rfl, fun h0 => absurd h0 hone⟩, fun h0 => absurd h0 hone⟩
    | awaitingKey =>
      have hw := Machine.step_awaitingKey_iff.mp ho
      rw [ho, Machine.step_of_waits hw] at hl'
      rw [Machine.step_of_waits hw] at hm
      rw [hx, ho]
      refine h.of_same hm hl' rfl fun h0 _ => ⟨Word.x now.machine.fetch, ?_⟩
      rw [← (h.alike h0).fetch_eq]
      exact Instruction.decode_eq_waitKey_iff.mpr ⟨hw.1, rfl⟩
    | faulted f =>
      rw [ho] at hl'
      exact (ended hl').elim
    | crashed message =>
      rw [ho] at hl'
      exact (ended hl').elim
  | ready =>
    rw [completes, hexecutes]
    cases hs : now.stopRequested with
    | true =>
      rw [hs] at hloop
      exact (ended hloop).elim
    | false =>
      rw [hs] at hloop
      exact h.of_same hmachine hloop trivial fun _ ht => absurd ht Bool.false_ne_true
  | keyWait a =>
    rw [completes, hexecutes]
    refine h.of_same hmachine hloop ?_ fun h0 _ => htried h0 rfl
    cases hat
    split <;> rfl
  | check a =>
    rw [completes, hexecutes]
    cases hs : now.stopRequested with
    | true =>
      rw [hs] at hloop
      exact (ended hloop).elim
    | false =>
      rw [hs] at hloop
      exact h.of_same hmachine hloop hat fun h0 _ => htried h0 rfl
  | compare a =>
    rw [completes, hexecutes]
    cases hb : b.contains a with
    | true =>
      simp only [RunLoop.act, RunLoop.compare, hb] at hloop
      exact (ended hloop).elim
    | false =>
      simp only [RunLoop.act, RunLoop.compare, hb] at hloop
      exact h.of_same hmachine hloop trivial fun _ ht => absurd ht Bool.false_ne_true

/-- One event. -/
theorem happen (h : Underway m b executed now) {e : Event} (live : now.isLive = true)
    (he : e.edits m.config = false) (still : (now.happen e).isLive = true) :
    Underway m b (executed + (now.completes e).toNat) (now.happen e) := by
  cases ha : e.isAct with
  | true =>
    obtain rfl := Event.eq_act_of_isAct ha
    exact h.act still
  | false =>
    have hx : now.completes e = false := by rw [completes, executes, ha]; rfl
    obtain ⟨hl, hm⟩ := happen_of_live_after live ha (by rw [h.config]; exact he) still
    obtain ⟨phase, hphase, hat, htried⟩ := h.loop
    rw [hx]
    exact ⟨hm.config_eq.trans h.config, ⟨phase, hl.trans hphase, by rw [hm.pc_eq]; exact hat, htried⟩,
      fun h0 => (h.alike h0).trans hm⟩

theorem after (h : Underway m b executed now) {history : List Event} (he : ∀ e ∈ history, e.edits m.config = false)
    (live : now.livesThrough history = true) :
    Underway m b (executed + now.executedIn history) (now.after history) ∧ (now.after history).isLive = true := by
  induction history generalizing now executed with
  | nil => exact ⟨h, live⟩
  | cons e rest ih =>
    obtain ⟨hlive, hrest⟩ := Bool.and_eq_true_iff.mp live
    have hstill : (now.happen e).isLive = true := by
      cases rest with
      | nil => exact hrest
      | cons => exact (Bool.and_eq_true_iff.mp hrest).1
    rw [executedIn, ← Nat.add_assoc]
    exact ih (h.happen hlive (he e (.head rest)) hstill) (fun e' h' => he e' (.tail e h')) hrest

/-- How a run comes to end at a breakpoint. -/
theorem ends (h : Underway m b executed now) {e : Event} {a : UInt16} (live : now.isLive = true)
    (hr : (now.happen e).result? = some (.breakpoint a)) :
    b.contains a = true ∧ (now.happen e).machine = now.machine ∧ now.machine.pc = a ∧
      (executed = 0 → m.Alike now.machine ∧ ∃ x, Instruction.decode m.fetch = .waitKey x) := by
  obtain rfl := eq_act_of_result? live hr
  obtain ⟨phase, hl, hat, htried⟩ := h.loop
  have hnone : RunLoop.result? ⟨phase, b⟩ = none := by
    have hn := result?_of_live live
    rwa [result?, hl] at hn
  replace hr : now.act.result? = some (.breakpoint a) := hr
  rw [result?, act_loop hl] at hr
  obtain ⟨rfl, hb⟩ := RunLoop.compare_of_result? hnone hr
  exact ⟨hb, act_machine_eq hl, hat.symm, fun h0 => ⟨h.alike h0, htried h0 rfl⟩⟩

end Underway

/-! ## The end of a run -/

/-- A run that ends at a breakpoint stands at it, and has executed something unless the machine is at the key wait at
which it started. -/
theorem progress_of_endsIn {r : Runner} (idle : r.isLive = false) {history : List Event} {last : Event} {a : UInt16}
    (h : r.EndsIn history last (.breakpoint a)) :
    r.breakpoints.contains a = true ∧ ((r.start.2.after history).happen last).machine.pc = a ∧
      (0 < r.start.2.executedIn history ∨
        r.WaitsAtBreakpoint ∧ r.machine.Alike ((r.start.2.after history).happen last).machine) := by
  have hlive : r.start.2.isLive = true := by
    have hl := h.live
    cases history with
    | nil => exact hl
    | cons => exact (Bool.and_eq_true_iff.mp hl).1
  obtain ⟨hunderway, hstill⟩ := (Underway.start idle hlive).after h.unedited h.live
  obtain ⟨hb, hm, hpc, hzero⟩ := hunderway.ends hstill h.ends
  rw [Nat.zero_add] at hzero
  refine ⟨hb, by rw [hm]; exact hpc, ?_⟩
  rcases Nat.eq_zero_or_pos (r.start.2.executedIn history) with h0 | hpos
  · obtain ⟨halike, hdecode⟩ := hzero h0
    refine .inr ⟨⟨hdecode, ?_⟩, by rw [hm]; exact halike⟩
    rw [← halike.pc_eq, hpc]
    exact hb
  · exact .inl hpos

/-! ## Waking at a breakpoint -/

/-- The loop is in this phase on this machine, and nobody has asked it to stop. -/
structure At (m : Machine) (b : Breakpoints) (phase : Phase) (r : Runner) : Prop where
  machine : r.machine = m
  stop : r.stopRequested = false
  loop : r.loop = some ⟨phase, b⟩

namespace At

variable {m m' : Machine} {b : Breakpoints} {phase phase' : Phase} {r : Runner}

theorem act (h : r.At m b phase) (hl : (RunLoop.act false m ⟨phase, b⟩).1 = ⟨phase', b⟩)
    (hm : (RunLoop.act false m ⟨phase, b⟩).2.1 = m') : (r.happen .act).At m' b phase' where
  machine := by
    show r.act.machine = m'
    rw [act_machine_eq h.loop, h.stop, h.machine, hm]
  stop := r.act_stopRequested.trans h.stop
  loop := by
    show r.act.loop = _
    rw [act_loop h.loop, h.stop, h.machine, hl]

theorem setKeys (h : r.At m b phase) (mask : UInt16) : (r.happen (.setKeys mask)).At (m.setKeys mask) b phase where
  machine := congrArg (·.setKeys mask) h.machine
  stop := h.stop
  loop := h.loop

theorem isLive (h : r.At m b phase) (hp : RunLoop.result? ⟨phase, b⟩ = none) : r.isLive = true := by
  rw [Runner.isLive, h.loop, Option.any_some, hp]
  rfl

theorem isReady (h : r.At m b phase) : r.isReady = phase.isReady := by
  rw [Runner.isReady, h.loop]
  rfl

theorem not_completes (h : r.At m b phase) (hp : phase.executes = false ∨ m.step.1 ≠ .executed) (e : Event) :
    r.completes e = false := by
  rw [completes, executes, h.loop, h.machine]
  rcases hp with hp | hp
  · rw [Option.any_some, hp, Bool.and_false, Bool.false_and]
  · rw [decide_eq_false hp, Bool.and_false]

end At

/-- The keys are let go, the loop waits, and a key is pressed. -/
def wakeUp : List Event := [.setKeys 0, .act, .act, .setKeys 1, .act, .act]

theorem wakeUp_of_at {r : Runner} {m : Machine} {b : Breakpoints} {x : Nibble} (h : r.At m b .ready)
    (hd : Instruction.decode m.fetch = .waitKey x) (hb : b.contains m.pc = true) :
    r.livesThrough wakeUp = true ∧ r.executedIn wakeUp = 0 ∧ r.roundsIn (wakeUp ++ [.act]) = 1 ∧
      ((r.after wakeUp).happen .act).result? = some (.breakpoint m.pc) := by
  -- the try sees no key
  have hwaits : (m.setKeys 0).step = (.awaitingKey, m.setKeys 0) :=
    Machine.step_of_waits (Machine.waits_of_waitKey hd rfl)
  have htry : RunLoop.act false (m.setKeys 0) ⟨.execute, b⟩ =
      (⟨.keyWait m.pc, b⟩, m.setKeys 0, some (.waiting m.pc)) := by
    simp only [RunLoop.act, RunLoop.execute, hwaits]
    rfl
  -- the look sees key 0
  have hlook : RunLoop.act false (m.setKeys 1) ⟨.keyWait m.pc, b⟩ = (⟨.check m.pc, b⟩, m.setKeys 1, none) := by
    have hkey : ((m.setKeys 1).keypad.look false).isSome = true :=
      show (Keypad.look false ⟨1⟩).isSome = true by decide
    rw [RunLoop.act, if_pos hkey]
  have h₁ := h.setKeys 0
  have h₂ : At (m.setKeys 0) b .execute _ := h₁.act rfl rfl
  have h₃ : At (m.setKeys 0) b (.keyWait m.pc) _ := h₂.act (by rw [htry]) (by rw [htry])
  have h₄ : At (m.setKeys 1) b (.keyWait m.pc) _ := h₃.setKeys 1
  have h₅ : At (m.setKeys 1) b (.check m.pc) _ := h₄.act (by rw [hlook]) (by rw [hlook])
  have h₆ : At (m.setKeys 1) b (.compare m.pc) _ := h₅.act rfl rfl
  have h₇ : At (m.setKeys 1) b (.ended (.breakpoint m.pc)) _ := h₆.act (by simp [RunLoop.act, RunLoop.compare, hb]) rfl
  have hunexecuted : (m.setKeys 0).step.1 ≠ .executed := by simp [hwaits]
  refine ⟨?_, ?_, ?_, ?_⟩
  · simp only [wakeUp, livesThrough, h.isLive rfl, h₁.isLive rfl, h₂.isLive rfl, h₃.isLive rfl, h₄.isLive rfl,
      h₅.isLive rfl, h₆.isLive rfl, Bool.and_self]
  · simp only [wakeUp, executedIn, h.not_completes (.inl rfl), h₁.not_completes (.inl rfl),
      h₂.not_completes (.inr hunexecuted), h₃.not_completes (.inl rfl), h₄.not_completes (.inl rfl),
      h₅.not_completes (.inl rfl), Bool.toNat_false]
  · simp only [wakeUp, List.cons_append, List.nil_append, roundsIn, h.isReady, h₁.isReady, h₂.isReady, h₃.isReady,
      h₄.isReady, h₅.isReady, h₆.isReady]
    rfl
  · exact result?_of_loop h₇.loop

/-- A run that starts at a key wait at a breakpoint may end there with nothing executed, if the clock counts to its
first tick. -/
theorem endsIn_wakeUp {r : Runner} (idle : r.isLive = false) (started : r.refusal = none) {first : Duration}
    (counted : (r.nextTick first).isCounted = true) (h : r.WaitsAtBreakpoint) :
    (Paced.start first r).Times (wakeUp ++ [.act]) ∧ r.EndsIn wakeUp .act (.breakpoint r.machine.pc) ∧
      r.start.2.executedIn wakeUp = 0 := by
  obtain ⟨x, hdecode⟩ := h.decode
  obtain ⟨hstop, hloop⟩ := start_of_idle idle started
  have hunedited : ∀ e ∈ wakeUp, e.edits r.machine.config = false := by simp [wakeUp, Event.edits]
  obtain ⟨hlive, hnone, hrounds, hends⟩ := wakeUp_of_at ⟨r.start_machine, hstop, hloop⟩ hdecode h.contains
  have hone : (Paced.start first r).runner.roundsIn (wakeUp ++ [.act]) = 1 := hrounds
  have hmachine : (Paced.start first r).runner.machine = r.machine := r.start_machine
  refine ⟨Paced.times_of_isCounted rfl ?_, ⟨hunedited, hlive, hends⟩, hnone⟩
  rw [hone, hmachine]
  exact counted

/-- A run that ends at a breakpoint stands at one of its breakpoints, and it has executed something unless it started at
a breakpoint at which an instruction waits for a key, and is still there. Just from there a run may end at a breakpoint
with nothing executed; the clock has to count to the first tick, else no run begins its first round. -/
theorem run_progress {r : Runner} (idle : r.isLive = false) :
    (∀ history last a, r.EndsIn history last (.breakpoint a) →
      r.breakpoints.contains a = true ∧ ((r.start.2.after history).happen last).machine.pc = a ∧
        (0 < r.start.2.executedIn history ∨
          r.WaitsAtBreakpoint ∧ r.machine.Alike ((r.start.2.after history).happen last).machine)) ∧
      (r.refusal = none → ∀ first, (r.nextTick first).isCounted = true →
        ((∃ history last a, (Paced.start first r).Times (history ++ [last]) ∧ r.EndsIn history last (.breakpoint a) ∧
          r.start.2.executedIn history = 0) ↔ r.WaitsAtBreakpoint)) := by
  refine ⟨fun history last a h => progress_of_endsIn idle h, fun started first counted => ⟨?_, fun h => ?_⟩⟩
  · rintro ⟨history, last, a, -, h, h0⟩
    rcases (progress_of_endsIn idle h).2.2 with hpos | ⟨hwaits, -⟩
    · omega
    · exact hwaits
  · obtain ⟨htimes, hends, hnone⟩ := endsIn_wakeUp idle started counted h
    exact ⟨_, _, _, htimes, hends, hnone⟩

/-- A runner whose program sets a register and jumps back, with a breakpoint at its first instruction. -/
def jumpsBack : Runner where
  machine := { Machine.initial Config.standard (.scripted []) with
    memory := Memory.zero.writeMany 0x200 [0x60, 0x01, 0x12, 0x00] }
  stopRequested := false
  breakpoints := Breakpoints.empty.insert 0x200
  loop := none
  journal := []
  refusal := none

theorem run_progress_jumpsBack :
    jumpsBack.isLive = false ∧ jumpsBack.EndsIn (List.replicate 7 .act) .act (.breakpoint 0x200) ∧
      0 < jumpsBack.start.2.executedIn (List.replicate 7 .act) := by
  have hends : jumpsBack.EndsIn (List.replicate 7 .act) .act (.breakpoint 0x200) :=
    ⟨by decide +kernel, by decide +kernel, by decide +kernel⟩
  refine ⟨rfl, hends, ?_⟩
  rcases ((run_progress rfl).1 _ _ _ hends).2.2 with hpos | ⟨hwaits, -⟩
  · exact hpos
  · obtain ⟨x, hx⟩ := hwaits.decode
    have hset : Instruction.decode jumpsBack.machine.fetch = .setByte 0 1 := by decide +kernel
    cases hset.symm.trans hx

/-- A runner whose program waits for a key at a breakpoint. -/
def keyAtBreakpoint : Runner where
  machine := { Machine.initial Config.standard (.scripted []) with
    memory := Memory.zero.writeMany 0x200 [0xF3, 0x0A] }
  stopRequested := false
  breakpoints := Breakpoints.empty.insert 0x200
  loop := none
  journal := []
  refusal := none

/-- The loop waits, key 5 is pressed, and the run ends where it started. -/
theorem run_without_progress :
    keyAtBreakpoint.isLive = false ∧
      keyAtBreakpoint.EndsIn [.act, .act, .setKeys 0x20, .act, .act] .act (.breakpoint 0x200) ∧
      keyAtBreakpoint.start.2.executedIn [.act, .act, .setKeys 0x20, .act, .act] = 0 :=
  ⟨rfl, ⟨by decide +kernel, by decide +kernel, by decide +kernel⟩, by decide +kernel⟩

end Runner

end Chip8
