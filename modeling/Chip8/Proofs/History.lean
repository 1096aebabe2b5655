import Chip8.Debugger
import Chip8.Proofs.Control

/-!
# Histories of a runner

All that may happen to a runner is an `Event`: its loop acts, its host calls it, the keypad or the timers change, the
debugger carries out a command, the system comes to refuse threads. A history is a list of events, the oldest first
(`Runner.after`).

- `Machine.Stable c P`: what holds of a machine with settings `c` still holds after a step, a change of the keypad and a
  tick of the timers. It holds after every history that edits nothing (`Stable.after`).
- `Machine.Invariant c P`: it also holds after a load and after a write of the debugger, so after every history
  (`Invariant.after`).
-/

namespace Chip8

/-- What may happen to a runner. -/
inductive Event
  /-- The loop does its next action. -/
  | act
  | start
  | requestStop
  | stop
  /-- The host waits for the loop to end. -/
  | collect
  | poll
  | step
  | load (program : List UInt8)
  | setKeys (mask : UInt16)
  | tick
  | command (c : Debugger.Command)
  /-- From now on the system starts no thread and gives this cause, or it starts threads again. -/
  | refuse (cause : Option String)

namespace Event

def isAct : Event → Bool
  | .act => true
  | _ => false

theorem eq_act_of_isAct {e : Event} (h : e.isAct = true) : e = .act := by
  cases e with
  | act => rfl
  | _ => cases h

/-- The actions of the loop in a history. -/
def acts (history : List Event) : Nat := history.countP isAct

theorem acts_append (h h' : List Event) : acts (h ++ h') = acts h + acts h' := List.countP_append

theorem acts_cons (e : Event) (h : List Event) : acts (e :: h) = acts [e] + acts h := acts_append [e] h

theorem acts_replicate (n : Nat) : acts (List.replicate n .act) = n := by
  rw [acts, List.countP_replicate]
  rfl

theorem acts_of_not_isAct {e : Event} (h : e.isAct = false) : acts [e] = 0 :=
  List.countP_cons_of_neg (Bool.eq_false_iff.mp h)

/-- Whether the host starts a run or takes the result of one. -/
def callsRun : Event → Bool
  | .start | .stop | .collect | .poll | .command .run | .command .pause => true
  | _ => false

/-- Whether the host asks a run to stop and does not wait for it. -/
def asksStop : Event → Bool
  | .requestStop => true
  | _ => false

/-- Whether the host, the keypad or the timers may change the machine. -/
def callsMachine : Event → Bool
  | .step | .load _ | .setKeys _ | .tick | .command .step | .command (.set ..) => true
  | _ => false

/-- The loop acts, or something happens that concerns neither the run nor the machine: the host edits the breakpoints or
only reads, or the system has another answer for the next run. -/
structure Passive (e : Event) : Prop where
  run : e.callsRun = false
  stop : e.asksStop = false
  machine : e.callsMachine = false

/-- Whether the event writes the memory or a register of a machine with these settings. -/
def edits (c : Config) : Event → Bool
  | .load program => decide (c.programOffset.toNat + program.length ≤ Memory.size)
  | .command (.set target value) => decide (value.toNat ≤ target.limit)
  | _ => false

end Event

namespace Runner

/-- The runner after an event. A call that is refused, or that has to wait, changes nothing. -/
def happen (r : Runner) : Event → Runner
  | .act => r.act
  | .start => r.start.2
  | .requestStop => r.requestStop
  | .stop => r.stop.2
  | .collect => if r.isLive then r else r.collect.2
  | .poll => r.poll.2
  | .step => r.step.2
  | .load program =>
    match r.load program with
    | .ok loaded => loaded
    | .error _ => r
  | .setKeys mask => r.setKeys mask
  | .tick => r.tick
  | .command c => (Debugger.execute r c).2
  | .refuse cause => { r with refusal := cause }

/-- The runner after a history. -/
def after (r : Runner) (history : List Event) : Runner := history.foldl happen r

@[simp] theorem after_nil (r : Runner) : r.after [] = r := rfl

@[simp] theorem after_cons (r : Runner) (e : Event) (h : List Event) : r.after (e :: h) = (r.happen e).after h := rfl

theorem after_append (r : Runner) (h h' : List Event) : r.after (h ++ h') = (r.after h).after h' :=
  List.foldl_append

end Runner

/-! ## One action -/

namespace RunLoop

/-- The phase after an instruction, by the outcome of its step. -/
theorem execute_phase (m : Machine) :
    (execute m).1 =
      match m.step.1 with
      | .executed => .check m.step.2.pc
      | .awaitingKey => .keyWait m.step.2.pc
      | .faulted f => .ended (.faulted f)
      | .crashed _ => .ended .crashed := by
  unfold execute
  split <;> rename_i h <;> rw [h]

theorem execute_machine (m : Machine) : (execute m).2.1 = m.step.2 := by
  unfold execute
  split <;> rename_i h <;> rw [h]

end RunLoop

namespace Runner

section Act

variable {r : Runner} {l : RunLoop}

theorem act_loop (h : r.loop = some l) : r.act.loop = some (l.act r.stopRequested r.machine).1 := by
  obtain ⟨m, stop, b, loop, journal, refusal⟩ := r
  cases h
  rfl

theorem act_machine_eq (h : r.loop = some l) : r.act.machine = (l.act r.stopRequested r.machine).2.1 := by
  obtain ⟨m, stop, b, loop, journal, refusal⟩ := r
  cases h
  rfl

theorem act_stopRequested (r : Runner) : r.act.stopRequested = r.stopRequested := by
  obtain ⟨m, stop, b, loop, journal, refusal⟩ := r
  cases loop <;> rfl

end Act

/-- An action of the loop is a step of the machine or leaves it alone. -/
theorem act_machine (r : Runner) : r.act.machine = r.machine ∨ r.act.machine = r.machine.step.2 := by
  obtain ⟨m, stop, b, loop, journal, refusal⟩ := r
  cases loop with
  | none => exact .inl rfl
  | some l =>
    obtain ⟨phase, b'⟩ := l
    cases phase with
    | execute => exact .inr (RunLoop.execute_machine m)
    | _ => exact .inl rfl

/-! ## One call of the host -/

theorem logUncollected_machine (r : Runner) : r.logUncollected.machine = r.machine := by
  unfold logUncollected
  split <;> rfl

theorem logUncollected_breakpoints (r : Runner) : r.logUncollected.breakpoints = r.breakpoints := by
  unfold logUncollected
  split <;> rfl

theorem logUncollected_refusal (r : Runner) : r.logUncollected.refusal = r.refusal := by
  unfold logUncollected
  split <;> rfl

theorem launch_of_refused {r : Runner} {cause : String} (h : r.refusal = some cause) :
    r.launch = (.error (.spawn "CPU" cause), { r with stopRequested := false, loop := none }) := by
  simp only [launch, h, startThread]

theorem launch_of_started {r : Runner} (h : r.refusal = none) :
    r.launch = (.ok (),
      { r with
        stopRequested := false
        loop := some (.start r.breakpoints)
        journal := .running r.machine.config.cpuPeriod :: r.journal }) := by
  simp only [launch, h, startThread]
  rfl

theorem launch_machine (r : Runner) : r.launch.2.machine = r.machine ∧ r.launch.2.breakpoints = r.breakpoints := by
  cases h : r.refusal with
  | some cause => rw [launch_of_refused h]; exact ⟨rfl, rfl⟩
  | none => rw [launch_of_started h]; exact ⟨rfl, rfl⟩

theorem start_of_live {r : Runner} (live : r.isLive = true) : r.start = (.ok (), r) := if_pos live

theorem start_of_not_live {r : Runner} (h : r.isLive = false) : r.start = r.logUncollected.launch :=
  if_neg (Bool.eq_false_iff.mp h)

theorem start_machine (r : Runner) : r.start.2.machine = r.machine := by
  cases h : r.isLive with
  | true => rw [start_of_live h]
  | false => rw [start_of_not_live h, (launch_machine _).1, r.logUncollected_machine]

theorem start_breakpoints (r : Runner) : r.start.2.breakpoints = r.breakpoints := by
  cases h : r.isLive with
  | true => rw [start_of_live h]
  | false => rw [start_of_not_live h, (launch_machine _).2, r.logUncollected_breakpoints]

/-- What a call to run makes of a runner whose loop is not live. -/
theorem start_of_idle {r : Runner} (h : r.isLive = false) (started : r.refusal = none) :
    r.start.2.stopRequested = false ∧ r.start.2.loop = some (.start r.breakpoints) := by
  rw [start_of_not_live h, launch_of_started (r.logUncollected_refusal.trans started)]
  exact ⟨rfl, congrArg (fun b => some (RunLoop.start b)) r.logUncollected_breakpoints⟩

/-- A run that the system refuses leaves no loop. -/
theorem start_of_refused {r : Runner} {cause : String} (h : r.isLive = false) (refused : r.refusal = some cause) :
    r.start.1 = .error (.spawn "CPU" cause) ∧ r.start.2.loop = none := by
  rw [start_of_not_live h, launch_of_refused (r.logUncollected_refusal.trans refused)]
  exact ⟨rfl, rfl⟩

theorem poll_machine (r : Runner) : r.poll.2.machine = r.machine := by
  unfold poll
  split <;> rfl

theorem step_of_isLive {r : Runner} (h : r.isLive = true) : r.step = (.error .busy, r) := by
  unfold step
  rw [if_pos h]

theorem step_of_idle {r : Runner} (h : r.isLive = false) :
    r.step = (.ok r.machine.step.1, { r with machine := r.machine.step.2 }) := by
  unfold step
  rw [h]
  rfl

theorem step_machine (r : Runner) : r.step.2.machine = r.machine ∨ r.step.2.machine = r.machine.step.2 := by
  cases h : r.isLive with
  | true => exact .inl (by rw [step_of_isLive h])
  | false => exact .inr (by rw [step_of_idle h])

/-- A step of the host has nothing to do with the loop. -/
theorem step_loop (r : Runner) : r.step.2.loop = r.loop ∧ r.step.2.stopRequested = r.stopRequested := by
  unfold step
  split <;> exact ⟨rfl, rfl⟩

/-- What the debugger's step leaves is what the runner's step leaves. -/
theorem debugger_step_snd (r : Runner) : (Debugger.step r).2 = r.step.2 := by
  unfold Debugger.step
  split <;> rename_i h <;> rw [h]

/-- What the debugger's run leaves is what the runner's start leaves. -/
theorem debugger_run_snd (r : Runner) : (Debugger.run r).2 = r.start.2 := by
  unfold Debugger.run
  split <;> rename_i h <;> rw [h]

theorem debugger_pause_snd (r : Runner) : (Debugger.pause r).2 = r.stop.2 := by
  unfold Debugger.pause
  dsimp only
  split <;> rfl

/-! ## Events that leave something alone -/

/-- Only the loop itself and calls about a run change the loop and the stop request. -/
theorem happen_run (r : Runner) {e : Event} (ha : e.isAct = false) (hr : e.callsRun = false) :
    (r.happen e).loop = r.loop ∧ (e.asksStop = false → (r.happen e).stopRequested = r.stopRequested) := by
  cases e with
  | act => cases ha
  | start | stop | collect | poll => cases hr
  | requestStop => exact ⟨rfl, fun hs => nomatch hs⟩
  | step => exact ⟨r.step_loop.1, fun _ => r.step_loop.2⟩
  | load program =>
    simp only [happen, load]
    cases r.machine.load program <;> exact ⟨rfl, fun _ => rfl⟩
  | setKeys | tick | refuse => exact ⟨rfl, fun _ => rfl⟩
  | command c =>
    cases c with
    | run | pause => cases hr
    | step =>
      simp only [happen, Debugger.execute, debugger_step_snd]
      exact ⟨r.step_loop.1, fun _ => r.step_loop.2⟩
    | set target value =>
      simp only [happen, Debugger.execute]
      split <;> exact ⟨rfl, fun _ => rfl⟩
    | _ => exact ⟨rfl, fun _ => rfl⟩

/-- No action of the loop changes the stop request. -/
theorem happen_stopRequested (r : Runner) {e : Event} (hr : e.callsRun = false) (hs : e.asksStop = false) :
    (r.happen e).stopRequested = r.stopRequested := by
  cases ha : e.isAct with
  | false => exact (r.happen_run ha hr).2 hs
  | true =>
    obtain rfl := Event.eq_act_of_isAct ha
    exact r.act_stopRequested

/-- Of the passive events only the actions of the loop change the machine. -/
theorem happen_machine (r : Runner) {e : Event} (ha : e.isAct = false) (he : e.Passive) :
    (r.happen e).machine = r.machine := by
  obtain ⟨hr, -, hm⟩ := he
  cases e with
  | act => cases ha
  | start | stop | collect | poll => cases hr
  | requestStop | refuse => rfl
  | step | load | setKeys | tick => cases hm
  | command c =>
    cases c with
    | run | pause => cases hr
    | step | set => cases hm
    | _ => rfl

/-! ## A loop that has ended -/

/-- A loop that has ended stays until its result is taken. -/
theorem happen_loop_of_ended {r : Runner} {e : Event} {result : RunEnd} {b : Breakpoints}
    (h : r.loop = some ⟨.ended result, b⟩) (hr : e.callsRun = false) : (r.happen e).loop = r.loop := by
  cases ha : e.isAct with
  | false => exact (r.happen_run ha hr).1
  | true =>
    obtain rfl := Event.eq_act_of_isAct ha
    show r.act.loop = r.loop
    rw [act_loop h, h]
    rfl

theorem result?_of_loop {r : Runner} {result : RunEnd} {b : Breakpoints} (h : r.loop = some ⟨.ended result, b⟩) :
    r.result? = some result := by
  unfold result?
  rw [h]
  rfl

end Runner

/-! ## What lasts -/

namespace Machine

/-- What holds of a machine whatever is done to it but editing. -/
structure Stable (c : Config) (P : Machine → Prop) : Prop where
  config_eq {m : Machine} : P m → m.config = c
  step {m : Machine} : P m → P m.step.2
  setKeys {m : Machine} (mask : UInt16) : P m → P (m.setKeys mask)
  tick {m : Machine} : P m → P m.tick

/-- What holds of a machine whatever is done to it. -/
structure Invariant (c : Config) (P : Machine → Prop) : Prop extends Stable c P where
  load {m loaded : Machine} {program : List UInt8} : P m → m.load program = .ok loaded → P loaded
  write {m : Machine} {target : Debugger.Target} {value : UInt16} :
    P m → value.toNat ≤ target.limit → P (target.write value m)

namespace Stable

variable {c : Config} {P : Machine → Prop} {r : Runner}

theorem act (hP : Stable c P) (h : P r.machine) : P r.act.machine := by
  rcases r.act_machine with e | e <;> rw [e]
  · exact h
  · exact hP.step h

theorem runner_step (hP : Stable c P) (h : P r.machine) : P r.step.2.machine := by
  rcases r.step_machine with e | e <;> rw [e]
  · exact h
  · exact hP.step h

theorem stop (hP : Stable c P) (h : P r.machine) : P r.stop.2.machine := by
  have h' : P r.requestStop.machine := h
  exact hP.act (hP.act (hP.act h'))

theorem happen (hP : Stable c P) {e : Event} (he : e.edits c = false) (h : P r.machine) :
    P (r.happen e).machine := by
  cases e with
  | act => exact hP.act h
  | start => exact r.start_machine ▸ h
  | requestStop => exact h
  | stop => exact hP.stop h
  | collect =>
    show P (if r.isLive then r else r.collect.2).machine
    split <;> exact h
  | poll => exact r.poll_machine ▸ h
  | step => exact hP.runner_step h
  | load program =>
    -- only a refused program edits nothing
    have hfit : ¬ r.machine.config.programOffset.toNat + program.length ≤ Memory.size := by
      rw [hP.config_eq h]
      exact of_decide_eq_false he
    simp only [Runner.happen, Runner.load, Machine.load, if_neg hfit]
    exact h
  | setKeys mask => exact hP.setKeys mask h
  | tick => exact hP.tick h
  | refuse => exact h
  | command cmd =>
    cases cmd with
    | run =>
      show P (Debugger.run r).2.machine
      rw [r.debugger_run_snd]
      exact r.start_machine ▸ h
    | pause =>
      show P (Debugger.pause r).2.machine
      rw [r.debugger_pause_snd]
      exact hP.stop h
    | step =>
      show P (Debugger.step r).2.machine
      rw [r.debugger_step_snd]
      exact hP.runner_step h
    | set target value =>
      have hv : target.limit < value.toNat := Nat.lt_of_not_le (of_decide_eq_false he)
      simp only [Runner.happen, Debugger.execute, if_pos hv]
      exact h
    | _ => exact h

theorem after (hP : Stable c P) {history : List Event} (he : ∀ e ∈ history, e.edits c = false) (h : P r.machine) :
    P (r.after history).machine := by
  induction history generalizing r with
  | nil => exact h
  | cons e rest ih => exact ih (fun e' h' => he e' (.tail e h')) (hP.happen (he e (.head rest)) h)

end Stable

namespace Invariant

variable {c : Config} {P : Machine → Prop} {r : Runner}

theorem happen (hP : Invariant c P) (e : Event) (h : P r.machine) : P (r.happen e).machine := by
  cases he : e.edits c with
  | false => exact hP.toStable.happen he h
  | true =>
    cases e with
    | load program =>
      simp only [Runner.happen, Runner.load]
      cases hl : r.machine.load program with
      | ok loaded => exact hP.load h hl
      | error _ => exact h
    | command cmd =>
      cases cmd with
      | set target value =>
        have hv : ¬ target.limit < value.toNat := Nat.not_lt.mpr (of_decide_eq_true he)
        simp only [Runner.happen, Debugger.execute, if_neg hv]
        exact hP.write h (Nat.le_of_not_lt hv)
      | _ => cases he
    | _ => cases he

theorem after (hP : Invariant c P) (history : List Event) (h : P r.machine) : P (r.after history).machine := by
  induction history generalizing r with
  | nil => exact h
  | cons e rest ih => exact ih (hP.happen e h)

end Invariant

theorem config_invariant (c : Config) : Invariant c fun m => m.config = c where
  config_eq h := h
  step h := (step_config _).trans h
  setKeys _ h := h
  tick h := h
  load {m loaded program} h hl := by
    unfold Machine.load at hl
    dsimp only at hl
    split at hl <;> cases hl
    exact h
  write {m target value} h _ := by
    cases target <;> exact h

end Machine

/-- Nothing that happens to a runner changes the settings of its machine. -/
theorem Runner.happen_config (r : Runner) (e : Event) : (r.happen e).machine.config = r.machine.config :=
  (Machine.config_invariant r.machine.config).happen e rfl

end Chip8
