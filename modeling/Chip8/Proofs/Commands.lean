import Chip8.Proofs.Alike

/-!
# What a command touches

Every command is about one thing (`Command.concern`): the breakpoints, the machine, the run, or nothing that it could
change. While no loop is live it leaves all the rest alone (`Touches`); what it does to the machine hangs on the machine
only (`execute_congr_machine`), and what it does to the breakpoints on these only (`execute_congr_breakpoints`). So a
sequence of commands falls apart into those about the machine and those about the breakpoints, and neither sees the
others (`after_machine`, `after_breakpoints`). `commands_touch` collects this, with what is refused beside a live loop.
-/

namespace Chip8.Debugger

/-! ## What commands are about -/

/-- What a command may change. -/
inductive Concern
  | nothing
  | breakpoints
  | machine
  | run
  deriving DecidableEq

/-- A value out of range is not written. -/
def Command.concern : Command → Concern
  | .listBreakpoints | .mem .. | .disasm .. | .quit => .nothing
  | .setBreakpoint _ | .clearBreakpoint _ | .clearBreakpoints => .breakpoints
  | .step => .machine
  | .set target value => if target.limit < value.toNat then .nothing else .machine
  | .run | .pause => .run

/-! ## Writing a register -/

/-- What a register holds. -/
def Target.valueIn : Target → Machine → UInt16
  | .v x, m => (m.reg x).toUInt16
  | .i, m => m.i
  | .pc, m => m.pc

/-- One register holds the value, and nothing else has changed. -/
structure Written (target : Target) (value : UInt16) (m m' : Machine) : Prop where
  value : target.valueIn m' = value
  others {other : Target} : other ≠ target → other.valueIn m' = other.valueIn m
  rest : m' = { m with pc := m'.pc, i := m'.i, v := m'.v }

theorem toUInt16_toUInt8 {value : UInt16} (h : value.toNat ≤ 0xFF) : value.toUInt8.toUInt16 = value := by
  refine UInt16.toNat_inj.mp ?_
  rw [UInt8.toNat_toUInt16, UInt16.toNat_toUInt8]
  omega

/-- A value in range is what the register holds then. -/
theorem written_write {target : Target} {value : UInt16} (m : Machine) (h : value.toNat ≤ target.limit) :
    Written target value m (target.write value m) := by
  cases target with
  | v x =>
    refine ⟨?_, fun {other} hne => ?_, rfl⟩
    · simp only [Target.valueIn, Target.write, Machine.reg_setReg, if_true]
      exact toUInt16_toUInt8 h
    · cases other with
      | v y =>
        have hxy : x ≠ y := fun e => hne (congrArg Target.v e.symm)
        simp only [Target.valueIn, Target.write, Machine.reg_setReg, if_neg hxy]
      | i | pc => rfl
  | i =>
    refine ⟨rfl, fun {other} hne => ?_, rfl⟩
    cases other with
    | i => exact absurd rfl hne
    | v | pc => rfl
  | pc =>
    refine ⟨rfl, fun {other} hne => ?_, rfl⟩
    cases other with
    | pc => exact absurd rfl hne
    | v | i => rfl

/-! ## Stepping -/

/-- The answer to a step that ended so. -/
def stepAnswer : Outcome → Except CommandError Reply
  | .executed => .ok .ok
  | .awaitingKey => .ok .awaitingKey
  | .faulted f => .error (.engine (.fault f))
  | .crashed message => .error (.crashed message)

section Idle

variable {r : Runner}

theorem execute_step (idle : r.isLive = false) :
    execute r .step = (stepAnswer r.machine.step.1, { r with machine := r.machine.step.2 }) := by
  rw [execute, step, Runner.step_of_idle idle]
  cases r.machine.step.1 <;> rfl

theorem execute_set {target : Target} {value : UInt16} (h : value.toNat ≤ target.limit) :
    execute r (.set target value) = (.ok .ok, { r with machine := target.write value r.machine }) :=
  if_neg (Nat.not_lt.mpr h)

theorem execute_set_outOfRange {target : Target} {value : UInt16} (h : target.limit < value.toNat) :
    execute r (.set target value) = (.error (.outOfRange target value), r) :=
  if_pos h

/-- A loop that is not live does nothing. -/
theorem act_of_idle (idle : r.isLive = false) : r.act = r := by
  obtain ⟨m, stop, b, loop, journal⟩ := r
  cases loop with
  | none => rfl
  | some l =>
    obtain ⟨phase, b'⟩ := l
    cases phase with
    | ended result => rfl
    | ready | execute | keyWait pc | check pc | compare pc => cases idle

/-- A pause without a live loop takes the result of the last run, if it is still there. -/
theorem pause_of_idle (idle : r.isLive = false) :
    (execute r .pause).2.machine = r.machine ∧ (execute r .pause).2.breakpoints = r.breakpoints ∧
      (execute r .pause).2.isLive = false := by
  have hact : r.requestStop.act = r.requestStop := act_of_idle idle
  have hstop : r.stop.2 = (r.requestStop.collect.2).log (.stopped r.requestStop.collect.1) := by
    simp only [Runner.stop, hact]
  rw [execute, r.debugger_pause_snd, hstop]
  exact ⟨rfl, rfl, rfl⟩

/-! ## What a command leaves alone -/

/-- Whether a value is written hangs on its range. -/
theorem concern_set (target : Target) (value : UInt16) :
    (target.limit < value.toNat ∧ (Command.set target value).concern = .nothing) ∨
      value.toNat ≤ target.limit ∧ (Command.set target value).concern = .machine := by
  by_cases h : target.limit < value.toNat
  · exact .inl ⟨h, if_pos h⟩
  · exact .inr ⟨Nat.le_of_not_lt h, if_neg h⟩

theorem execute_of_nothing {c : Command} (hc : c.concern = .nothing) : (execute r c).2 = r := by
  cases c with
  | listBreakpoints | mem | disasm | quit => rfl
  | set target value =>
    rcases concern_set target value with ⟨h, -⟩ | ⟨-, h⟩
    · rw [execute_set_outOfRange h]
    · cases hc.symm.trans h
  | run | pause | step | setBreakpoint | clearBreakpoint | clearBreakpoints => cases hc

/-- Only these set or clear breakpoints. -/
theorem cases_of_breakpoints {c : Command} (hc : c.concern = .breakpoints) :
    (∃ a, c = .setBreakpoint a) ∨ (∃ a, c = .clearBreakpoint a) ∨ c = .clearBreakpoints := by
  cases c with
  | setBreakpoint a => exact .inl ⟨a, rfl⟩
  | clearBreakpoint a => exact .inr (.inl ⟨a, rfl⟩)
  | clearBreakpoints => exact .inr (.inr rfl)
  | set target value => rcases concern_set target value with ⟨-, h⟩ | ⟨-, h⟩ <;> cases hc.symm.trans h
  | run | pause | step | listBreakpoints | mem | disasm | quit => cases hc

/-- Commands about the machine are a step and a write in range. -/
theorem cases_of_machine {c : Command} (hc : c.concern = .machine) :
    c = .step ∨ ∃ target value, c = .set target value ∧ value.toNat ≤ target.limit := by
  cases c with
  | step => exact .inl rfl
  | set target value =>
    rcases concern_set target value with ⟨-, h⟩ | ⟨h, -⟩
    · cases hc.symm.trans h
    · exact .inr ⟨target, value, rfl, h⟩
  | run | pause | setBreakpoint | clearBreakpoint | listBreakpoints | clearBreakpoints | mem | disasm | quit => cases hc

theorem cases_of_run {c : Command} (hc : c.concern = .run) : c = .run ∨ c = .pause := by
  cases c with
  | run => exact .inl rfl
  | pause => exact .inr rfl
  | set target value => rcases concern_set target value with ⟨-, h⟩ | ⟨-, h⟩ <;> cases hc.symm.trans h
  | step | setBreakpoint | clearBreakpoint | listBreakpoints | clearBreakpoints | mem | disasm | quit => cases hc

theorem execute_of_breakpoints {c : Command} (hc : c.concern = .breakpoints) :
    (execute r c).2 = { r with breakpoints := (execute r c).2.breakpoints } := by
  rcases cases_of_breakpoints hc with ⟨a, rfl⟩ | ⟨a, rfl⟩ | rfl <;> rfl

theorem execute_of_machine (idle : r.isLive = false) {c : Command} (hc : c.concern = .machine) :
    (execute r c).2 = { r with machine := (execute r c).2.machine } := by
  rcases cases_of_machine hc with rfl | ⟨target, value, rfl, h⟩
  · rw [execute_step idle]
  · rw [execute_set h]

theorem execute_of_run (idle : r.isLive = false) {c : Command} (hc : c.concern = .run) :
    (execute r c).2.machine = r.machine ∧ (execute r c).2.breakpoints = r.breakpoints := by
  rcases cases_of_run hc with rfl | rfl
  · rw [execute, r.debugger_run_snd]
    exact ⟨r.start_machine, r.start_breakpoints⟩
  · exact ⟨(pause_of_idle idle).1, (pause_of_idle idle).2.1⟩

/-- A command that does not start a run leaves none live. -/
theorem execute_idle (idle : r.isLive = false) {c : Command} (hc : c ≠ .run) : (execute r c).2.isLive = false := by
  cases h : c.concern with
  | nothing =>
    rw [execute_of_nothing h]
    exact idle
  | breakpoints =>
    rw [execute_of_breakpoints h]
    exact idle
  | machine =>
    rw [execute_of_machine idle h]
    exact idle
  | run =>
    rcases cases_of_run h with rfl | rfl
    · exact absurd rfl hc
    · exact (pause_of_idle idle).2.2

/-- Only a command about the machine changes the machine. -/
theorem execute_machine (idle : r.isLive = false) {c : Command} (hc : c.concern ≠ .machine) :
    (execute r c).2.machine = r.machine := by
  cases h : c.concern with
  | nothing => rw [execute_of_nothing h]
  | breakpoints => rw [execute_of_breakpoints h]
  | machine => exact absurd h hc
  | run => exact (execute_of_run idle h).1

/-- Only a command about the breakpoints changes the breakpoints. -/
theorem execute_breakpoints (idle : r.isLive = false) {c : Command} (hc : c.concern ≠ .breakpoints) :
    (execute r c).2.breakpoints = r.breakpoints := by
  cases h : c.concern with
  | nothing => rw [execute_of_nothing h]
  | breakpoints => exact absurd h hc
  | machine => rw [execute_of_machine idle h]
  | run => exact (execute_of_run idle h).2

/-! ## What a command hangs on -/

variable {r' : Runner}

theorem execute_congr_machine (idle : r.isLive = false) (idle' : r'.isLive = false) (same : r'.machine = r.machine)
    {c : Command} (hc : c.concern = .machine) :
    (execute r' c).1 = (execute r c).1 ∧ (execute r' c).2.machine = (execute r c).2.machine := by
  rcases cases_of_machine hc with rfl | ⟨target, value, rfl, h⟩
  · rw [execute_step idle, execute_step idle', same]
    exact ⟨rfl, rfl⟩
  · rw [execute_set h, execute_set h, same]
    exact ⟨rfl, rfl⟩

theorem execute_congr_breakpoints (same : r'.breakpoints = r.breakpoints) {c : Command}
    (hc : c.concern = .breakpoints) : (execute r' c).2.breakpoints = (execute r c).2.breakpoints := by
  rcases cases_of_breakpoints hc with ⟨a, rfl⟩ | ⟨a, rfl⟩ | rfl
  · simp only [execute, same]
  · simp only [execute, same]
  · rfl

end Idle

/-! ## Sequences -/

/-- The answers to the steps in a sequence of commands. -/
def stepAnswers : Runner → List Command → List (Except CommandError Reply)
  | _, [] => []
  | r, c :: rest => (if c = .step then [(execute r c).1] else []) ++ stepAnswers (execute r c).2 rest

/-- The commands of a sequence that are about one thing. -/
def about (concern : Concern) (cs : List Command) : List Command := cs.filter (·.concern = concern)

section Sequences

variable {r r' : Runner} {cs : List Command}

theorem about_cons_of_eq {concern : Concern} {c : Command} (h : c.concern = concern) (rest : List Command) :
    about concern (c :: rest) = c :: about concern rest :=
  List.filter_cons_of_pos (decide_eq_true h)

theorem about_cons_of_ne {concern : Concern} {c : Command} (h : c.concern ≠ concern) (rest : List Command) :
    about concern (c :: rest) = about concern rest :=
  List.filter_cons_of_neg (by simpa using h)

/-- Runners with the same machine, one of which takes the commands about the machine alone. -/
theorem after_machine (idle : r.isLive = false) (idle' : r'.isLive = false) (same : r'.machine = r.machine)
    (calm : .run ∉ cs) :
    (r'.after ((about .machine cs).map .command)).machine = (r.after (cs.map .command)).machine ∧
      stepAnswers r' (about .machine cs) = stepAnswers r cs := by
  induction cs generalizing r r' with
  | nil => exact ⟨same, rfl⟩
  | cons c rest ih =>
    have hrun : c ≠ .run := fun e => calm (e ▸ .head _)
    have hrest : .run ∉ rest := fun h => calm (.tail _ h)
    have hidle := execute_idle idle hrun
    by_cases hc : c.concern = .machine
    · obtain ⟨hanswer, hmachine⟩ := execute_congr_machine idle idle' same hc
      obtain ⟨hafter, hanswers⟩ := ih hidle (execute_idle idle' hrun) hmachine hrest
      rw [about_cons_of_eq hc]
      refine ⟨hafter, ?_⟩
      rw [stepAnswers, stepAnswers, hanswer, hanswers]
    · have hstep : c ≠ .step := fun e => hc (e ▸ rfl)
      obtain ⟨hafter, hanswers⟩ := ih hidle idle' (same.trans (execute_machine idle hc).symm) hrest
      rw [about_cons_of_ne hc]
      refine ⟨hafter, ?_⟩
      rw [stepAnswers, if_neg hstep, hanswers]
      rfl

/-- Runners with the same breakpoints, one of which takes the commands about the breakpoints alone. -/
theorem after_breakpoints (idle : r.isLive = false) (same : r'.breakpoints = r.breakpoints) (calm : .run ∉ cs) :
    (r'.after ((about .breakpoints cs).map .command)).breakpoints = (r.after (cs.map .command)).breakpoints := by
  induction cs generalizing r r' with
  | nil => exact same
  | cons c rest ih =>
    have hrun : c ≠ .run := fun e => calm (e ▸ .head _)
    have hrest : .run ∉ rest := fun h => calm (.tail _ h)
    have hidle := execute_idle idle hrun
    by_cases hc : c.concern = .breakpoints
    · rw [about_cons_of_eq hc]
      exact ih hidle (execute_congr_breakpoints same hc) hrest
    · rw [about_cons_of_ne hc]
      exact ih hidle (same.trans (execute_breakpoints idle hc).symm) hrest

end Sequences

/-! ## Every state -/

/-- What each command touches while no loop is live. -/
structure Touches (r : Runner) : Prop where
  nothing {c : Command} : c.concern = .nothing → (execute r c).2 = r
  breakpoints {c : Command} : c.concern = .breakpoints →
    (execute r c).2 = { r with breakpoints := (execute r c).2.breakpoints }
  setBreakpoint (a x : UInt16) :
    x ∈ (execute r (.setBreakpoint a)).2.breakpoints.addresses ↔ x = a ∨ x ∈ r.breakpoints.addresses
  clearBreakpoint (a x : UInt16) :
    x ∈ (execute r (.clearBreakpoint a)).2.breakpoints.addresses ↔ x ≠ a ∧ x ∈ r.breakpoints.addresses
  clearBreakpoints : (execute r .clearBreakpoints).2.breakpoints = .empty
  set {target : Target} {value : UInt16} : value.toNat ≤ target.limit →
    ∃ m, execute r (.set target value) = (.ok .ok, { r with machine := m }) ∧ Written target value r.machine m
  outOfRange {target : Target} {value : UInt16} : target.limit < value.toNat →
    execute r (.set target value) = (.error (.outOfRange target value), r)
  step : execute r .step = (stepAnswer r.machine.step.1, { r with machine := r.machine.step.2 })
  /-- A random source that has failed has been asked; nothing else of the machine has changed. -/
  fault {f : Fault} : r.machine.step.1 = .faulted f → execute r .step =
    (.error (.engine (.fault f)), { r with machine := if f.lasts then r.machine else r.machine.ask })

theorem touches {r : Runner} (idle : r.isLive = false) : Touches r where
  nothing := execute_of_nothing
  breakpoints := execute_of_breakpoints
  setBreakpoint _ _ := Breakpoints.mem_insert
  clearBreakpoint _ _ := Breakpoints.mem_erase
  clearBreakpoints := rfl
  set h := ⟨_, execute_set h, written_write r.machine h⟩
  outOfRange := execute_set_outOfRange
  step := execute_step idle
  fault h := by
    rw [execute_step idle, Machine.step_of_faults (Machine.step_faulted_iff.mp h)]
    rfl

/-- A step is refused, and a run is taken to be the one that is live. -/
structure Refuses (r : Runner) : Prop where
  step : execute r .step = (.error (.engine .busy), r)
  run : execute r .run = (.ok .ok, r)

theorem refuses {r : Runner} (live : r.isLive = true) : Refuses r where
  step := by rw [execute, Debugger.step, Runner.step_of_isLive live]
  run := by rw [execute, Debugger.run, Runner.start_of_live live]

/-- What a sequence of commands comes to is what those about the machine and those about the breakpoints come to. -/
structure FallsApart (r : Runner) (cs : List Command) : Prop where
  machine : (r.after (cs.map .command)).machine = (r.after ((about .machine cs).map .command)).machine
  answers : stepAnswers r cs = stepAnswers r (about .machine cs)
  breakpoints : (r.after (cs.map .command)).breakpoints = (r.after ((about .breakpoints cs).map .command)).breakpoints

/-- **A command touches only what it names**, whether a loop is live or not; and of a sequence of commands without a
run, only its steps and its writes in range count for the machine and for the answers to the steps, and only the
commands that set and clear breakpoints for these. -/
theorem commands_touch :
    (∀ r : Runner, r.isLive = false → Touches r) ∧ (∀ r : Runner, r.isLive = true → Refuses r) ∧
      ∀ (r : Runner) (cs : List Command), r.isLive = false → .run ∉ cs → FallsApart r cs := by
  refine ⟨fun r idle => touches idle, fun r live => refuses live, fun r cs idle calm => ?_⟩
  obtain ⟨hmachine, hanswers⟩ := after_machine idle idle rfl calm
  exact ⟨hmachine.symm, hanswers.symm, (after_breakpoints idle rfl calm).symm⟩

/-- A runner whose program asks for a byte and then meets no instruction. -/
def asksOnce : Runner :=
  .ofMachine { Machine.initial Config.standard (.scripted [.byte 9]) with
    memory := Memory.initial.writeMany 0x200 [0xC1, 0xFF, 0x00, 0x00] }

/-- Commands of all kinds but a run. -/
def someCommands : List Command :=
  [.setBreakpoint 0x300, .step, .set (.v 2) 256, .mem 0 4, .set (.v 2) 255, .pause, .disasm none 2, .step,
    .listBreakpoints, .clearBreakpoint 0x204]

theorem commands_touch_asksOnce :
    (asksOnce.isLive = false ∧ Touches asksOnce) ∧ (asksOnce.start.2.isLive = true ∧ Refuses asksOnce.start.2) ∧
      (.run ∉ someCommands ∧ FallsApart asksOnce someCommands) ∧
      about .machine someCommands = [.step, .set (.v 2) 255, .step] ∧
      (stepAnswers asksOnce someCommands).map Except.toOption = [some .ok, none] := by
  have live : asksOnce.start.2.isLive = true := by decide +kernel
  have calm : .run ∉ someCommands := by decide +kernel
  exact ⟨⟨rfl, commands_touch.1 _ rfl⟩, ⟨live, commands_touch.2.1 _ live⟩,
    ⟨calm, commands_touch.2.2 _ _ rfl calm⟩, by decide +kernel, by decide +kernel⟩

end Chip8.Debugger
