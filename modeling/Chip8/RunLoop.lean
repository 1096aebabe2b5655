import Chip8.Breakpoints
import Chip8.Machine.Step

/-!
# The run loop

The loop that executes instructions beside its host, cut into the actions between which the host and the keypad may
act: look at the stop request, execute one instruction, look at the keypad while the instruction waits for a key, look
at the stop request again, compare the program counter with the breakpoints (`RunLoop.act`). The counter compared is the
one that the instruction left. The breakpoints are those of the moment at which the loop was started.
-/

namespace Chip8

/-- How a run ended. -/
inductive RunEnd
  /-- The host asked for it. -/
  | stopped
  | breakpoint (address : UInt16)
  | faulted (f : Fault)
  /-- The loop broke off: the random source did, or its clock cannot count to the next tick. -/
  | crashed
  deriving DecidableEq, Repr

namespace RunEnd

def error? : RunEnd → Option EngineError
  | faulted f => some (.fault f)
  | crashed => some .crashed
  | _ => none

/-- The end of a run as the log writes it. -/
def record : RunEnd → String
  | stopped => "Ok(Stopped)"
  | breakpoint a => "Ok(Breakpoint \x7b address: " ++ Numeral.decimal 1 a.toNat ++ " \x7d)"
  | faulted f => "Err(" ++ f.record ++ ")"
  | crashed => "Err(WorkerPanicked)"

end RunEnd

/-! ## The log -/

inductive LogLevel
  | error
  | warn
  | info
  | debug
  | trace
  deriving DecidableEq, Repr

/-- What the log tells of. -/
inductive LogEntry
  | loaded (size : Nat) (offset : UInt16)
  | running (period : Duration)
  | stopped (result : RunEnd)
  /-- A run was started while the error of the last one was not collected. -/
  | restarted (e : EngineError)
  | waiting (pc : UInt16)
  | hit (pc : UInt16)
  | halted (f : Fault)
  deriving DecidableEq, Repr

namespace LogEntry

def level : LogEntry → LogLevel
  | loaded .. | running _ | stopped _ => .info
  | restarted _ => .warn
  | waiting _ | hit _ => .debug
  | halted _ => .error

def text : LogEntry → String
  | loaded size offset => "Loaded " ++ Numeral.decimal 1 size ++ " bytes at " ++ addressText offset
  | running period => "CPU running at " ++ period.text ++ " per instruction"
  | stopped result => "CPU stopped: " ++ result.record
  | restarted e => "Restarting after an unreported fault: " ++ e.message
  | waiting pc => "Waiting for a key at " ++ addressText pc
  | hit pc => "Hit breakpoint at " ++ addressText pc
  | halted f => "CPU halted: " ++ f.message

end LogEntry

/-! ## Actions -/

/-- What the loop does next. -/
inductive Phase
  /-- Look at the stop request. -/
  | ready
  /-- Execute one instruction. -/
  | execute
  /-- Look at the keypad; the instruction at `pc` waits for a key. -/
  | keyWait (pc : UInt16)
  /-- Look at the stop request again. -/
  | check (pc : UInt16)
  /-- Compare `pc` with the breakpoints. -/
  | compare (pc : UInt16)
  /-- Nothing. -/
  | ended (result : RunEnd)
  deriving DecidableEq, Repr

structure RunLoop where
  phase : Phase
  breakpoints : Breakpoints
  deriving DecidableEq

namespace RunLoop

def start (breakpoints : Breakpoints) : RunLoop := ⟨.ready, breakpoints⟩

/-- A loop that has broken off. -/
def broken (breakpoints : Breakpoints) : RunLoop := ⟨.ended .crashed, breakpoints⟩

def result? (l : RunLoop) : Option RunEnd :=
  match l.phase with
  | .ended result => some result
  | _ => none

/-- The phase after executing one instruction, the machine, and what is logged. -/
def execute (m : Machine) : Phase × Machine × Option LogEntry :=
  match m.step with
  | (.executed, m) => (.check m.pc, m, none)
  | (.awaitingKey, m) => (.keyWait m.pc, m, some (.waiting m.pc))
  | (.faulted f, m) => (.ended (.faulted f), m, some (.halted f))
  | (.crashed _, m) => (.ended .crashed, m, none)

/-- The phase after comparing `pc` with the breakpoints, and what is logged. -/
def compare (breakpoints : Breakpoints) (pc : UInt16) : Phase × Option LogEntry :=
  if breakpoints.contains pc then (.ended (.breakpoint pc), some (.hit pc)) else (.ready, none)

/-- One action of the loop on the machine, under the present stop request. -/
def act (stop : Bool) (m : Machine) : RunLoop → RunLoop × Machine × Option LogEntry
  | ⟨.ready, b⟩ => (⟨if stop then .ended .stopped else .execute, b⟩, m, none)
  | ⟨.execute, b⟩ =>
    let (phase, m, entry) := execute m
    (⟨phase, b⟩, m, entry)
  | ⟨.keyWait pc, b⟩ => (⟨if (m.keypad.look stop).isSome then .check pc else .keyWait pc, b⟩, m, none)
  | ⟨.check pc, b⟩ => (⟨if stop then .ended .stopped else .compare pc, b⟩, m, none)
  | ⟨.compare pc, b⟩ =>
    let (phase, entry) := compare b pc
    (⟨phase, b⟩, m, entry)
  | ⟨.ended result, b⟩ => (⟨.ended result, b⟩, m, none)

end RunLoop

end Chip8
