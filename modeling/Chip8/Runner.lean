import Chip8.RunLoop

/-!
# The runner

A machine with its breakpoints and at most one run loop. The host starts and stops the loop, collects its result once,
and steps the machine itself while no loop is live. A loop that has ended stays until its result is collected. The loop
runs on a thread of its own, which the system may refuse (`Runner.launch`). Nothing is said here of the time that
passes between its actions; `Paced` is a runner with a clock.
-/

namespace Chip8

structure Runner where
  machine : Machine
  stopRequested : Bool
  breakpoints : Breakpoints
  loop : Option RunLoop
  /-- What was logged, the newest first. -/
  journal : List LogEntry
  /-- Why the system starts no thread at present; none if it does. -/
  refusal : Option String

namespace Runner

def ofMachine (m : Machine) : Runner := ⟨m, false, .empty, none, [], none⟩

def log (r : Runner) (e : LogEntry) : Runner := { r with journal := e :: r.journal }

/-- The result of a loop that has ended and was not collected. -/
def result? (r : Runner) : Option RunEnd := r.loop.bind RunLoop.result?

/-- Whether a loop has not ended. -/
def isLive (r : Runner) : Bool := r.loop.any fun l => l.result?.isNone

/-! ## The loop -/

/-- The next action of the loop. -/
def act : Runner → Runner
  | ⟨m, stop, b, some l, journal, refusal⟩ =>
    let (l, m, entry) := l.act stop m
    ⟨m, stop, b, some l, entry.toList ++ journal, refusal⟩
  | r => r

/-! ## Host calls -/

/-- Removes the loop and gives its result, `stopped` if there is no loop. -/
def collect (r : Runner) : RunEnd × Runner := (r.result?.getD .stopped, { r with loop := none })

/-- Collects the result of a loop that has ended. -/
def poll (r : Runner) : Option RunEnd × Runner :=
  match r.result? with
  | some result => (some result, { r with loop := none })
  | none => (none, r)

/-- Logs the error of an earlier run that nobody collected. -/
def logUncollected (r : Runner) : Runner :=
  match r.result?.bind RunEnd.error? with
  | some e => r.log (.restarted e)
  | none => r

/-- Withdraws the last request to stop and starts a loop at the program counter on a thread of its own. -/
def launch (r : Runner) : Except EngineError Unit × Runner :=
  let r := { r with stopRequested := false, loop := none }
  match startThread "CPU" r.refusal with
  | .error e => (.error e, r)
  | .ok () =>
    (.ok (), ({ r with loop := some (.start r.breakpoints) }).log (.running r.machine.config.cpuPeriod))

/-- Starts a loop, unless one is live. What the last one left is collected before. -/
def start (r : Runner) : Except EngineError Unit × Runner :=
  if r.isLive then (.ok (), r) else r.logUncollected.launch

def requestStop (r : Runner) : Runner := { r with stopRequested := true }

/-- Requests a stop, lets the loop do the actions that are left to it, and collects the result. -/
def stop (r : Runner) : RunEnd × Runner :=
  let (result, r) := r.requestStop.act.act.act.collect
  (result, r.log (.stopped result))

/-- Why a step was refused, or how it ended. -/
def step (r : Runner) : Except EngineError Outcome × Runner :=
  if r.isLive then (.error .busy, r)
  else
    let (outcome, m) := r.machine.step
    (.ok outcome, { r with machine := m })

/-- Ends the runner; a loop that is left is stopped. -/
def close (r : Runner) : Runner := if r.loop.isSome then r.stop.2 else r

/-! ## Edits between two instructions -/

def edit (r : Runner) (f : Machine → Machine) : Runner := { r with machine := f r.machine }

def load (r : Runner) (program : List UInt8) : Except LoadError Runner :=
  match r.machine.load program with
  | .ok m => .ok (({ r with machine := m }).log (.loaded program.length m.config.programOffset))
  | .error e => .error e

def setKeys (r : Runner) (mask : UInt16) : Runner := r.edit (·.setKeys mask)

def tick (r : Runner) : Runner := r.edit Machine.tick

end Runner

end Chip8
