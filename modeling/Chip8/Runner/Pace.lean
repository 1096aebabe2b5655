import Chip8.Runner

/-!
# The pace of the loop

Each round of the loop begins with its next tick, which it sets one CPU period after the last one. It sleeps until then
and looks at the stop request; if the tick has gone by already, the next one is counted from the present moment
(`Paced.act`). Moments are what the clock of the host reads, and that counts less than 2 ^ 63 seconds. Where the next
tick is beyond the clock the loop breaks off, whatever it was about to do.
-/

namespace Chip8

namespace Duration

/-- The first second that the clock does not count. -/
def clockEnd : Nat := 0x8000000000000000

/-- Whether the clock counts to a moment. -/
def isCounted (moment : Duration) : Bool := decide (moment.seconds < clockEnd)

end Duration

/-- Whether the loop is at the beginning of a round. -/
def Phase.isReady : Phase → Bool
  | .ready => true
  | _ => false

namespace Runner

def isReady (r : Runner) : Bool := r.loop.any fun l => l.phase.isReady

/-- The loop breaks off. -/
def breakOff (r : Runner) : Runner := { r with loop := r.loop.map fun l => .broken l.breakpoints }

/-- The tick after one at `due`. -/
def nextTick (r : Runner) (due : Duration) : Duration := due.later 1 r.machine.config.cpuPeriod

end Runner

/-- A runner whose loop keeps to its clock. -/
structure Paced where
  runner : Runner
  /-- The last tick, or the next one if that is set. -/
  due : Duration
  /-- Whether the next tick is set in this round. -/
  timed : Bool

namespace Paced

/-- A fresh run, whose first tick is a period after `first`. -/
def start (first : Duration) (r : Runner) : Paced := ⟨r.start.2, first, false⟩

/-- Whether the next action of the loop is to set its next tick. -/
def sets (p : Paced) : Bool := p.runner.isReady && !p.timed

/-- Sets the next tick, or breaks off. The clock is read to see whether that has gone by, and then read again. -/
def pace (now again : Duration) (p : Paced) : Paced :=
  let next := p.runner.nextTick p.due
  if next.isCounted then { p with due := if now ≤ next then next else again, timed := true }
  else { p with runner := p.runner.breakOff }

/-- The next action of the loop, and what the clock reads meanwhile. -/
def act (now again : Duration) (p : Paced) : Paced :=
  if p.sets then p.pace now again else { p with runner := p.runner.act, timed := false }

end Paced

end Chip8
