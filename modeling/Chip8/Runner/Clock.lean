import Chip8.Runner.Pace

/-!
# Time passing

What becomes of a runner whose host leaves it alone. The clocks are ideal: the loop executes one instruction in each CPU
period, and the timers tick as often as whole timer periods have passed. When the loop can do nothing more, only the
timers are left (`Runner.advance`). Moments are counted from one at which the clock of the host reads `origin`.
-/

namespace Chip8.Runner

/-- One instruction of the loop; nothing while it waits for a key or has ended. -/
def cycle (r : Runner) : Runner := r.act.act.act.act

/-- If the loop begins a round at `now`, it sets its next tick. -/
def pace (now : Duration) (r : Runner) : Runner :=
  if r.isReady then (Paced.pace now now ⟨r, now, false⟩).runner else r

/-- Whether the program jumps to the address where it is. -/
def spins (m : Machine) (breakpoints : Breakpoints) : Bool :=
  m.fetch == Word.ofAddress 0x1 m.pc && decide (m.pc.toNat < 0x1000) && !breakpoints.contains m.pc

/-- Whether no cycle will change anything until the host or the keypad does. -/
def atRest (r : Runner) : Bool :=
  match r.loop with
  | none => true
  | some ⟨.ended _, _⟩ => true
  | some ⟨.keyWait _, _⟩ => (r.machine.keypad.look r.stopRequested).isNone
  | some ⟨.ready, b⟩ | some ⟨.execute, b⟩ => !r.stopRequested && spins r.machine b
  | some _ => false

/-- Several ticks of the timers. -/
def ticks (n : Nat) (r : Runner) : Runner :=
  if n = 0 then r
  else r.edit fun m => { m with delay := m.delay.ticks n, sound := m.sound.ticks n }

/-- The timer ticks in the first `cycles` cycles. -/
def ticksIn (c : Config) (cycles : Nat) : Nat := cycles * c.cpuPeriod.nanoseconds / c.timerPeriod.nanoseconds

/-- `left` more cycles after `done` ones. -/
def elapseFrom (origin : Duration) (done : Nat) : Nat → Runner → Runner
  | 0, r => r
  | left + 1, r =>
    let c := r.machine.config
    let before := ticksIn c done
    if r.atRest then
      (r.ticks (ticksIn c (done + left + 1) - before)).pace (origin.later (done + left + 1) c.cpuPeriod)
    else
      elapseFrom origin (done + 1) left
        ((r.cycle.ticks (ticksIn c (done + 1) - before)).pace (origin.later (done + 1) c.cpuPeriod))

/-- The runner at a later moment, if its host leaves it alone. -/
def advance (origin earlier later : Duration) (r : Runner) : Runner :=
  let cycles (d : Duration) := d.nanoseconds / r.machine.config.cpuPeriod.nanoseconds
  elapseFrom origin (cycles earlier) (cycles later - cycles earlier) (r.pace (origin.later 1 earlier))

/-- The runner after a while without its host, which begins when the clock reads `now`. -/
def elapse (now d : Duration) (r : Runner) : Runner := r.advance now .zero d

/-- The time after which a runner left alone is taken to have come to rest. -/
def restTime : Duration := .ofParts 10 0

/-- The runner once it has come to rest. -/
def settle (now : Duration) (r : Runner) : Runner := r.elapse now restTime

/-- Waits for the loop to end by itself and collects its result. -/
def wait (now : Duration) (r : Runner) : RunEnd × Runner := (r.settle now).collect

end Chip8.Runner
