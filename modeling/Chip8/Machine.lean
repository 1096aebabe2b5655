import Chip8.Display
import Chip8.Fault
import Chip8.Keypad
import Chip8.Memory
import Chip8.Random
import Chip8.Timer

/-!
# The machine

The state of the virtual machine, its loading, and what a host may read or change between two instructions. The program
counter and the index register hold sixteen bits; memory counts them modulo its size. The top of the call stack is the
head of the list.
-/

namespace Chip8

structure Machine where
  config : Config
  memory : Memory
  /-- The address of the next instruction. -/
  pc : UInt16
  /-- The index register. -/
  i : UInt16
  v : Vector UInt8 16
  /-- Return addresses, the newest first. -/
  stack : List UInt16
  delay : Timer
  sound : Timer
  display : Display
  keypad : Keypad
  random : RandomSource

namespace Machine

/-- A machine with the glyphs in memory and all else at rest. -/
def initial (config : Config) (random : RandomSource) : Machine where
  config := config
  memory := .initial
  pc := config.programOffset
  i := 0
  v := Vector.replicate 16 0
  stack := []
  delay := .zero
  sound := .zero
  display := .blank
  keypad := .released
  random := random

/-- What the system answers to the threads of the two timers: nothing, or why there is none. -/
structure TimerThreads where
  delay : Option String
  sound : Option String
  deriving DecidableEq, Repr

def TimerThreads.started : TimerThreads := ⟨none, none⟩

/-- A new machine, if its settings are accepted and its timers get their threads. -/
def create (config : Config) (threads : TimerThreads) (random : RandomSource) : Except EngineError Machine := do
  config.validate.mapError .config
  startThread "timer" threads.delay
  startThread "timer" threads.sound
  return initial config random

theorem create_eq_ok_iff {config : Config} {threads : TimerThreads} {random : RandomSource} {m : Machine} :
    create config threads random = .ok m ↔
      config.validate = .ok () ∧ threads = .started ∧ initial config random = m := by
  obtain ⟨delay, sound⟩ := threads
  rw [create]
  cases config.validate with
  | error e => exact ⟨nofun, nofun⟩
  | ok =>
    cases delay with
    | some cause => exact ⟨nofun, nofun⟩
    | none =>
      cases sound with
      | some cause => exact ⟨nofun, nofun⟩
      | none => exact ⟨fun h => ⟨rfl, rfl, Except.ok.inj h⟩, fun h => congrArg Except.ok h.2.2⟩

/-! ## Loading and fetching -/

/-- Puts a program at the program offset and points the program counter at it. -/
def load (m : Machine) (program : List UInt8) : Except LoadError Machine :=
  let start := m.config.programOffset.toNat
  if start + program.length ≤ Memory.size then
    .ok { m with memory := m.memory.writeMany start program, pc := m.config.programOffset }
  else .error ⟨program.length, m.config.maxProgramSize⟩

/-- The word at the program counter, high byte first. -/
def fetch (m : Machine) : UInt16 :=
  Word.ofBytes (m.memory.read m.pc.toNat) (m.memory.read (m.pc + 1).toNat)

/-- The instruction at the program counter as the trace shows it. -/
def trace (m : Machine) : String :=
  let w := m.fetch
  addressText m.pc ++ ": " ++ Numeral.hex 4 w.toNat ++ " " ++ (Instruction.decode w).mnemonic

/-! ## Registers -/

def reg (m : Machine) (x : Nibble) : UInt8 := m.v[x]

def setReg (m : Machine) (x : Nibble) (b : UInt8) : Machine := { m with v := m.v.set x b }

@[simp] theorem reg_setReg (m : Machine) (x y : Nibble) (b : UInt8) :
    (m.setReg x b).reg y = if x = y then b else m.reg y := by
  simp [reg, setReg, Vector.getElem_set, Fin.ext_iff]

/-! ## Edits of the host -/

/-- Replaces the mask of held keys. -/
def setKeys (m : Machine) (mask : UInt16) : Machine := { m with keypad := ⟨mask⟩ }

/-- Draws straight on the display; tells whether a lit pixel was turned off. -/
def drawSprite (m : Machine) (x y : UInt8) (sprite : List UInt8) : Bool × Machine :=
  let (hit, display) := m.display.draw x y sprite
  (hit, { m with display := display })

/-- One tick of both timers. -/
def tick (m : Machine) : Machine := { m with delay := m.delay.tick, sound := m.sound.tick }

/-- The machine once its timers have run down. -/
def settleTimers (m : Machine) : Machine := { m with delay := m.delay.settle, sound := m.sound.settle }

/-! ## Snapshots -/

/-- The registers, the stack (oldest return address first) and the timers at one moment. -/
structure Snapshot where
  pc : UInt16
  i : UInt16
  v : Vector UInt8 16
  stack : List UInt16
  delay : UInt8
  sound : UInt8
  deriving DecidableEq

def snapshot (m : Machine) : Snapshot := ⟨m.pc, m.i, m.v, m.stack.reverse, m.delay.value, m.sound.value⟩

end Machine

end Chip8
