import Chip8.Duration
import Chip8.Memory

/-!
# Configuration

The settings that stay fixed for the life of a machine. `Config.validate` accepts the settings under which a program
can run: an even offset between the glyphs and the end of memory, clocks that advance, and a stack that takes a call.
-/

namespace Chip8

structure Config where
  /-- Where a program is loaded and started. -/
  programOffset : UInt16
  /-- The time of one instruction. -/
  cpuPeriod : Duration
  /-- The time between two ticks of the timers. -/
  timerPeriod : Duration
  /-- The largest depth of calls, if there is one. -/
  stackLimit : Option Nat
  deriving DecidableEq, Repr

/-- The two clocks. -/
inductive Clock
  | cpu
  | timer
  deriving DecidableEq, Repr

def Clock.name : Clock → String
  | .cpu => "CPU"
  | .timer => "timer"

/-- Why settings are refused. -/
inductive ConfigError
  | offsetInGlyphArea (offset lowest : UInt16)
  | offsetOutOfMemory (offset : UInt16)
  | offsetMisaligned (offset : UInt16)
  | zeroPeriod (clock : Clock)
  | zeroStackLimit
  deriving DecidableEq, Repr

/-- An address in an error text. -/
def addressText (a : UInt16) : String := "0x" ++ Numeral.hex 3 a.toNat

def ConfigError.message : ConfigError → String
  | .offsetInGlyphArea offset lowest =>
    "Program offset " ++ addressText offset ++ " overlaps the built-in glyphs (must be >= " ++ addressText lowest ++ ")"
  | .offsetOutOfMemory offset => "Program offset " ++ addressText offset ++ " is past the end of memory"
  | .offsetMisaligned offset => "Program offset " ++ addressText offset ++ " is not instruction aligned"
  | .zeroPeriod clock => "The " ++ clock.name ++ " clock period must be non-zero"
  | .zeroStackLimit => "A stack limit of zero forbids every CALL"

namespace Config

def defaultOffset : UInt16 := 0x200

/-- Instructions per second. -/
def defaultCpuHz : Float := 500.0

/-- Five hundred instructions and sixty timer ticks per second, calls of any depth. -/
def standard : Config where
  programOffset := defaultOffset
  cpuPeriod := ⟨2000000⟩
  timerPeriod := ⟨16666667⟩
  stackLimit := none

/-- Sets the CPU clock from a frequency, unless its period is too long for a duration. -/
def withCpuHz? (c : Config) (hz : Float) : Option Config :=
  (Duration.ofFrequency? hz).map fun period => { c with cpuPeriod := period }

/-- The number of bytes from the program offset to the end of memory. -/
def maxProgramSize (c : Config) : Nat := Memory.size - c.programOffset.toNat

/-- The first fault of the settings. -/
def error? (c : Config) : Option ConfigError :=
  if c.programOffset.toNat < Glyphs.size then some (.offsetInGlyphArea c.programOffset (UInt16.ofNat Glyphs.size))
  else if Memory.size ≤ c.programOffset.toNat then some (.offsetOutOfMemory c.programOffset)
  else if c.programOffset.toNat % 2 ≠ 0 then some (.offsetMisaligned c.programOffset)
  else if c.cpuPeriod = .zero then some (.zeroPeriod .cpu)
  else if c.timerPeriod = .zero then some (.zeroPeriod .timer)
  else if c.stackLimit = some 0 then some .zeroStackLimit
  else none

def validate (c : Config) : Except ConfigError Unit :=
  match c.error? with
  | some e => .error e
  | none => .ok ()

end Config

end Chip8
