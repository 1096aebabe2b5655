import Chip8.Config
import Chip8.Grammar
import Chip8.Numeral.Decimal

/-!
# Command-line arguments

The three modes of the program and their arguments (`Arguments.parse`). Verbosity and the log file may stand before the
mode or after it; what stands after it counts.
-/

namespace Chip8.Program

open Grammar (Token ValueError Slot Switch Found)

/-- What a machine is built from. -/
structure MachineArguments where
  rom : String
  cpuHz : Numeral.Binary64
  offset : UInt16
  stackLimit : Option Nat
  seed : Option UInt64

inductive Mode
  | run (machine : MachineArguments)
  | debug (machine : MachineArguments)
  /-- Lists a program whose first byte stands at `base`. -/
  | dis (rom : String) (base : UInt16)

structure Arguments where
  mode : Mode
  verbosity : Nat
  logFile : Option String

/-! ## Values -/

/-- The value of one argument. -/
inductive Value
  | path (p : String)
  | address (a : UInt16)
  | number (n : Nat)
  | frequency (hz : Numeral.Binary64)

def readPath (t : Token) : Except ValueError Value :=
  if t.isEmpty then .error .missing else .ok (.path (String.ofList t))

def readAddress (t : Token) : Except ValueError Value :=
  match Numeral.readPrefixed 0xFFFF t with
  | .ok n => .ok (.address (UInt16.ofNat n))
  | .error e => .error (.invalid e.message)

def readNumber (t : Token) : Except ValueError Value :=
  match Numeral.read 10 0xFFFFFFFFFFFFFFFF t with
  | .ok n => .ok (.number n)
  | .error e => .error (.invalid e.message)

def readFrequency (t : Token) : Except ValueError Value :=
  match Numeral.readFloat t with
  | .ok hz => .ok (.frequency hz)
  | .error e => .error (.invalid e.message)

/-! ## The grammar -/

def verboseLabel : String := "--verbose..."

def logFileLabel : String := "--log-file <LOG_FILE>"

def baseLabel : String := "--base <BASE>"

def cpuHzLabel : String := "--cpu-hz <CPU_HZ>"

def offsetLabel : String := "--offset <OFFSET>"

def stackLimitLabel : String := "--stack-limit <STACK_LIMIT>"

def seedLabel : String := "--seed <SEED>"

/-- The switches of every command. -/
def commonSwitches : List (Switch Value) := [
  Grammar.helpSwitch,
  ⟨"verbose", some 'v', verboseLabel, .count⟩,
  ⟨"log-file", none, logFileLabel, .value readPath⟩]

def machineSwitches : List (Switch Value) := [
  ⟨"cpu-hz", none, cpuHzLabel, .value readFrequency⟩,
  ⟨"offset", none, offsetLabel, .value readAddress⟩,
  ⟨"stack-limit", none, stackLimitLabel, .value readNumber⟩,
  ⟨"seed", none, seedLabel, .value readNumber⟩]

/-- The highest verbosity that is counted. -/
def maxVerbosity : Nat := 255

/-- The arguments of a mode. -/
def arguments (f : Found Value) (mode : Mode) : Arguments where
  mode := mode
  verbosity := min maxVerbosity (f.count verboseLabel)
  logFile :=
    match f.value? logFileLabel with
    | some (.path p) => some p
    | _ => none

def machineArguments? (f : Found Value) : Option MachineArguments :=
  match f.arguments with
  | [.path rom] => some {
      rom := rom
      cpuHz := match f.value? cpuHzLabel with
        | some (.frequency hz) => hz
        | _ => .ofFloat Config.defaultCpuHz
      offset := match f.value? offsetLabel with
        | some (.address a) => a
        | _ => Config.defaultOffset
      stackLimit := match f.value? stackLimitLabel with
        | some (.number n) => some n
        | _ => none
      seed := match f.value? seedLabel with
        | some (.number n) => some (UInt64.ofNat n)
        | _ => none }
  | _ => none

def listingArguments? (f : Found Value) : Option Mode :=
  match f.arguments, f.value? baseLabel with
  | [.path rom], some (.address base) => some (.dis rom base)
  | [.path rom], _ => some (.dis rom Config.defaultOffset)
  | _, _ => none

/-- A mode with a program file. -/
def mode (name : String) (switches : List (Switch Value)) (make : Found Value → Option Mode) :
    Grammar.Command Value Arguments where
  name := name
  aliases := []
  required := 1
  slots := [⟨"<ROM_PATH>", readPath⟩]
  switches := commonSwitches ++ switches
  subcommands := []
  make f := (make f).map (arguments f)

def grammar : Grammar.Command Value Arguments where
  name := "chip8"
  aliases := []
  required := 0
  slots := []
  switches := commonSwitches
  subcommands := [
    mode "run" machineSwitches fun f => (machineArguments? f).map .run,
    mode "debug" machineSwitches fun f => (machineArguments? f).map .debug,
    mode "dis" [⟨"base", none, baseLabel, .value readAddress⟩] listingArguments?]
  make _ := none

/-- Reads the arguments after the program's name. -/
def Arguments.parse (tokens : List Token) : Except Grammar.Error Arguments := grammar.read tokens

end Chip8.Program
