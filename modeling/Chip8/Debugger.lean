import Chip8.Debugger.Command
import Chip8.Runner

/-!
# The debugger

What each command does to a runner and what it answers (`Debugger.execute`).
-/

namespace Chip8.Debugger

/-- What a command answers. -/
inductive Reply
  | ok
  /-- The step waits for a key; the next one tries again. -/
  | awaitingKey
  | breakpoints (addresses : List UInt16)
  | memory (start : UInt16) (bytes : List UInt8)
  | listing (lines : List Listing.Line)
  | quit
  deriving DecidableEq, Repr

/-- Why a command failed. -/
inductive CommandError
  | engine (e : EngineError)
  | outOfRange (target : Target) (value : UInt16)
  /-- The command broke off. -/
  | crashed (message : String)
  deriving DecidableEq, Repr

/-- What a register takes. -/
def Target.kind : Target → String
  | .v _ => "a V register"
  | .i | .pc => "an address"

/-- The largest value of a register. -/
def Target.limit : Target → Nat
  | .v _ => 0xFF
  | .i | .pc => 0xFFF

def CommandError.message : CommandError → String
  | .engine e => "Error while executing cpu instruction: " ++ e.message
  | .outOfRange target value =>
    "Value 0x" ++ Numeral.hex 1 value.toNat ++ " out of range for " ++ target.kind
  | .crashed message => message

/-- Writes a register without a check. -/
def Target.write (t : Target) (value : UInt16) (m : Machine) : Machine :=
  match t with
  | .v x => m.setReg x value.toUInt8
  | .i => { m with i := value }
  | .pc => { m with pc := value }

/-- Starts the loop. -/
def run (r : Runner) : Except CommandError Reply × Runner :=
  match r.start with
  | (.ok (), r) => (.ok .ok, r)
  | (.error e, r) => (.error (.engine e), r)

/-- Stops the loop; the error that ended it is the command's. -/
def pause (r : Runner) : Except CommandError Reply × Runner :=
  let (result, r) := r.stop
  match result.error? with
  | some e => (.error (.engine e), r)
  | none => (.ok .ok, r)

def step (r : Runner) : Except CommandError Reply × Runner :=
  match r.step with
  | (.error e, r) => (.error (.engine e), r)
  | (.ok .executed, r) => (.ok .ok, r)
  | (.ok .awaitingKey, r) => (.ok .awaitingKey, r)
  | (.ok (.faulted f), r) => (.error (.engine (.fault f)), r)
  | (.ok (.crashed message), r) => (.error (.crashed message), r)

/-- The lines of `count` words from an address on. -/
def listing (m : Machine) (start : UInt16) (count : UInt16) : Except CommandError Reply :=
  match Listing.ofImage (m.memory.readMany start.toNat (2 * count.toNat)) start with
  | .ok lines => .ok (.listing lines)
  | .error e => .error (.crashed e.message)

/-- Carries out a command. -/
def execute (r : Runner) : Command → Except CommandError Reply × Runner
  | .run => run r
  | .pause => pause r
  | .step => step r
  | .setBreakpoint a => (.ok .ok, { r with breakpoints := r.breakpoints.insert a })
  | .clearBreakpoint a => (.ok .ok, { r with breakpoints := r.breakpoints.erase a })
  | .listBreakpoints => (.ok (.breakpoints r.breakpoints.sorted), r)
  | .clearBreakpoints => (.ok .ok, { r with breakpoints := .empty })
  | .set target value =>
    if target.limit < value.toNat then (.error (.outOfRange target value), r)
    else (.ok .ok, r.edit (target.write value))
  | .mem start len => (.ok (.memory start (r.machine.memory.readMany start.toNat len.toNat)), r)
  | .disasm start count => (listing r.machine (start.getD r.machine.pc) count, r)
  | .quit => (.ok .quit, r)

end Chip8.Debugger
