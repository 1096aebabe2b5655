import Chip8.Config
import Chip8.Listing

/-!
# Faults

What can go wrong while a machine runs: a fault of one instruction, and the errors that the engine reports to its host.
Each kind of error has its text in one place.
-/

namespace Chip8

/-- A word in an error text. -/
def wordText (w : UInt16) : String := "0x" ++ Numeral.hex 4 w.toNat

/-! ## Faults of an instruction -/

/-- Why the instruction `word` at `address` did not execute. -/
inductive Fault
  | unknownInstruction (address word : UInt16)
  | stackUnderflow (address word : UInt16)
  | stackOverflow (address word : UInt16) (limit : Nat)
  | randomFailed (address word : UInt16) (cause : String)
  deriving DecidableEq, Repr

namespace Fault

def address : Fault → UInt16
  | unknownInstruction a _ | stackUnderflow a _ | stackOverflow a _ _ | randomFailed a _ _ => a

def word : Fault → UInt16
  | unknownInstruction _ w | stackUnderflow _ w | stackOverflow _ w _ | randomFailed _ w _ => w

def message : Fault → String
  | unknownInstruction a w => "Unknown instruction " ++ wordText w ++ " at address " ++ addressText a
  | stackUnderflow a w =>
    "Stack underflow: RET (" ++ wordText w ++ ") at " ++ addressText a ++ " with empty call stack"
  | stackOverflow a w limit =>
    "Stack overflow: CALL (" ++ wordText w ++ ") at " ++ addressText a ++ " exceeds depth "
      ++ Numeral.decimal 1 limit
  | randomFailed a w cause => "Random source failed for " ++ wordText w ++ " at " ++ addressText a ++ ": " ++ cause

/-- The error below this one, if it has one. -/
def cause? : Fault → Option String
  | randomFailed _ _ cause => some cause
  | _ => none

/-- A text in quotes, quotes and backslashes in it marked by a backslash. -/
def quoted (s : String) : String :=
  "\"" ++ String.ofList (s.toList.flatMap fun c => if c = '"' ∨ c = '\\' then ['\\', c] else [c]) ++ "\""

/-- The fault as the log writes it, with its fields by name. -/
def record (f : Fault) : String :=
  let place (a w : UInt16) : String :=
    "address: " ++ Numeral.decimal 1 a.toNat ++ ", opcode: " ++ Numeral.decimal 1 w.toNat
  match f with
  | unknownInstruction a w => "Decode \x7b " ++ place a w ++ " \x7d"
  | stackUnderflow a w => "StackUnderflow \x7b " ++ place a w ++ " \x7d"
  | stackOverflow a w limit => "StackOverflow \x7b " ++ place a w ++ ", limit: " ++ Numeral.decimal 1 limit ++ " \x7d"
  | randomFailed a w cause =>
    "RandomSource \x7b " ++ place a w ++ ", source: RandomError(" ++ quoted cause ++ ") \x7d"

end Fault

/-! ## Errors of the engine -/

/-- An image of `size` bytes does not fit where at most `limit` fit. -/
structure LoadError where
  size : Nat
  limit : Nat
  deriving DecidableEq, Repr

/-- What the engine reports to its host. -/
inductive EngineError
  | load (e : LoadError)
  | fault (f : Fault)
  /-- A step was asked for while the run loop is live. -/
  | busy
  /-- The run loop, or the source it asked for a byte, broke off. -/
  | crashed
  /-- A thread could not be started. -/
  | spawn (thread cause : String)
  | config (e : ConfigError)
  deriving DecidableEq, Repr

namespace EngineError

def message : EngineError → String
  | load e =>
    "Program image is too large (" ++ Numeral.decimal 1 e.size ++ " bytes), max size is "
      ++ Numeral.decimal 1 e.limit ++ " bytes"
  | fault f => f.message
  | busy => "The scheduler is running, stop it before stepping"
  | crashed => "The CPU thread panicked"
  | spawn thread cause => "Failed to spawn the " ++ thread ++ " thread: " ++ cause
  | config e => e.message

/-- The error below this one, if it has one. -/
def cause? : EngineError → Option String
  | fault f => f.cause?
  | spawn _ cause => some cause
  | _ => none

end EngineError

/-- Starts a thread, if the system lets it: it answers nothing, or why there is no thread. -/
def startThread (name : String) : Option String → Except EngineError Unit
  | none => .ok ()
  | some cause => .error (.spawn name cause)

end Chip8
