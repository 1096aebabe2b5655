import Chip8.Debugger
import Chip8.Program
import Chip8.Random.ChaCha

/-!
# What the program does with its arguments

After the arguments are read the log file is created, then the program file is read, and what remains to be done is a
`Job`: a text to print, or a loaded machine to debug or to play. What fails on the way is a `Failure` with the error
behind it, or a value that no machine can be built from; `Ending` is what the caller of the program sees of it.
-/

namespace Chip8.Program

/-! ## Failures -/

/-- What could not be done, and the errors behind it, the nearest first. -/
structure Failure where
  context : String
  causes : List String
  deriving DecidableEq, Repr

namespace Failure

/-- All texts in one line. -/
def chain (f : Failure) : String := String.intercalate ": " (f.context :: f.causes)

/-- The causes below one another, numbered from zero if there are several. -/
def causeLines : List String → List String
  | [cause] => ["    " ++ cause]
  | causes => causes.mapIdx fun k cause => "    " ++ Numeral.decimal 1 k ++ ": " ++ cause

def report (f : Failure) : String :=
  "Error: " ++ f.context ++ "\n"
    ++ (if f.causes.isEmpty then ""
        else "\nCaused by:\n" ++ String.join ((causeLines f.causes).map fun line => line ++ "\n"))

/-- The texts of an error of the engine, and of the one below it. -/
def engineTexts (e : EngineError) : List String := e.message :: e.cause?.toList

/-- The failure of a command of the debugger. -/
def ofCommand (e : Debugger.CommandError) : Failure :=
  ⟨e.message,
    match e with
    | .engine e => engineTexts e
    | _ => []⟩

end Failure

/-- Why the program ends before its job. -/
inductive Stop
  | failed (f : Failure)
  /-- A value was met that the program cannot go on with. -/
  | crashed (message : String)
  deriving DecidableEq, Repr

def Stop.text : Stop → String
  | .failed f => f.chain
  | .crashed message => message

/-! ## Files -/

/-- The files that a program can reach; an error is the text that the system gives. -/
structure Files (m : Type → Type) where
  read : String → m (Except String (List UInt8))
  /-- Makes an empty file, also of one that exists. -/
  create : String → m (Except String Unit)

/-! ## Machines -/

/-- The settings of a machine, unless the period of its clock is too long. -/
def MachineArguments.config? (a : MachineArguments) : Option Config :=
  (Config.standard.withCpuHz? a.cpuHz.toFloat).map fun c =>
    { c with programOffset := a.offset, stackLimit := a.stackLimit }

/-- The bytes that random instructions get: those of the seed, or others if there is none. -/
def MachineArguments.random (a : MachineArguments) (others : RandomSource) : RandomSource :=
  match a.seed with
  | some seed => ChaCha.source seed
  | none => others

/-- A loaded machine. -/
def MachineArguments.machine (a : MachineArguments) (threads : Machine.TimerThreads) (others : RandomSource)
    (program : List UInt8) : Except Stop Machine :=
  match a.config? with
  | none => .error (.crashed Duration.rangeMessage)
  | some config =>
    match Machine.create config threads (a.random others) with
    | .error e => .error (.failed ⟨"Invalid machine configuration", Failure.engineTexts e⟩)
    | .ok m =>
      match m.load program with
      | .error e => .error (.failed ⟨"Failed to load ROM into CHIP-8 memory", Failure.engineTexts (.load e)⟩)
      | .ok m => .ok m

variable {m : Type → Type} [Monad m]

/-- Reads a program file. -/
def readProgram (files : Files m) (path : String) : m (Except Stop (List UInt8)) := do
  match ← files.read path with
  | .ok bytes => return .ok bytes
  | .error e => return .error (.failed ⟨"Failed to read ROM file", [e]⟩)

/-- The machine of a program file. -/
def MachineArguments.build (a : MachineArguments) (files : Files m) (threads : Machine.TimerThreads)
    (others : RandomSource) : m (Except Stop Machine) := do
  return (← readProgram files a.rom).bind (a.machine threads others)

/-! ## Jobs -/

inductive Job
  | print (text : String)
  | debug (m : Machine)
  | play (m : Machine)

/-- The listing of a program. -/
def listingText (program : List UInt8) (base : UInt16) : Except Stop String :=
  match Listing.ofImage program base with
  | .ok lines => .ok (Listing.text lines)
  | .error e => .error (.crashed e.message)

def Mode.job (mode : Mode) (files : Files m) (threads : Machine.TimerThreads) (others : RandomSource) :
    m (Except Stop Job) := do
  match mode with
  | .dis rom base => return ((← readProgram files rom).bind (listingText · base)).map .print
  | .debug a => return (← a.build files threads others).map .debug
  | .run a => return (← a.build files threads others).map .play

/-- Creates the log file if one is asked for. -/
def startLog (files : Files m) (path? : Option String) : m (Except Stop Unit) := do
  match path? with
  | none => return .ok ()
  | some path =>
    match ← files.create path with
    | .ok () => return .ok ()
    | .error e => return .error (.failed ⟨"Failed to create log file", [e]⟩)

/-- The job of the arguments. -/
def Arguments.job (a : Arguments) (files : Files m) (threads : Machine.TimerThreads) (others : RandomSource) :
    m (Except Stop Job) := do
  match ← startLog files a.logFile with
  | .error stop => return .error stop
  | .ok () => a.mode.job files threads others

/-! ## Endings -/

/-- The exit code of the program and what it has printed. -/
structure Ending where
  code : Nat
  output : String
  errors : String
  deriving DecidableEq, Repr

namespace Ending

/-- The program did what it was asked for. -/
def success (output : String) : Ending := ⟨0, output, ""⟩

def ofStop : Stop → Ending
  | .failed f => ⟨1, "", f.report⟩
  | .crashed message => ⟨101, "", message ++ "\n"⟩

/-- What the program is. -/
def summary : String := "CHIP-8 virtual machine"

/-- Help that was asked for is output, not an error. -/
def ofGrammarError (e : Grammar.Error) : Ending :=
  match e, e.headline? with
  | .help, _ => success (summary ++ "\n")
  | _, some text => ⟨2, "", text ++ "\n"⟩
  | _, none => ⟨2, "", summary ++ "\n"⟩

end Ending

end Chip8.Program
