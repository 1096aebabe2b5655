import Chip8.Grammar.Blank
import Chip8.Numeral
import Chip8.Word

/-!
# Debugger commands

The commands of the debugger and the lines that they are written as. Commands and sub-commands have aliases, numbers are
decimal or hexadecimal after `0x`, a register is named in either case, and the arguments of `mem` and `disasm` have
defaults (`Command.parse`).
-/

namespace Chip8.Debugger

open Grammar (Token ValueError Slot Found)

/-- A register that can be written. -/
inductive Target
  | v (x : Nibble)
  | i
  | pc
  deriving DecidableEq, Repr

inductive Command
  | run
  | pause
  | step
  | setBreakpoint (address : UInt16)
  | clearBreakpoint (address : UInt16)
  | listBreakpoints
  | clearBreakpoints
  | set (target : Target) (value : UInt16)
  | mem (start len : UInt16)
  /-- Starts at the program counter if no start is given. -/
  | disasm (start : Option UInt16) (count : UInt16)
  | quit
  deriving DecidableEq, Repr

/-! ## Values -/

/-- Reads the name of a register: `i`, `index`, `pc`, or `v` and a hexadecimal number below sixteen. No letter outside
ASCII has one of these letters alone as its lower case. -/
def Target.read (name : Token) : Except String Target :=
  match name.map Char.toLower with
  | ['i'] | ['i', 'n', 'd', 'e', 'x'] => .ok .i
  | ['p', 'c'] => .ok .pc
  | 'v' :: digits =>
    match Numeral.read 16 255 digits with
    | .ok n => if h : n < 16 then .ok (.v ⟨n, h⟩) else .error ("Invalid register: '" ++ String.ofList name ++ "'")
    | .error _ => .error ("Invalid register: '" ++ String.ofList name ++ "'")
  | _ => .error ("Unknown set target: '" ++ String.ofList name ++ "'")

/-- The value of one argument. -/
inductive Value
  | number (n : UInt16)
  | target (t : Target)
  deriving DecidableEq, Repr

def readNumber (t : Token) : Except ValueError Value :=
  match Numeral.readPrefixed 0xFFFF t with
  | .ok n => .ok (.number (UInt16.ofNat n))
  | .error e => .error (.invalid e.message)

def readTarget (t : Token) : Except ValueError Value :=
  match Target.read t with
  | .ok target => .ok (.target target)
  | .error reason => .error (.invalid reason)

/-! ## The grammar -/

/-- A command without sub-commands. -/
def leaf (name : String) (aliases : List String) (required : Nat) (slots : List (Slot Value))
    (make : List Value → Option Command) : Grammar.Command Value Command where
  name := name
  aliases := aliases
  required := required
  slots := slots
  switches := [Grammar.helpSwitch]
  subcommands := []
  make found := make found.arguments

/-- A command without arguments. -/
def word (name : String) (aliases : List String) (c : Command) : Grammar.Command Value Command :=
  leaf name aliases 0 [] fun _ => some c

def addressSlot : Slot Value := ⟨"<ADDR>", readNumber⟩

def breakpointGrammar : Grammar.Command Value Command where
  name := "breakpoint"
  aliases := ["b"]
  required := 0
  slots := []
  switches := [Grammar.helpSwitch]
  subcommands := [
    leaf "set" ["s"] 1 [addressSlot] fun
      | [.number a] => some (.setBreakpoint a)
      | _ => none,
    leaf "clear" ["c"] 1 [addressSlot] fun
      | [.number a] => some (.clearBreakpoint a)
      | _ => none,
    word "list" ["l"] .listBreakpoints,
    word "clear-all" ["ca"] .clearBreakpoints]
  make _ := none

def defaultStart : UInt16 := 0x200

def defaultLength : UInt16 := 64

def defaultCount : UInt16 := 8

/-- All commands. The whole line has no switches. -/
def grammar : Grammar.Command Value Command where
  name := ""
  aliases := []
  required := 0
  slots := []
  switches := []
  subcommands := [
    word "run" ["r"] .run,
    word "pause" ["p"] .pause,
    word "step" ["s"] .step,
    breakpointGrammar,
    leaf "set" [] 2 [⟨"<TARGET>", readTarget⟩, ⟨"<VALUE>", readNumber⟩] fun
      | [.target t, .number n] => some (.set t n)
      | _ => none,
    leaf "mem" ["m"] 0 [⟨"[START]", readNumber⟩, ⟨"[LEN]", readNumber⟩] fun
      | [] => some (.mem defaultStart defaultLength)
      | [.number start] => some (.mem start defaultLength)
      | [.number start, .number len] => some (.mem start len)
      | _ => none,
    leaf "disasm" ["d"] 0 [⟨"[START]", readNumber⟩, ⟨"[COUNT]", readNumber⟩] fun
      | [] => some (.disasm none defaultCount)
      | [.number start] => some (.disasm (some start) defaultCount)
      | [.number start, .number count] => some (.disasm (some start) count)
      | _ => none,
    word "quit" ["q"] .quit]
  make _ := none

/-! ## Lines -/

/-- The parts of a path, those left out that are empty or a single dot. -/
def pathParts (t : Token) : List Token := ((t.splitOn '/').filter fun part => !(part.isEmpty || part == ['.']))

/-- The last part of a path without its extension; none if the path goes up at its end or has no parts. -/
def stem? (t : Token) : Option Token :=
  match (pathParts t).getLast? with
  | none => none
  | some name =>
    if name == ['.', '.'] then none
    else
      let extension := name.reverse.takeWhile (· != '.')
      let before := name.take (name.length - extension.length - 1)
      some (if before.isEmpty then name else before)

/-- The first token stands for a program by its path, so only its stem counts; a path without one is passed over
together with the token after it. -/
def commandTokens : List Token → List Token
  | [] => []
  | first :: rest =>
    match stem? first with
    | some name => name :: rest
    | none => rest.drop 1

/-- Reads a line. -/
def Command.parse (line : List Char) : Except Grammar.Error Command :=
  grammar.read (commandTokens (Grammar.split line))

end Chip8.Debugger
