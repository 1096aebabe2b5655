import Chip8.Grammar.Visible

/-!
# Command-line grammars

A command takes tokens in order: sub-commands by name or alias, switches that start with a hyphen, and values for its
slots. Reading goes from left to right and stops at the first error (`Command.read`). A value is checked when the next
one begins, so a misplaced token is reported before a bad value directly in front of it; `--` makes all tokens after it
plain values. A command with sub-commands also knows the sub-command `help`.
-/

namespace Chip8.Grammar

abbrev Token := List Char

/-! ## Grammars -/

/-- Why a token is no value. -/
inductive ValueError
  | missing
  | invalid (reason : String)
  deriving DecidableEq, Repr

/-- A place for one value. The label names it in messages. -/
structure Slot (α : Type) where
  label : String
  read : Token → Except ValueError α

/-- What a switch does. -/
inductive Effect (α : Type)
  | help
  | count
  /-- Takes a value, from the same token after an equals sign or from the next one. -/
  | value (read : Token → Except ValueError α)

structure Switch (α : Type) where
  long : String
  short : Option Char
  label : String
  effect : Effect α

/-- What was given to a command, values by the label of their switch, the innermost command first. -/
structure Found (α : Type) where
  arguments : List α
  values : List (String × α)
  counts : List (String × Nat)

structure Command (α β : Type) where
  name : String
  aliases : List String
  /-- How many of the slots have to be filled. -/
  required : Nat
  slots : List (Slot α)
  switches : List (Switch α)
  subcommands : List (Command α β)
  /-- The meaning of what was found; none if it is incomplete. -/
  make : Found α → Option β

/-! ## Errors -/

inductive Error
  /-- Help was asked for. -/
  | help
  /-- Nothing was given where something is needed. -/
  | helpOnMissing
  | unknownCommand (token : Token)
  | unknownArgument (token : Token)
  | missingArguments
  | missingCommand (command : String)
  /-- A switch was given twice. -/
  | repeated (label : String)
  | missingValue (label : String)
  | unexpectedValue (token : Token) (label : String)
  | invalidValue (token : Token) (label reason : String)
  deriving DecidableEq, Repr

/-- The first line of a text that goes on behind it; a line ends with `\n` or `\r\n`. -/
def firstLine (s : String) : String :=
  let line := s.toList.takeWhile (· != '\n')
  String.ofList (if line.getLast? == some '\r' then line.dropLast else line)

/-- What the hint behind a reason says before the switch that it names. -/
def hintLead : String := "\n\nFor more information, try '"

/-- The pieces of an error text. Each has a style of its own, and a change of style ends any control sequence before it.
Behind a reason stands the hint that follows it, since a sequence that the reason leaves open hides the end of its
line. -/
def Error.pieces : Error → List String
  | help | helpOnMissing => []
  | unknownCommand t => ["error: unrecognized subcommand '", String.ofList t, "'"]
  | unknownArgument t => ["error: unexpected argument '", String.ofList t, "' found"]
  | missingArguments => ["error: the following required arguments were not provided:"]
  | missingCommand c => ["error: '", c, "' requires a subcommand but one was not provided"]
  | repeated l => ["error: the argument '", l, "' cannot be used multiple times"]
  | missingValue l => ["error: a value is required for '", l, "' but none was supplied"]
  | unexpectedValue t l =>
    ["error: unexpected value '", String.ofList t, "' for '", l, "' found; no more were expected"]
  | invalidValue t l reason =>
    ["error: invalid value '", String.ofList t, "' for '", l, "': " ++ reason ++ hintLead, "--help", "'."]

/-- The first line of an error text without what a terminal does not print; help has none. -/
def Error.headline? (e : Error) : Option String :=
  match e.pieces with
  | [] => none
  | pieces => some (firstLine (String.ofList (pieces.flatMap fun piece => visible piece.toList)))

variable {α β : Type}

/-! ## Reading -/

namespace Found

def empty : Found α := ⟨[], [], []⟩

/-- Whether nothing was given. -/
def isEmpty (f : Found α) : Bool := f.arguments.isEmpty && f.values.isEmpty && f.counts.isEmpty

/-- The value of a switch. -/
def value? (f : Found α) (label : String) : Option α := f.values.lookup label

/-- How often a switch was given to the innermost command that has it. -/
def count (f : Found α) (label : String) : Nat := (f.counts.lookup label).getD 0

def addCount (f : Found α) (label : String) : Found α :=
  { f with counts := (label, f.count label + 1) :: f.counts.filter (·.1 != label) }

/-- What an inner command was given, with the switches of the outer one behind its own. -/
def inside (inner outer : Found α) : Found α :=
  ⟨inner.arguments, inner.values ++ outer.values, inner.counts ++ outer.counts⟩

end Found

/-- A slot or a switch whose value is not checked yet. -/
structure Pending (α : Type) where
  slot : Slot α
  isSwitch : Bool
  token? : Option Token

/-- How far a command has been read. -/
structure Progress (α : Type) where
  /-- Slots that have a token. -/
  filled : Nat
  pending : Option (Pending α)
  /-- The next token is the value of a switch. -/
  wantsValue : Bool
  /-- `--` has been read. -/
  literal : Bool
  found : Found α

namespace Progress

def start : Progress α := ⟨0, none, false, false, .empty⟩

/-- Checks a value. -/
def check (p : Progress α) (pending : Pending α) : Except Error (Progress α) :=
  let label := pending.slot.label
  match pending.token? with
  | none => .error (.missingValue label)
  | some t =>
    if pending.isSwitch && (p.found.value? label).isSome then .error (.repeated label)
    else
      match pending.slot.read t with
      | .error .missing => .error (.missingValue label)
      | .error (.invalid reason) => .error (.invalidValue t label reason)
      | .ok v =>
        let found := if pending.isSwitch then { p.found with values := (label, v) :: p.found.values }
          else { p.found with arguments := p.found.arguments ++ [v] }
        .ok { p with pending := none, wantsValue := false, found := found }

/-- Checks the value that is pending. -/
def settle (p : Progress α) : Except Error (Progress α) :=
  match p.pending with
  | none => .ok p
  | some pending => p.check pending

end Progress

/-- Applies a switch, which may have a value attached. -/
def Switch.apply (s : Switch α) (attached? : Option Token) (p : Progress α) : Except Error (Progress α) :=
  match s.effect, attached? with
  | .value read, attached? =>
    match p.settle, attached? with
    | .error e, _ => .error e
    | .ok p, some t => p.check ⟨⟨s.label, read⟩, true, some t⟩
    | .ok p, none => .ok { p with pending := some ⟨⟨s.label, read⟩, true, none⟩, wantsValue := true }
  | _, some t => .error (.unexpectedValue t s.label)
  | .help, none => p.settle.bind fun _ => .error .help
  | .count, none => p.settle.map fun p => { p with found := p.found.addCount s.label }

namespace Command

/-- The sub-command of this name or alias. -/
def sub? (c : Command α β) (t : Token) : Option (Command α β) :=
  c.subcommands.find? fun s => s.name.toList == t || s.aliases.any (·.toList == t)

def helpName : Token := "help".toList

/-- Whether the token names a sub-command or help on sub-commands. -/
def names (c : Command α β) (t : Token) : Bool :=
  (c.sub? t).isSome || !c.subcommands.isEmpty && t == helpName

/-- The answer to `help` with the names of sub-commands after it. -/
def helpFor (c : Command α β) : List Token → Error
  | [] => .help
  | t :: rest =>
    match c.sub? t with
    | some s => s.helpFor rest
    | none =>
      if c.names t then rest.head?.elim .help .unknownCommand
      else .unknownCommand t

/-- The error of a token for which there is no slot. -/
def stray (c : Command α β) (literal : Bool) (t : Token) : Error :=
  if c.subcommands.isEmpty || literal && c.names t then .unknownArgument t else .unknownCommand t

/-- Reads a plain value. -/
def takeValue (c : Command α β) (p : Progress α) (t : Token) : Except Error (Progress α) :=
  if p.wantsValue && !p.literal then
    .ok { p with pending := p.pending.map fun q => { q with token? := some t }, wantsValue := false }
  else
    match c.slots[p.filled]? with
    | none => .error (c.stray p.literal t)
    | some slot => p.settle.map fun p => { p with filled := p.filled + 1, pending := some ⟨slot, false, some t⟩ }

/-- Reads a switch by its long name. -/
def takeLong (c : Command α β) (p : Progress α) (t : Token) : Except Error (Progress α) :=
  let name := t.takeWhile (· != '=')
  let attached? := if t.contains '=' then some (t.drop (name.length + 1)) else none
  match c.switches.find? fun s => s.long.toList == name with
  | some s => s.apply attached? p
  | none => .error (.unknownArgument ('-' :: '-' :: name))

/-- Reads switches by their one-letter names; a value may follow in the same token. -/
def takeShort (c : Command α β) (p : Progress α) : Token → Except Error (Progress α)
  | [] => .ok p
  | letter :: rest =>
    match c.switches.find? fun s => s.short == some letter with
    | none => .error (.unknownArgument ['-', letter])
    | some s =>
      match s.effect with
      | .value _ =>
        let attached := if rest.head? == some '=' then rest.tail else rest
        s.apply (if rest.isEmpty then none else some attached) p
      | _ => (s.apply none p).bind fun p => takeShort c p rest

/-- Reads a token that names no sub-command. -/
def take (c : Command α β) (p : Progress α) (t : Token) : Except Error (Progress α) :=
  if p.literal then c.takeValue p t
  else
    match t with
    | ['-', '-'] => .ok { p with literal := true }
    | '-' :: '-' :: name => c.takeLong p name
    | '-' :: letter :: rest => c.takeShort p (letter :: rest)
    | t => c.takeValue p t

/-- What is missing at the end of the tokens. -/
def missing? (c : Command α β) (f : Found α) : Option Error :=
  if !c.subcommands.isEmpty then some (if f.isEmpty then .helpOnMissing else .missingCommand c.name)
  else if f.arguments.length < c.required then some .missingArguments
  else none

/-- Reads tokens; the result is the innermost command with what was found. -/
def readFrom (c : Command α β) (p : Progress α) : List Token → Except Error (Command α β × Found α)
  | [] =>
    match p.settle with
    | .error e => .error e
    | .ok p =>
      match c.missing? p.found with
      | some e => .error e
      | none => .ok (c, p.found)
  | t :: rest =>
    if !p.literal && !p.wantsValue && c.names t then
      match c.sub? t with
      | none => .error (c.helpFor rest)
      | some s =>
        match s.readFrom .start rest, p.settle with
        | .error e, _ => .error e
        | .ok _, .error e => .error e
        | .ok (inner, found), .ok p => .ok (inner, found.inside p.found)
    else
      match c.take p t with
      | .error e => .error e
      | .ok p => c.readFrom p rest

/-- Reads a whole command line. -/
def read (c : Command α β) (tokens : List Token) : Except Error β :=
  match c.readFrom .start tokens with
  | .error e => .error e
  | .ok (inner, found) =>
    match inner.make found with
    | some result => .ok result
    | none => .error .missingArguments

end Command

/-- The switch that asks for help. -/
def helpSwitch : Switch α := ⟨"help", some 'h', "--help", .help⟩

end Chip8.Grammar
