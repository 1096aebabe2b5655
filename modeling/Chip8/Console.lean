import Chip8.Debugger
import Chip8.Runner.Clock

/-!
# The console

The debugger at a keyboard and a screen. While no loop is live, keys edit the command line and `Enter` carries it out,
an empty line standing for the last command; while one is live, keys are keys of the keypad and `Esc` pauses it
(`Console.handle`). A terminal reports no releases, so a key of the keypad counts as held until `holdTime` after it was
last pressed (`Console.release`).
-/

namespace Chip8

open Debugger (Command CommandError Reply)

structure Console where
  runner : Runner
  /-- The command line. -/
  input : List Char
  output : String
  /-- Whether the console is to be closed. -/
  done : Bool
  /-- What an empty command line stands for. -/
  last : Option Command
  /-- When each held key of the keypad was last pressed. -/
  pressedAt : Vector (Option Duration) 16
  /-- The machine at the start of the present frame. -/
  frame : Machine.Snapshot
  /-- Why a command broke off. -/
  broken : Option String

namespace Console

/-- A console before its first frame. -/
def ofMachine (m : Machine) : Console where
  runner := .ofMachine m
  input := []
  output := ""
  done := false
  last := none
  pressedAt := Vector.replicate 16 none
  frame := m.snapshot
  broken := none

/-! ## Keys -/

inductive Key
  | character (c : Char)
  | enter
  | escape
  | backspace
  | other
  deriving DecidableEq, Repr

/-- What happens to a key. -/
inductive Stroke
  | press
  /-- The key is still down. -/
  | held
  | release
  deriving DecidableEq, Repr

structure KeyEvent where
  key : Key
  control : Bool
  stroke : Stroke
  deriving DecidableEq, Repr

/-- The press of a key. -/
def KeyEvent.press (k : Key) : KeyEvent := ⟨k, false, .press⟩

/-- The keys of the keypad from 0 to F. -/
def keypadKeys : List Char := ['x', '1', '2', '3', 'q', 'w', 'e', 'a', 's', 'd', 'z', 'c', '4', 'r', 'f', 'v']

/-- The key of the keypad that a key stands for. -/
def Key.onKeypad? : Key → Option Nibble
  | .character c => (List.finRange 16).find? fun x => keypadKeys[x.val]? == some c
  | _ => none

/-! ## The keypad -/

/-- How long a key counts as held after it was pressed. -/
def holdTime : Duration := .ofMilliseconds 50

/-- The keypad on which the recorded keys are held. -/
def heldKeys (c : Console) : Keypad := .ofHeld (c.pressedAt.map Option.isSome)

def updateKeys (c : Console) : Console := { c with runner := c.runner.setKeys c.heldKeys.mask }

/-- Records the press of a key. -/
def press (now : Duration) (x : Nibble) (c : Console) : Console :=
  updateKeys { c with pressedAt := c.pressedAt.setIfInBounds x.val (some now) }

/-- Whether a key pressed then is no longer held. -/
def expired (now pressed : Duration) : Bool := decide (pressed.nanoseconds + holdTime.nanoseconds < now.nanoseconds)

/-- Lets go of the keys whose time is over. -/
def release (now : Duration) (c : Console) : Console :=
  if c.pressedAt.toList.any (·.any (expired now)) then
    updateKeys { c with pressedAt := c.pressedAt.map (Option.filter fun t => !expired now t) }
  else c

/-! ## Commands -/

/-- The bytes of memory in rows of sixteen, the first `index` bytes after `start`; a row begins on a new line with its
address. -/
def dumpFrom (start : Nat) : Nat → List UInt8 → String
  | _, [] => ""
  | index, b :: rest =>
    (if index % 16 = 0 then "\n" ++ Numeral.hex 3 (start + index) ++ ": " else "")
      ++ Numeral.hex 2 b.toNat ++ " " ++ dumpFrom start (index + 1) rest

/-- Marks the line at the program counter. -/
def markedLine (pc : UInt16) (l : Listing.Line) : String := (if l.address = pc then ">" else " ") ++ l.text ++ "\n"

/-- What is shown for the answer of a command. -/
def replyText (pc : UInt16) : Reply → String
  | .ok => "OK"
  | .awaitingKey => "Waiting for a key (Fx0A)"
  | .breakpoints addresses =>
    "Breakpoints: [" ++ String.intercalate ", " (addresses.map fun a => Numeral.hex 3 a.toNat) ++ "]"
  | .memory start bytes => dumpFrom start.toNat 0 bytes
  | .listing lines => String.join (lines.map (markedLine pc))
  | .quit => ""

/-- What is shown for a line that is no command. -/
def errorText (e : Grammar.Error) : String := e.headline?.getD "<help>"

/-- Carries out a command and shows its answer. -/
def carryOut (command : Command) (c : Console) : Console :=
  match Debugger.execute c.runner command with
  | (.error (.crashed message), r) => { c with runner := r, broken := some message }
  | (.error e, r) => { c with runner := r, output := e.message }
  | (.ok reply, r) =>
    { c with runner := r, output := replyText c.frame.pc reply, done := c.done || reply == .quit }

/-- Carries out a line; a line that is no command is not remembered. -/
def submit (line : List Char) (c : Console) : Console :=
  match Command.parse line with
  | .ok command => carryOut command { c with last := some command }
  | .error e => { c with output := errorText e, last := none }

/-- Carries out the last command again. -/
def again (c : Console) : Console :=
  match c.last with
  | some command => c.carryOut command
  | none => c

/-- Carries out the command line and empties it, unless the command breaks off. -/
def enter (c : Console) : Console :=
  let after := if c.input.isEmpty then c.again else c.submit c.input
  if after.broken.isSome then after else { after with input := [] }

/-! ## Events -/

/-- Stops the loop. -/
def pause (c : Console) : Console :=
  match Debugger.pause c.runner with
  | (.ok _, r) => { c with runner := r, output := "Paused" }
  | (.error e, r) => { c with runner := r, output := e.message }

/-- A key while a loop is live. -/
def play (now : Duration) (k : Key) (c : Console) : Console :=
  if k = .escape then c.pause
  else
    match k.onKeypad? with
    | some x => c.press now x
    | none => c

/-- A key while no loop is live. -/
def edit (k : Key) (c : Console) : Console :=
  match k with
  | .escape => { c with done := true }
  | .enter => c.enter
  | .character ch => { c with input := c.input ++ [ch] }
  | .backspace => { c with input := c.input.dropLast }
  | .other => c

/-- Takes a key event. A loop takes all of them, the command line only presses. -/
def handle (now : Duration) (e : KeyEvent) (c : Console) : Console :=
  if e.control && e.key == .character 'c' then { c with done := true }
  else if c.runner.isLive then c.play now e.key
  else if e.stroke = .press then c.edit e.key
  else c

/-! ## Frames -/

/-- What is shown for a run that ended by itself. -/
def endText : RunEnd → String
  | .breakpoint a => "Hit breakpoint at " ++ Numeral.hex 3 a.toNat
  | .stopped => "Stopped"
  | .faulted f => f.message
  | .crashed => EngineError.crashed.message

/-- Collects a run that has ended by itself. -/
def collect (c : Console) : Console :=
  match c.runner.poll with
  | (some result, r) => { c with runner := r, output := endText result }
  | (none, r) => { c with runner := r }

/-- Keeps the present state of the machine for the frame. -/
def look (c : Console) : Console := { c with frame := c.runner.machine.snapshot }

/-- Starts a frame. -/
def nextFrame (c : Console) : Console := c.collect.look

/-- The console at a later moment without key events, both counted from a reading of the clock. -/
def advance (origin earlier later : Duration) (c : Console) : Console :=
  { c with runner := c.runner.advance origin earlier later }

/-- The console once its machine has come to rest. -/
def settle (now : Duration) (c : Console) : Console := { c with runner := c.runner.settle now }

/-- Closes the console; a live loop is stopped first, and its error is the result. -/
def close (c : Console) : Except CommandError Unit :=
  if c.runner.isLive then (Debugger.pause c.runner).1.map fun _ => () else .ok ()

end Console

end Chip8
