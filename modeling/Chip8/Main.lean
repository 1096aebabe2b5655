import Chip8.Console.Input
import Chip8.Console.View
import Chip8.Program.Job
import Chip8.Screen.Ansi

/-!
# The program

Reads the arguments, carries out their job, and leaves with the exit code. The terminal debugger takes its keys from
standard input.
-/

namespace Chip8.Program

/-- The text of an error of the system. -/
def systemText : IO.Error → String
  | .noFileOrDirectory .. => "No such file or directory (os error 2)"
  | .permissionDenied .. => "Permission denied (os error 13)"
  | .inappropriateType .. => "Is a directory (os error 21)"
  | e => e.toString

def systemFiles : Files IO where
  read path := do
    match ← (IO.FS.readBinFile path).toBaseIO with
    | .ok bytes => return .ok bytes.toList
    | .error e => return .error (systemText e)
  create path := do
    match ← (IO.FS.writeFile path "").toBaseIO with
    | .ok () => return .ok ()
    | .error e => return .error (systemText e)

/-- Random bytes from a seed of the system. -/
def systemRandom : IO RandomSource := do
  let seed ← IO.getRandomBytes 8
  return ChaCha.source (seed.toList.foldl (fun n b => n * 256 + b.toUInt64) 0)

/-- The size of the terminal as the environment tells it. -/
def terminalSize : IO (Nat × Nat) := do
  let size (name : String) (default : Nat) : IO Nat := do
    return ((← IO.getEnv name).bind String.toNat?).getD default
  return (← size "COLUMNS" Console.minWidth, ← size "LINES" Console.minHeight)

/-- A console between two frames: its clock and the line of input that is waited for. -/
structure Session where
  console : Console
  clock : Duration
  line : Task (Except IO.Error String)
  /-- The characters of an unfinished sequence of keys. -/
  pending : List Char
  /-- The screen that has been drawn last. -/
  drawn : List (List Screen.Cell)

namespace Session

def readLine : IO (Task (Except IO.Error String)) := do
  let input ← IO.getStdin
  IO.asTask input.getLine

/-- The characters of a line as `Enter` sends them. -/
def typed (line : String) : List Char := line.toList.map fun c => if c = '\n' then '\r' else c

/-- The keys that have come, the characters that are no key yet, and the next line to wait for. -/
def keys (s : Session) : IO ((List Console.KeyEvent × List Char) × Task (Except IO.Error String)) := do
  if !(← IO.hasFinished s.line) then return (([], s.pending), s.line)
  match s.line.get with
  | .ok "" | .error _ => return (([.withControl 'c'], []), s.line)
  | .ok line => return (Console.KeyEvent.read s.pending (typed line), ← readLine)

/-- One frame. -/
def turn (s : Session) (width height start : Nat) : IO Session := do
  let now := Duration.ofMilliseconds ((← IO.monoMsNow) - start)
  let console := (s.console.advance (.ofMilliseconds start) s.clock now).nextFrame
  let rows := (console.view width height).rows
  let output ← IO.getStdout
  output.putStr (Screen.ansi s.drawn rows)
  output.flush
  let ((events, pending), line) ← s.keys
  return ⟨events.foldl (fun c e => c.handle now e) (console.release now), now, line, pending, rows⟩

/-- Frames until the console is done. -/
partial def run (s : Session) (width height start : Nat) : IO Console := do
  let s ← s.turn width height start
  if s.console.done || s.console.broken.isSome then return s.console
  IO.sleep 16
  run s width height start

end Session

/-- The terminal debugger. -/
def debug (m : Machine) : IO Ending := do
  let (width, height) ← terminalSize
  IO.print Screen.clear
  let session : Session := ⟨.ofMachine m, .zero, ← Session.readLine, [], Screen.blankRows width height⟩
  let console ← session.run width height (← IO.monoMsNow)
  match console.broken, console.close with
  | some message, _ => return .ofStop (.crashed message)
  | none, .error e => return .ofStop (.failed (.ofCommand e))
  | none, .ok () => return .success "\n"

def run (tokens : List String) : IO Ending := do
  match Arguments.parse (tokens.map String.toList) with
  | .error e => return .ofGrammarError e
  | .ok a =>
    match ← a.job systemFiles .started (← systemRandom) with
    | .error stop => return .ofStop stop
    | .ok (.print text) => return .success text
    | .ok (.debug m) => debug m
    | .ok (.play _) => return .ofStop (.failed ⟨"Failed to open a window", []⟩)

end Chip8.Program

def main (tokens : List String) : IO UInt32 := do
  let ending ← Chip8.Program.run tokens
  IO.print ending.output
  IO.eprint ending.errors
  return UInt32.ofNat ending.code
