import Chip8.Console
import Chip8.Screen

/-!
# What the console shows

Two columns of panes: the display, the output and the command line on the left, the state of the machine on the right
(`Console.view`). A screen that is too small for them shows only a notice.
-/

namespace Chip8.Console

open Screen (Area Line Pane Symbol)

/-! ## Text -/

/-- A blank or a block for each pixel of a row of the display. -/
def displayLine (row : BitVec 64) : Line :=
  (List.range Display.width).map fun x => ⟨if Display.isLit row x then "█" else " ", 1, .ink .green⟩

def displayLines (d : Display) : List Line := d.rows.toList.map displayLine

/-- Two registers side by side. -/
def registerPair (s : Machine.Snapshot) (x : Fin 8) : String :=
  let register (x : Nibble) := "V" ++ Numeral.hex 1 x.val ++ ": " ++ Numeral.hex 2 (s.v.get x).toNat
  register ⟨x.val, by omega⟩ ++ "   " ++ register ⟨x.val + 8, by omega⟩

def registerTexts (s : Machine.Snapshot) : List String :=
  ("PC: " ++ Numeral.hex 3 s.pc.toNat ++ "  I: " ++ Numeral.hex 3 s.i.toNat)
    :: ("DT: " ++ Numeral.hex 2 s.delay.toNat ++ "   ST: " ++ Numeral.hex 2 s.sound.toNat)
    :: "" :: (List.finRange 8).map (registerPair s)

/-- The keys as they lie on the keypad. -/
def keypadRows : List (List Nibble) :=
  [[0x1, 0x2, 0x3, 0xC], [0x4, 0x5, 0x6, 0xD], [0x7, 0x8, 0x9, 0xE], [0xA, 0x0, 0xB, 0xF]]

/-- A key, on a background of its own while it is held. -/
def keySymbol (p : Keypad) (x : Nibble) : Symbol :=
  ⟨Numeral.hex 1 x.val, 1, if p.isHeld (UInt8.ofNat x.val) then ⟨some .black, some .white⟩ else .plain⟩

def keypadLine (p : Keypad) (keys : List Nibble) : Line :=
  (keys.map (keySymbol p)).intersperse ⟨" ", 1, .plain⟩

/-- A return address with its depth. -/
def stackEntry (depth : Nat) (a : UInt16) : String := Numeral.decimal 2 depth ++ ": " ++ Numeral.hex 3 a.toNat

/-- The stack, oldest return address first. -/
def stackLines (stack : List UInt16) : List String :=
  let entries := stack.mapIdx stackEntry
  if entries.isEmpty then ["Empty"] else entries

/-- The stack in at most `rows` rows; if they are too few, its newest addresses. -/
def stackTexts (rows : Nat) (stack : List UInt16) : List String :=
  let lines := stackLines stack
  if rows < lines.length then "..." :: (lines.reverse.take (rows - 1)).reverse else lines

/-! ## Panes -/

/-- The smallest screen with room for all panes. -/
def minWidth : Nat := Display.width + 2 + 17 + 2

def minHeight : Nat := Display.height + 2 + 1 + 2 + 1 + 2

/-- The middle of `size` cells for `part` of them, an odd rest being larger in front. -/
def centred (size part : Nat) : Nat := (size - part + 1) / 2

def noticeText : String :=
  "Terminal is too small (" ++ Numeral.decimal 1 minWidth ++ "x" ++ Numeral.decimal 1 minHeight ++ " min)"

/-- The notice on a screen that is too small. -/
def notice (width height : Nat) : Pane where
  area := ⟨centred width 45, centred height 3, min width 45, min height 3⟩
  title := ""
  alignment := .centre
  lines := [.ofString (.ink .red) noticeText]

/-- The width of the right column. -/
def sideWidth : Nat := 19

/-- The height of the display with its borders. -/
def displayHeight : Nat := Display.height + 2

/-- The height of a pane with one line. -/
def lineHeight : Nat := 3

def registersHeight : Nat := 13

def keypadHeight : Nat := 6

/-- What is above the stack. -/
def stackTop : Nat := lineHeight + registersHeight + keypadHeight

/-- The panes of the left column, `width` cells wide. -/
def mainPanes (c : Console) (width height : Nat) : List Pane := [
  ⟨⟨0, 0, width, displayHeight⟩, " Display ", .centre, displayLines c.runner.machine.display⟩,
  ⟨⟨0, displayHeight, width, height - displayHeight - lineHeight⟩, " Output ", .left,
    Screen.linesOf .plain c.output.toList⟩,
  ⟨⟨0, height - lineHeight, width, lineHeight⟩, " Command ", .left, Screen.linesOf .plain c.input⟩]

def stateLine (live : Bool) : Line :=
  if live then .ofString (.ink .green) "RUNNING" else .ofString (.ink .yellow) "PAUSED"

/-- The panes of the right column, which begins at `left`. -/
def sidePanes (c : Console) (left height : Nat) : List Pane :=
  let plain (texts : List String) : List Line := texts.map (.ofString .plain)
  let stackHeight := height - stackTop
  [
    ⟨⟨left, 0, sideWidth, lineHeight⟩, " State ", .centre, [stateLine c.runner.isLive]⟩,
    ⟨⟨left, lineHeight, sideWidth, registersHeight⟩, " Registers ", .left, plain (registerTexts c.frame)⟩,
    ⟨⟨left, lineHeight + registersHeight, sideWidth, keypadHeight⟩, " Keypad ", .centre,
      keypadRows.map (keypadLine c.runner.machine.keypad)⟩,
    ⟨⟨left, stackTop, sideWidth, stackHeight⟩, " Stack ", .centre,
      plain (stackTexts (max (stackHeight - 2) 1) c.frame.stack)⟩]

/-- The screen of a size. -/
def view (c : Console) (width height : Nat) : Screen :=
  if width < minWidth ∨ height < minHeight then ⟨width, height, [notice width height]⟩
  else
    let main := width - sideWidth
    ⟨width, height, c.mainPanes main height ++ c.sidePanes main height⟩

end Chip8.Console
