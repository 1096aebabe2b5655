import Chip8.Screen.Update

/-!
# Screens on a terminal

What is seen on a terminal on which screens are drawn one after the other (`Terminal.refresh`, `Terminal.text`). A
terminal knows characters, not clusters: it puts the characters of a symbol one after the other, each in its own
columns, so that a symbol may reach farther than the cells that are kept for it. What is left over of it stays until
something else is drawn there.
-/

namespace Chip8

open Screen (Cell Update)

/-- What is in a column of a row of a terminal. -/
inductive Glyph
  | empty
  /-- A character and the marks on it. -/
  | text (chars : List Char)
  /-- The second column of a wide character. -/
  | second
  deriving DecidableEq, Repr

namespace Glyph

def isWide : Glyph → Bool
  | text (c :: _) => decide (1 < Screen.charColumns c)
  | _ => false

/-- What is seen of it. -/
def chars : Glyph → List Char
  | empty => [' ']
  | text cs => cs
  | second => []

/-- The bytes of text from which on no more marks are kept. -/
def capacity : Nat := 18

/-- Puts a mark on a character, or on a blank if there is none. -/
def mark (m : Char) : Glyph → Glyph
  | text cs => if (String.ofList cs).utf8ByteSize < capacity then text (cs ++ [m]) else text cs
  | empty => text [' ', m]
  | second => text [' ', m]

end Glyph

structure Terminal where
  width : Nat
  height : Nat
  grid : List (List Glyph)
  /-- Where the next character goes. -/
  column : Nat
  row : Nat
  /-- The screen that has been drawn last. -/
  drawn : List (List Cell)
  deriving DecidableEq, Repr

namespace Terminal

def blankRow (width : Nat) : List Glyph := List.replicate width .empty

/-- An empty terminal. -/
def blank (width height : Nat) : Terminal where
  width := width
  height := height
  grid := List.replicate height (blankRow width)
  column := 0
  row := 0
  drawn := Screen.blankRows width height

/-! ## Characters -/

/-- What is in a column of the present row. -/
def glyph (t : Terminal) (column : Nat) : Glyph := ((t.grid[t.row]?.getD [])[column]?).getD .empty

def setGlyph (column : Nat) (g : Glyph) (t : Terminal) : Terminal :=
  { t with grid := t.grid.modify t.row fun cells => cells.set column g }

/-- Puts a mark on the character before the cursor. -/
def mark (m : Char) (t : Terminal) : Terminal :=
  if t.column = 0 then t
  else
    let column := if t.glyph (t.column - 1) = .second then t.column - 2 else t.column - 1
    t.setGlyph column ((t.glyph column).mark m)

/-- Goes to the next row; at the bottom all rows move up. -/
def nextRow (t : Terminal) : Terminal :=
  if t.row + 1 < t.height then { t with column := 0, row := t.row + 1 }
  else { t with column := 0, grid := t.grid.drop 1 ++ [blankRow t.width] }

/-- Puts the first column of a character. What is left of a wide character there is no longer seen. -/
def putFirst (c : Char) (t : Terminal) : Terminal :=
  let x := t.column
  let t := if t.glyph x = .second then t.setGlyph (x - 1) .empty else t
  let t := if (t.glyph x).isWide then t.setGlyph (x + 1) (.text [' ']) else t
  { t.setGlyph x (.text [c]) with column := x + 1 }

/-- Puts the second column of a character. -/
def putSecond (t : Terminal) : Terminal :=
  let x := t.column
  let t := if (t.glyph x).isWide then t.setGlyph (x + 1) .empty else t
  { t.setGlyph x .second with column := x + 1 }

/-- Writes a character: a mark on the one before, another one at the cursor, in the next row if there is no room. -/
def write (t : Terminal) (c : Char) : Terminal :=
  let width := Screen.charColumns c
  if width = 0 then t.mark c
  else
    let t := if t.width < t.column + width then t.nextRow else t
    let t := t.putFirst c
    if width = 1 then t else t.putSecond

/-! ## Screens -/

def writeText (s : String) (t : Terminal) : Terminal := s.toList.foldl write t

def moveTo (x y : Nat) (t : Terminal) : Terminal := { t with column := x, row := y }

/-- Draws updates after another one; the cursor is moved only if they are not next to each other. -/
def draw (last : Option Update) : List Update → Terminal → Terminal
  | [], t => t
  | u :: rest, t =>
    let t := if u.follows last then t else t.moveTo u.x u.y
    draw (some u) rest (t.writeText u.cell.text)

/-- Draws a screen after the last one; a screen of another size is drawn on an empty terminal. -/
def refresh (s : Screen) (t : Terminal) : Terminal :=
  let t := if s.width = t.width ∧ s.height = t.height then t else blank s.width s.height
  { t.draw none (Screen.updates t.drawn s.rows) with drawn := s.rows }

/-- What is seen of a row without the blanks at its end. -/
def rowText (cells : List Glyph) : String :=
  String.ofList (((cells.flatMap Glyph.chars).reverse.dropWhile (· == ' ')).reverse)

/-- What is seen, row by row. -/
def text (t : Terminal) : List String := t.grid.map rowText

end Terminal

end Chip8
