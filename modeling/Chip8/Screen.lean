import Chip8.Screen.Columns

/-!
# Screens of text

A screen is a grid of cells described by the panes on it. A pane is a box with a title in its upper border and lines of
text inside, cut off at its right border and below; a centred line of width `w` in `u` columns starts at column
`u / 2 - w / 2` (`Pane.cell?`). Panes do not overlap, and where there is none the screen is blank (`Screen.cell`).
-/

namespace Chip8

inductive Colour
  | black
  | red
  | green
  | yellow
  | white
  deriving DecidableEq, Repr

structure Style where
  foreground : Option Colour
  background : Option Colour
  deriving DecidableEq, Repr

namespace Style

def plain : Style := ⟨none, none⟩

/-- Coloured text on the common background. -/
def ink (c : Colour) : Style := ⟨some c, none⟩

end Style

namespace Screen

/-! ## Lines -/

/-- A cluster with its columns. -/
structure Symbol where
  text : String
  columns : Nat
  style : Style
  deriving DecidableEq, Repr

/-- The symbol of a cluster; none if it is not shown. -/
def Symbol.ofCluster? (style : Style) (cluster : List Char) : Option Symbol :=
  if cluster.any isControl || Screen.columns cluster == 0 then none
  else some ⟨String.ofList cluster, Screen.columns cluster, style⟩

abbrev Line := List Symbol

namespace Line

/-- The line of some characters. -/
def ofChars (style : Style) (cs : List Char) : Line := (clusters cs).filterMap (Symbol.ofCluster? style)

def ofString (style : Style) (s : String) : Line := ofChars style s.toList

/-- The columns that a line takes. -/
def width : Line → Nat
  | [] => 0
  | s :: rest => s.columns + width rest

/-- The symbols from the left that fit in `room` columns. -/
def fit : Nat → Line → Line
  | _, [] => []
  | room, s :: rest => if s.columns ≤ room then s :: fit (room - s.columns) rest else []

/-- What is shown of a line in `room` columns; a symbol wider than that is passed over. -/
def shown (room : Nat) (l : Line) : Line := fit room (l.filter (·.columns ≤ room))

/-- All symbols of a line of characters have its style. -/
theorem style_of_mem_ofChars {style : Style} {cs : List Char} {s : Symbol} (h : s ∈ ofChars style cs) :
    s.style = style := by
  obtain ⟨cluster, -, hs⟩ := List.mem_filterMap.1 h
  unfold Symbol.ofCluster? at hs
  split at hs
  · simp at hs
  · simp only [Option.some.injEq] at hs
    rw [← hs]

end Line

/-- The lines of a text. -/
def linesOf (style : Style) (text : List Char) : List Line := (text.splitOn '\n').map (Line.ofChars style)

/-! ## Cells -/

structure Cell where
  text : String
  style : Style
  deriving DecidableEq, Repr

def Cell.blank : Cell := ⟨" ", .plain⟩

/-- A symbol stands in the first of its columns. -/
def Symbol.cells (s : Symbol) : List Cell := ⟨s.text, s.style⟩ :: List.replicate (s.columns - 1) .blank

def Line.cells (l : Line) : List Cell := l.flatMap Symbol.cells

/-! ## Panes -/

/-- A rectangle of cells, columns and rows counted from the upper left corner. -/
structure Area where
  left : Nat
  top : Nat
  width : Nat
  height : Nat
  deriving DecidableEq, Repr

def Area.contains (a : Area) (x y : Nat) : Bool :=
  decide (a.left ≤ x) && decide (x < a.left + a.width) && decide (a.top ≤ y) && decide (y < a.top + a.height)

inductive Alignment
  | left
  | centre
  deriving DecidableEq, Repr

structure Pane where
  area : Area
  title : String
  alignment : Alignment
  lines : List Line
  deriving DecidableEq, Repr

namespace Pane

/-- The columns between the borders. -/
def room (p : Pane) : Nat := p.area.width - 2

/-- Where a line of a width starts. -/
def offset (p : Pane) (width : Nat) : Nat :=
  match p.alignment with
  | .left => 0
  | .centre => p.room / 2 - width / 2

/-- The cell of a line in column `x` between the borders. -/
def lineCell (p : Pane) (l : Line) (x : Nat) : Cell :=
  let shown := l.shown p.room
  let start := p.offset shown.width
  if x < start then .blank else (shown.cells[x - start]?).getD .blank

/-- The cell in column `x` of row `y`, both counted between the borders. -/
def inside (p : Pane) (x y : Nat) : Cell :=
  match p.lines[y]? with
  | some l => p.lineCell l x
  | none => .blank

/-- The border at column `x` of row `y` of the pane; none between the borders. -/
def border? (p : Pane) (x y : Nat) : Option String :=
  let right := p.area.width - 1
  let bottom := p.area.height - 1
  if x = 0 ∧ y = 0 then some "┌"
  else if x = 0 ∧ y = bottom then some "└"
  else if x = right ∧ y = 0 then some "┐"
  else if x = right ∧ y = bottom then some "┘"
  else if x = 0 ∨ x = right then some "│"
  else if y = 0 ∨ y = bottom then some "─"
  else none

/-- The cell of the title in column `x` of the pane. -/
def titleCell? (p : Pane) (x : Nat) : Option Cell :=
  if x = 0 then none else ((Line.ofString .plain p.title).fit p.room).cells[x - 1]?

/-- The cell in column `x` of row `y`, both counted from the corner of the pane. -/
def cell (p : Pane) (x y : Nat) : Cell :=
  match if y = 0 then p.titleCell? x else none with
  | some c => c
  | none =>
    match p.border? x y with
    | some text => ⟨text, .plain⟩
    | none => p.inside (x - 1) (y - 1)

/-- The cell in column `x` of row `y` of the screen. -/
def cell? (p : Pane) (x y : Nat) : Option Cell :=
  if p.area.contains x y then some (p.cell (x - p.area.left) (y - p.area.top)) else none

end Pane

end Screen

open Screen (Cell Pane)

structure Screen where
  width : Nat
  height : Nat
  panes : List Pane
  deriving DecidableEq, Repr

namespace Screen

def cell (s : Screen) (x y : Nat) : Cell := (s.panes.findSome? (·.cell? x y)).getD .blank

/-- The cells of a row. -/
def row (s : Screen) (y : Nat) : List Cell := (List.range s.width).map fun x => s.cell x y

/-- The text of a row without the blanks at its end. -/
def rowText (s : Screen) (y : Nat) : String :=
  String.join (((s.row y).reverse.dropWhile (·.text == " ")).reverse.map Cell.text)

/-- The text of the screen, row by row. -/
def text (s : Screen) : List String := (List.range s.height).map s.rowText

/-- The cells with a background of their own, row by row, with their columns and rows. -/
def highlighted (s : Screen) : List (Nat × Nat × Cell) :=
  (List.range s.height).flatMap fun y =>
    (List.range s.width).filterMap fun x =>
      let c := s.cell x y
      if c.style.background.isSome then some (x, y, c) else none

end Screen

end Chip8
