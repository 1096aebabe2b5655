import Chip8.Numeral
import Chip8.Screen.Update

/-!
# Screens as terminal text

What is drawn anew of a screen is written with escape sequences that move the cursor, unless it stands there already,
and set the colours anew where the style changes (`Screen.ansi`).
-/

namespace Chip8

/-- The last digit of the codes of a colour. -/
def Colour.code : Colour → Nat
  | .black => 0
  | .red => 1
  | .green => 2
  | .yellow => 3
  | .white => 7

/-- The sequence that sets the colours of a style. -/
def Style.sequence (s : Style) : String :=
  let colour (base : Nat) (c : Option Colour) : String :=
    (c.map fun c => ";" ++ Numeral.decimal 1 (base + c.code)).getD ""
  "\x1b[0" ++ colour 30 s.foreground ++ colour 40 s.background ++ "m"

namespace Screen

/-- The sequence that moves the cursor; a terminal counts from one. -/
def moveSequence (x y : Nat) : String :=
  "\x1b[" ++ Numeral.decimal 1 (y + 1) ++ ";" ++ Numeral.decimal 1 (x + 1) ++ "H"

/-- The sequence that clears the terminal. -/
def clear : String := "\x1b[2J"

/-- The text of updates behind another one, where `style` is the style of the terminal. -/
def updatesText (style : Style) (last : Option Update) : List Update → String
  | [] => ""
  | u :: rest =>
    (if u.follows last then "" else moveSequence u.x u.y)
      ++ (if u.cell.style = style then "" else u.cell.style.sequence)
      ++ u.cell.text ++ updatesText u.cell.style (some u) rest

/-- The text of a screen that follows another one. -/
def ansi (before after : List (List Cell)) : String :=
  match updates before after with
  | [] => ""
  | changed => Style.plain.sequence ++ updatesText .plain none changed ++ Style.plain.sequence

end Screen

end Chip8
