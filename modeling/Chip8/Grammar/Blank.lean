import Chip8.Grammar

/-!
# Splitting a line into tokens

Tokens are separated by white space of any length, and none is empty. White space is what has that property in Unicode.
-/

namespace Chip8.Grammar

/-- Whether a character is white space. -/
def isBlank (c : Char) : Bool :=
  let n := c.toNat
  (9 ≤ n && n ≤ 13) || n == 0x20 || n == 0x85 || n == 0xA0 || n == 0x1680 || (0x2000 ≤ n && n ≤ 0x200A)
    || n == 0x2028 || n == 0x2029 || n == 0x202F || n == 0x205F || n == 0x3000

/-- The tokens of a line behind the characters of an unfinished one, newest first. -/
def splitFrom : Token → List Char → List Token
  | [], [] => []
  | current, [] => [current.reverse]
  | current, c :: rest =>
    if isBlank c then
      if current.isEmpty then splitFrom [] rest else current.reverse :: splitFrom [] rest
    else splitFrom (c :: current) rest

/-- The tokens of a line. -/
def split (line : List Char) : List Token := splitFrom [] line

end Chip8.Grammar
