/-!
# Ranges of code points

Classes of characters are given by the ranges of their code points, in rising order.
-/

namespace Chip8.Screen

/-- The first and the last code point of each range. -/
abbrev Ranges := List (Nat × Nat)

/-- Whether a code point is in one of the ranges. -/
def Ranges.contains : Ranges → Nat → Bool
  | [], _ => false
  | (first, last) :: rest, n => if n ≤ last then first ≤ n else Ranges.contains rest n

end Chip8.Screen
