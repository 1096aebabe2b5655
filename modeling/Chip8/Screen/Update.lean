import Chip8.Screen

/-!
# What changes on a screen

Of a screen that follows another one of the same size only the cells that differ are drawn (`updates`). A symbol of
several columns covers the cells behind it, which are not drawn while it is there; cells that it has covered, or that a
symbol before it had covered, are drawn once they are free even if they are the same as before. Main statement: only
cells of the new screen are drawn (`exists_spot_of_mem_updatesFrom`).
-/

namespace Chip8.Screen

/-- The cells of a screen, row by row. -/
def rows (s : Screen) : List (List Cell) := (List.range s.height).map s.row

/-- A place with its cells on both screens. -/
structure Spot where
  x : Nat
  y : Nat
  before : Cell
  after : Cell
  deriving DecidableEq, Repr

/-- A cell to be drawn. -/
structure Update where
  x : Nat
  y : Nat
  cell : Cell
  deriving DecidableEq, Repr

/-- The columns of what is in a cell. -/
def Cell.columns (c : Cell) : Nat := Screen.columns c.text.toList

/-- Whether a selector of picture style is in a cell. -/
def Cell.isSelected (c : Cell) : Bool := c.text.toList.any (·.toNat == 0xFE0F)

namespace Spot

def isChanged (s : Spot) : Bool := s.before != s.after

def update (s : Spot) : Update := ⟨s.x, s.y, s.after⟩

/-- The updates of a place that is drawn, with the places behind it. A selected symbol of several columns may have been
narrow before, so what has changed behind it is drawn, too. -/
def draw (s : Spot) (behind : List Spot) : List Update :=
  s.update ::
    if s.after.isSelected then ((behind.take (s.after.columns - 1)).filter isChanged).map update else []

end Spot

/-- The updates of some places of which the first `covered` are covered and the first `freed` have been. -/
def updatesFrom (covered freed : Nat) : List Spot → List Update
  | [] => []
  | s :: rest =>
    let drawn := if covered = 0 ∧ (s.isChanged ∨ 0 < freed) then s.draw rest else []
    let width := s.after.columns
    drawn ++ updatesFrom (width - 1) (max (max width s.before.columns) freed - 1) rest

/-- Only cells of the new screen are drawn, and each where it belongs. -/
theorem exists_spot_of_mem_updatesFrom {covered freed : Nat} {l : List Spot} {u : Update}
    (h : u ∈ updatesFrom covered freed l) : ∃ s ∈ l, s.update = u := by
  induction l generalizing covered freed with
  | nil => simp [updatesFrom] at h
  | cons s rest ih =>
    rw [updatesFrom] at h
    rcases List.mem_append.1 h with h | h
    · split at h
      · rcases List.mem_cons.1 h with rfl | h
        · exact ⟨s, List.mem_cons_self, rfl⟩
        · split at h
          · obtain ⟨t, ht, rfl⟩ := List.mem_map.1 h
            exact ⟨t, List.mem_cons_of_mem _ (List.mem_of_mem_take (List.mem_filter.1 ht).1), rfl⟩
          · simp at h
      · simp at h
    · obtain ⟨t, ht, hu⟩ := ih h
      exact ⟨t, List.mem_cons_of_mem _ ht, hu⟩

/-- The places of a row. -/
def spotsOfRow (y : Nat) (before after : List Cell) : List Spot :=
  (before.zip after).mapIdx fun x (b, a) => ⟨x, y, b, a⟩

/-- The places of two screens of the same size. -/
def spots (before after : List (List Cell)) : List Spot :=
  ((before.zip after).mapIdx fun y (b, a) => spotsOfRow y b a).flatten

/-- What is to be drawn when a screen follows another one. -/
def updates (before after : List (List Cell)) : List Update := updatesFrom 0 0 (spots before after)

/-- Whether an update is drawn right behind another one. -/
def Update.follows (u : Update) (last : Option Update) : Bool := last.any fun l => l.x + 1 == u.x && l.y == u.y

/-- The cells of a screen on which nothing has been drawn. -/
def blankRows (width height : Nat) : List (List Cell) := List.replicate height (List.replicate width .blank)

end Chip8.Screen
