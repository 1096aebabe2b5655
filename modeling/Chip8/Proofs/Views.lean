import Chip8.Console.View
import Chip8.Proofs.Footprint
import Chip8.Proofs.Lines
import Chip8.Proofs.Panes

/-!
# The views of the display and of the keypad

A pixel may be asked for, looked up in its row, read in the text of the display, or seen on the screen of the console;
all of these tell the same (`Display.agrees`, `Console.cell_display`). The display is cut off at no size with room for
all panes, and stands in the middle of the left column. On the same screen the keys that are held are the only cells
with a background (`Console.background_iff`). Main statement: `Console.views_agree`.
-/

namespace Chip8

namespace Display

variable (d : Display) {x y : Nat}

/-! ## Rows and text -/

theorem row?_of_lt (hy : y < 32) : d.row? y = .ok (d.row y) := if_pos hy

theorem pixel_eq_getLsbD (hx : x < 64) (hy : y < 32) : d.pixel x y = (d.row y).getLsbD (63 - x) := by
  rw [pixel_eq_getMsbD d hx hy, BitVec.getMsbD_eq_getLsbD, decide_eq_true hx, Bool.true_and]

/-- The row in which only one column is lit, and what it tells of another row. -/
theorem exists_column (hx : x < 64) (row : BitVec 64) :
    ∃ mask, column? x = some mask ∧ (row &&& mask != 0) = row.getMsbD x := by
  have hcolumn : column? x = some (1#64 <<< (63 - x)) := if_pos hx
  have hlit := isLit_eq_getMsbD row hx
  rw [isLit, hcolumn, Option.any_some] at hlit
  exact ⟨_, hcolumn, hlit⟩

theorem splitOn_text :
    d.text.toList.splitOn '\n' = (d.rows.toList.map fun r => Numeral.chars 2 64 r.toNat) ++ [[]] := by
  have htext : d.text.toList = ended '\n' (d.rows.toList.map fun r => Numeral.chars 2 64 r.toNat) := by
    simp [text, ended, String.toList_join, List.flatMap_map, Numeral.binary, Numeral.write, width]
  rw [htext]
  refine splitOn_ended fun p hp => ?_
  obtain ⟨r, -, rfl⟩ := List.mem_map.mp hp
  exact Numeral.not_mem_chars (by omega) (by omega) (by decide) 64 r.toNat

theorem getElem?_rows (hy : y < 32) : d.rows.toList[y]? = some (d.row y) := by
  rw [row]
  simp [Nat.mod_eq_of_lt hy, hy]

/-- The digit in column `x` of line `y`. -/
theorem char_text (hx : x < 64) (hy : y < 32) :
    (d.text.toList.splitOn '\n')[y]?.bind (·[x]?) = some (if d.pixel x y then '1' else '0') := by
  have hrow := d.getElem?_rows hy
  have hline : (d.text.toList.splitOn '\n')[y]? = some (Numeral.chars 2 64 (d.row y).toNat) := by
    rw [splitOn_text, List.getElem?_append_left (by simpa using hy), List.getElem?_map, hrow]
    rfl
  have hdigit := Numeral.getElem?_chars_two (d.row y).isLt hx
  rw [hline, Option.bind_some, hdigit, pixel_eq_getLsbD d hx hy]
  rfl

/-- A row, the row in which one column is lit, and the text of the display tell of a pixel what `pixel` tells. -/
structure Agrees (d : Display) (x y : Nat) : Prop where
  row : ∃ row, d.row? y = .ok row ∧ row.getLsbD (63 - x) = d.pixel x y
  column : ∃ row mask, d.row? y = .ok row ∧ column? x = some mask ∧ (row &&& mask != 0) = d.pixel x y
  text : (d.text.toList.splitOn '\n')[y]?.bind (·[x]?) = some (if d.pixel x y then '1' else '0')

theorem agrees (hx : x < 64) (hy : y < 32) : Agrees d x y where
  row := ⟨_, d.row?_of_lt hy, (d.pixel_eq_getLsbD hx hy).symm⟩
  column := by
    obtain ⟨mask, hmask, hbit⟩ := exists_column hx (d.row y)
    exact ⟨_, mask, d.row?_of_lt hy, hmask, hbit.trans (d.pixel_eq_getMsbD hx hy).symm⟩
  text := d.char_text hx hy

/-- What a line of the display pane goes by. -/
theorem isLit_row (hx : x < 64) (hy : y < 32) : isLit (d.row y) x = d.pixel x y := by
  obtain ⟨row, mask, hrow, hmask, hbit⟩ := (d.agrees hx hy).column
  cases (d.row?_of_lt hy).symm.trans hrow
  rw [isLit, hmask]
  exact hbit

end Display

namespace Console

open Screen (Area Line Pane Symbol)

/-! ## Panes -/

def displayPane (c : Console) (width : Nat) : Pane :=
  ⟨⟨0, 0, width, displayHeight⟩, " Display ", .centre, displayLines c.runner.machine.display⟩

def keypadPane (c : Console) (left : Nat) : Pane :=
  ⟨⟨left, lineHeight + registersHeight, sideWidth, keypadHeight⟩, " Keypad ", .centre,
    keypadRows.map (keypadLine c.runner.machine.keypad)⟩

section Panes

variable (c : Console) {width height : Nat}

theorem panes_view (hw : 85 ≤ width) (hh : 40 ≤ height) :
    (c.view width height).panes = c.mainPanes (width - 19) height ++ c.sidePanes (width - 19) height := by
  have hroom : ¬ (width < minWidth ∨ height < minHeight) := by
    have hminWidth : minWidth = 85 := rfl
    have hminHeight : minHeight = 40 := rfl
    omega
  rw [view, if_neg hroom]
  rfl

theorem narrow_displayLine (row : BitVec 64) : (displayLine row).Narrow := by
  intro s hs
  obtain ⟨x, -, rfl⟩ := List.mem_map.mp hs
  rfl

theorem plain_displayLine (row : BitVec 64) : (displayLine row).Plain := by
  intro s hs
  obtain ⟨x, -, rfl⟩ := List.mem_map.mp hs
  rfl

/-- Nothing but the keypad has a background. -/
theorem plain_of_mem_panes (hw : 85 ≤ width) (hh : 40 ≤ height) {p : Pane} (hp : p ∈ (c.view width height).panes) :
    p = c.keypadPane (width - 19) ∨ ∀ l ∈ p.lines, l.Plain := by
  have htexts (texts : List String) : ∀ l ∈ texts.map (Line.ofString .plain), l.Plain := by
    intro l hl
    obtain ⟨text, -, rfl⟩ := List.mem_map.mp hl
    exact Line.plain_ofChars rfl _
  have hlines (text : List Char) : ∀ l ∈ Screen.linesOf .plain text, l.Plain := by
    intro l hl
    obtain ⟨line, -, rfl⟩ := List.mem_map.mp hl
    exact Line.plain_ofChars rfl _
  rw [panes_view c hw hh] at hp
  simp only [mainPanes, sidePanes, List.cons_append, List.nil_append, List.mem_cons, List.not_mem_nil, or_false] at hp
  rcases hp with rfl | rfl | rfl | rfl | rfl | rfl | rfl
  case inr.inr.inr.inr.inr.inl => exact .inl rfl
  all_goals refine .inr ?_
  · intro l hl
    obtain ⟨row, -, rfl⟩ := List.mem_map.mp hl
    exact plain_displayLine row
  · exact hlines _
  · exact hlines _
  · intro l hl
    rw [List.mem_singleton.mp hl, stateLine]
    split
    · exact Line.plain_ofChars rfl _
    · exact Line.plain_ofChars rfl _
  · exact htexts _
  · exact htexts _

theorem right_of_mainPanes {p : Pane} (hp : p ∈ c.mainPanes width height) : p.area.left + p.area.width = width := by
  simp only [mainPanes, List.mem_cons, List.not_mem_nil, or_false] at hp
  rcases hp with rfl | rfl | rfl
  · exact Nat.zero_add width
  · exact Nat.zero_add width
  · exact Nat.zero_add width

theorem left_of_sidePanes {left : Nat} {p : Pane} (hp : p ∈ c.sidePanes left height) : p.area.left = left := by
  simp only [sidePanes, List.mem_cons, List.not_mem_nil, or_false] at hp
  rcases hp with rfl | rfl | rfl | rfl
  · rfl
  · rfl
  · rfl
  · rfl

/-- In the right column each pane begins where the one before ends. -/
theorem sidePanes_stacked (left height : Nat) :
    (c.sidePanes left height).Pairwise fun p q => p.area.top + p.area.height ≤ q.area.top := by
  simp [sidePanes, stackTop, lineHeight, registersHeight, keypadHeight]

/-- No pane is in the way of one of the right column. -/
theorem free_of_sidePanes {left x y : Nat} {before after : List Pane} {p q : Pane}
    (hs : c.sidePanes left height = before ++ p :: after) (hq : q ∈ c.mainPanes left height ++ before)
    (hx : left ≤ x) (hy : p.area.top ≤ y) : q.area.contains x y = false := by
  rcases List.mem_append.mp hq with hq | hq
  · have hright := c.right_of_mainPanes hq
    exact Screen.Area.contains_of_right (by omega) y
  · have hstacked := c.sidePanes_stacked left height
    rw [hs] at hstacked
    have hbelow := (List.pairwise_append.mp hstacked).2.2 q hq p List.mem_cons_self
    exact Screen.Area.contains_of_below (by omega) x

/-- A symbol in the right column is seen, unless it is cut off. -/
theorem cell_sidePane (hw : 85 ≤ width) (hh : 40 ≤ height) {before after : List Pane} {p : Pane}
    (hs : c.sidePanes (width - 19) height = before ++ p :: after) {l : Line} {y : Nat} (hl : p.lines[y]? = some l)
    (hy : y + 2 < p.area.height) (narrow : l.Narrow) {k : Nat} {symbol : Symbol} (hsymbol : l[k]? = some symbol)
    (hk : k < p.room) :
    (c.view width height).cell (width - 19 + (p.offset (min p.room l.length) + k + 1)) (p.area.top + (y + 1)) =
      symbol.cell := by
  have hpanes : (c.view width height).panes = (c.mainPanes (width - 19) height ++ before) ++ p :: after := by
    rw [panes_view c hw hh, hs, List.append_assoc]
  have hmem : p ∈ c.sidePanes (width - 19) height := by simp [hs]
  have hleft := c.left_of_sidePanes hmem
  rw [← hleft]
  exact Screen.cell_symbol hpanes hl hy narrow hsymbol hk fun q hq =>
    c.free_of_sidePanes hs hq (by omega) (Nat.le_add_right _ _)

/-! ## The display -/

/-- A pixel of the display on the screen. -/
theorem cell_display (hw : 85 ≤ width) (hh : 40 ≤ height) {x y : Nat} (hx : x < 64) (hy : y < 32) :
    (c.view width height).cell (1 + (width - 85) / 2 + x) (1 + y) =
      ⟨if c.runner.machine.display.pixel x y then "█" else " ", .ink .green⟩ := by
  have hpanes : (c.view width height).panes = [] ++ c.displayPane (width - 19) ::
      ((c.mainPanes (width - 19) height).tail ++ c.sidePanes (width - 19) height) := panes_view c hw hh
  have hline : (c.displayPane (width - 19)).lines[y]? = some (displayLine (c.runner.machine.display.row y)) := by
    simp [displayPane, displayLines, c.runner.machine.display.getElem?_rows hy]
  have hsymbol : (displayLine (c.runner.machine.display.row y))[x]? =
      some ⟨if c.runner.machine.display.pixel x y then "█" else " ", 1, .ink .green⟩ := by
    simp [displayLine, Display.width, hx, c.runner.machine.display.isLit_row hx hy]
  have hlength : (displayLine (c.runner.machine.display.row y)).length = 64 := by simp [displayLine, Display.width]
  have hroom : (c.displayPane (width - 19)).room = width - 21 := by
    simp only [displayPane, Pane.room]
    omega
  -- the line has room, and half of what is left is in front of it
  have hstart : (c.displayPane (width - 19)).offset (min (width - 21) 64) = (width - 85) / 2 := by
    simp only [Pane.offset, hroom]
    simp only [displayPane]
    omega
  have hcell := Screen.cell_symbol hpanes hline (by simp only [displayPane, displayHeight, Display.height]; omega)
    (narrow_displayLine _) hsymbol (by omega) (by simp)
  have hcolumn : 1 + (width - 85) / 2 + x = 0 + ((width - 85) / 2 + x + 1) := by omega
  have hrow : 1 + y = 0 + (y + 1) := by omega
  rw [hroom, hlength, hstart] at hcell
  rw [hcolumn, hrow]
  exact hcell

/-! ## The keypad -/

/-- The column and the row of a key on the keypad. -/
def keyPlace (k : Nibble) : Nat × Nat :=
  let row := keypadRows.findIdx (·.contains k)
  ((keypadRows[row]?.getD []).idxOf k, row)

/-- The cell of a key on a screen of a width. -/
def keyCell (width : Nat) (k : Nibble) : Nat × Nat := (width - 13 + 2 * (keyPlace k).1, 17 + (keyPlace k).2)

/-- Each key is on the keypad once. -/
theorem keypadRows_eq_some_iff :
    ∀ row < 4, ∀ column < 4, ∀ k, (keypadRows[row]?.bind (·[column]?) = some k ↔ keyPlace k = (column, row)) := by
  decide +kernel

theorem keyPlace_lt : ∀ k, (keyPlace k).1 < 4 ∧ (keyPlace k).2 < 4 := by decide +kernel

theorem length_of_mem_keypadRows : ∀ keys ∈ keypadRows, keys.length = 4 := by decide +kernel

theorem isHeld_iff (p : Keypad) (k : Nibble) : p.isHeld (UInt8.ofNat k.val) = p.mask.toNat.testBit k.val := by
  have hk : (UInt8.ofNat k.val).toNat = k.val := by
    rw [UInt8.toNat_ofNat']
    omega
  have hlt : UInt8.ofNat k.val < 16 := by
    rw [UInt8.lt_iff_toNat_lt, hk]
    exact k.isLt
  rw [Keypad.isHeld, hk, decide_eq_true hlt, Bool.true_and]

/-- A key has a background while it is held. -/
theorem cell_keySymbol (p : Keypad) (k : Nibble) : (keySymbol p k).cell =
    ⟨Numeral.hex 1 k.val, if p.mask.toNat.testBit k.val then ⟨some .black, some .white⟩ else .plain⟩ := by
  rw [Symbol.cell, keySymbol, isHeld_iff]

theorem background_keySymbol_iff (p : Keypad) (k : Nibble) :
    (keySymbol p k).style.background ≠ none ↔ p.mask.toNat.testBit k.val = true := by
  rw [keySymbol, isHeld_iff]
  cases p.mask.toNat.testBit k.val with
  | false => simp [Style.plain]
  | true => simp

/-- In a row of the keypad every other symbol is a key, and the others are blank. -/
theorem keypadLine_cases {p : Keypad} {keys : List Nibble} {i : Nat} {s : Symbol}
    (h : (keypadLine p keys)[i]? = some s) :
    (∃ column k, i = 2 * column ∧ keys[column]? = some k ∧ s = keySymbol p k) ∨ s = ⟨" ", 1, .plain⟩ := by
  obtain ⟨hi, -⟩ := List.getElem?_eq_some_iff.mp h
  rw [keypadLine, List.length_intersperse, List.length_map] at hi
  unfold keypadLine at h
  obtain ⟨column, rfl | rfl⟩ : ∃ column, i = 2 * column ∨ i = 2 * column + 1 := ⟨i / 2, by omega⟩
  · rw [List.getElem?_intersperse_two_mul, List.getElem?_map] at h
    obtain ⟨k, hk, rfl⟩ := Option.map_eq_some_iff.mp h
    exact .inl ⟨column, k, rfl, hk, rfl⟩
  · rw [List.getElem?_intersperse_two_mul_add_one (by rw [List.length_map]; omega)] at h
    exact .inr (Option.some.inj h).symm

theorem narrow_keypadLine (p : Keypad) (keys : List Nibble) : (keypadLine p keys).Narrow := by
  intro s hs
  obtain ⟨i, hi⟩ := List.getElem?_of_mem hs
  rcases keypadLine_cases hi with ⟨-, k, -, -, rfl⟩ | rfl
  · rfl
  · rfl

theorem length_keypadLine (p : Keypad) {keys : List Nibble} (h : keys ∈ keypadRows) :
    (keypadLine p keys).length = 7 := by
  rw [keypadLine, List.length_intersperse, List.length_map, length_of_mem_keypadRows keys h]

theorem room_keypadPane (left : Nat) : (c.keypadPane left).room = 17 := rfl

theorem offset_keypadPane (left : Nat) : (c.keypadPane left).offset 7 = 5 := by
  simp only [keypadPane, Pane.offset, Pane.room, sideWidth]

/-- A key on the screen. -/
theorem cell_key (hw : 85 ≤ width) (hh : 40 ≤ height) (k : Nibble) :
    (c.view width height).cell (keyCell width k).1 (keyCell width k).2 =
      ⟨Numeral.hex 1 k.val,
        if c.runner.machine.keypad.mask.toNat.testBit k.val then ⟨some .black, some .white⟩ else .plain⟩ := by
  have hside : c.sidePanes (width - 19) height = (c.sidePanes (width - 19) height).take 2 ++
      c.keypadPane (width - 19) :: (c.sidePanes (width - 19) height).drop 3 := rfl
  obtain ⟨hcolumn, hrow⟩ := keyPlace_lt k
  obtain ⟨keys, hkeys, hkey⟩ := Option.bind_eq_some_iff.mp ((keypadRows_eq_some_iff _ hrow _ hcolumn k).mpr rfl)
  have hline : (c.keypadPane (width - 19)).lines[(keyPlace k).2]? =
      some (keypadLine c.runner.machine.keypad keys) := by
    rw [keypadPane, List.getElem?_map, hkeys]
    rfl
  have hsymbol : (keypadLine c.runner.machine.keypad keys)[2 * (keyPlace k).1]? =
      some (keySymbol c.runner.machine.keypad k) := by
    rw [keypadLine, List.getElem?_intersperse_two_mul, List.getElem?_map, hkey]
    rfl
  have hlength := length_keypadLine c.runner.machine.keypad (List.mem_of_getElem? hkeys)
  have hcell := c.cell_sidePane hw hh hside hline (by simp only [keypadPane, keypadHeight]; omega)
    (narrow_keypadLine _ keys) hsymbol (by rw [room_keypadPane]; omega)
  rw [hlength, room_keypadPane, Nat.min_eq_right (by omega), offset_keypadPane, cell_keySymbol] at hcell
  have hleft : (keyCell width k).1 = width - 19 + (5 + 2 * (keyPlace k).1 + 1) := by
    rw [keyCell]
    omega
  have htop : (keyCell width k).2 = lineHeight + registersHeight + ((keyPlace k).2 + 1) := by
    rw [keyCell, lineHeight, registersHeight]
    omega
  rw [hleft, htop]
  exact hcell

/-- A background on the keypad is that of a held key. -/
theorem background_keypadPane {left x y : Nat} (h : ((c.keypadPane left).cell x y).style.background ≠ none) :
    ∃ k, x = 6 + 2 * (keyPlace k).1 ∧ y = 1 + (keyPlace k).2 ∧
      c.runner.machine.keypad.mask.toNat.testBit k.val = true := by
  have hborder : (c.keypadPane left).border? x y = none :=
    Classical.byContradiction fun hne => h (Pane.background_of_border hne)
  obtain ⟨hleft, -, htop, -⟩ := Pane.border?_eq_none_iff.mp hborder
  rw [Pane.cell_of_not_border hborder, Pane.inside] at h
  split at h
  case h_2 => exact absurd rfl h
  case h_1 l hl =>
    rw [keypadPane, List.getElem?_map] at hl
    obtain ⟨keys, hkeys, rfl⟩ := Option.map_eq_some_iff.mp hl
    have hmem := List.mem_of_getElem? hkeys
    have hlength := length_keypadLine c.runner.machine.keypad hmem
    rw [Pane.lineCell_of_narrow _ (narrow_keypadLine _ keys), hlength, room_keypadPane, Nat.min_eq_right (by omega),
      offset_keypadPane, List.take_of_length_le (by omega)] at h
    split at h
    · exact absurd rfl h
    · next hstart =>
      cases hsymbol : (keypadLine c.runner.machine.keypad keys)[x - 1 - 5]? with
      | none =>
        rw [hsymbol] at h
        exact absurd rfl h
      | some s =>
        rw [hsymbol] at h
        rcases keypadLine_cases hsymbol with ⟨column, k, hcolumn, hk, rfl⟩ | rfl
        · -- a key in its place
          have hrow : y - 1 < 4 := (List.getElem?_eq_some_iff.mp hkeys).1
          have hwide : column < 4 := by
            rw [← length_of_mem_keypadRows keys hmem]
            exact (List.getElem?_eq_some_iff.mp hk).1
          have hplace := (keypadRows_eq_some_iff _ hrow _ hwide k).mp (by rw [hkeys]; exact hk)
          refine ⟨k, ?_, ?_, (background_keySymbol_iff _ k).mp h⟩
          · rw [hplace]
            dsimp only
            omega
          · rw [hplace]
            dsimp only
            omega
        · exact absurd rfl h

/-- The cells with a background are those of the keys that are held. -/
theorem background_iff (hw : 85 ≤ width) (hh : 40 ≤ height) (x y : Nat) :
    ((c.view width height).cell x y).style.background ≠ none ↔
      ∃ k, keyCell width k = (x, y) ∧ c.runner.machine.keypad.mask.toNat.testBit k.val = true := by
  constructor
  · intro h
    obtain ⟨p, hp, hin, hcell⟩ := Screen.exists_pane_of_background h
    rw [hcell] at h
    rcases c.plain_of_mem_panes hw hh hp with rfl | hplain
    · obtain ⟨⟨hleft, -⟩, htop, -⟩ := Screen.Area.contains_iff.mp hin
      obtain ⟨k, hx, hy, hheld⟩ := c.background_keypadPane h
      refine ⟨k, Prod.ext ?_ ?_, hheld⟩
      · simp only [keypadPane] at hx hleft
        simp only [keyCell]
        omega
      · simp only [keypadPane, lineHeight, registersHeight] at hy htop
        simp only [keyCell]
        omega
    · exact absurd (Pane.background_of_plain hplain _ _) h
  · rintro ⟨k, hcell, hheld⟩
    have hkey := c.cell_key hw hh k
    rw [hcell, if_pos hheld] at hkey
    rw [hkey]
    exact Option.some_ne_none _

end Panes

/-! ## All views -/

/-- What is seen of the display and of the keypad on a screen. -/
structure Seen (c : Console) (width height : Nat) : Prop where
  /-- The display is in the middle of the left column, below its border. -/
  pixel : ∀ x < 64, ∀ y < 32, (c.view width height).cell (1 + (width - 85) / 2 + x) (1 + y) =
    ⟨if c.runner.machine.display.pixel x y then "█" else " ", .ink .green⟩
  key (k : Nibble) : (c.view width height).cell (keyCell width k).1 (keyCell width k).2 =
    ⟨Numeral.hex 1 k.val,
      if c.runner.machine.keypad.mask.toNat.testBit k.val then ⟨some .black, some .white⟩ else .plain⟩
  background (x y : Nat) : ((c.view width height).cell x y).style.background ≠ none ↔
    ∃ k, keyCell width k = (x, y) ∧ c.runner.machine.keypad.mask.toNat.testBit k.val = true

/-- **All views agree.** The rows of the display, its text and the screen of the console, of any size with room for all
panes, show the same pixels; outside the display none is lit. The cells of the screen with a background are the keys
that are held. -/
theorem views_agree :
    (∀ (d : Display) (x y : Nat), if x < 64 ∧ y < 32 then d.Agrees x y else d.pixel x y = false) ∧
      ∀ (c : Console) (width height : Nat), 85 ≤ width → 40 ≤ height → c.Seen width height := by
  refine ⟨fun d x y => ?_, fun c width height hw hh => ?_⟩
  · split
    · next hin => exact d.agrees hin.1 hin.2
    · next hout => exact d.pixel_outside hout
  · exact ⟨fun x hx y hy => c.cell_display hw hh hx hy, c.cell_key hw hh, c.background_iff hw hh⟩

/-- A console with one pixel lit in the last row, and two keys held. -/
def showsPixel : Console :=
  .ofMachine { Machine.initial Config.standard (.scripted []) with
    display := (Display.blank.draw 62 31 [0x80]).2
    keypad := ⟨0x8002⟩ }

/-- The pixel is read in the text, and seen one column to the right of where the smallest screen shows it. -/
theorem views_agree_showsPixel :
    (62 < 64 ∧ 31 < 32) ∧ (85 ≤ 88 ∧ 40 ≤ 41) ∧
      (showsPixel.runner.machine.display.text.toList.splitOn '\n')[31]?.bind (·[62]?) = some '1' ∧
      (showsPixel.view 88 41).cell 64 32 = ⟨"█", .ink .green⟩ ∧
      (showsPixel.view 88 41).cell 63 32 = ⟨" ", .ink .green⟩ ∧
      ((showsPixel.view 88 41).cell 75 17).style.background ≠ none ∧
      ((showsPixel.view 88 41).cell 77 17).style.background = none := by
  have hpixel : showsPixel.runner.machine.display.pixel 62 31 = true := by decide +kernel
  have hdark : showsPixel.runner.machine.display.pixel 61 31 = false := by decide +kernel
  have hagrees := views_agree.1 showsPixel.runner.machine.display 62 31
  have hseen := views_agree.2 showsPixel 88 41 (by decide) (by decide)
  have hcell := hseen.pixel 62 (by decide) 31 (by decide)
  have hnext := hseen.pixel 61 (by decide) 31 (by decide)
  rw [if_pos (by decide)] at hagrees
  have hdigit := hagrees.text
  rw [hpixel] at hdigit hcell
  rw [hdark] at hnext
  refine ⟨by decide, by decide, hdigit, hcell, hnext, ?_, ?_⟩
  · exact (hseen.background 75 17).mpr ⟨1, by decide +kernel, by decide +kernel⟩
  · have hnot : ¬ ∃ k, keyCell 88 k = (77, 17) ∧ showsPixel.runner.machine.keypad.mask.toNat.testBit k.val = true := by
      decide +kernel
    exact Classical.byContradiction fun h => hnot ((hseen.background 77 17).mp h)

end Console

end Chip8
