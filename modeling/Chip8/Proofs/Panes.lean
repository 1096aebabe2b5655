import Chip8.Screen

/-!
# What is seen in a pane

A line whose symbols take one column each is seen symbol by symbol, as far as there is room
(`Pane.lineCell_of_narrow`), and printable ASCII text is such a line (`Line.ofChars_of_printable`). A cell of the screen
is that of the first pane there (`cell_of_first`), and between the borders of a pane its lines are seen
(`Pane.cell_of_inside`). Nothing but a symbol of a line gives a cell a background (`Pane.background_of_plain`).
-/

namespace Chip8.Screen

/-- The cell of a symbol of one column. -/
def Symbol.cell (s : Symbol) : Cell := ⟨s.text, s.style⟩

/-! ## Lines of narrow symbols -/

namespace Line

/-- Every symbol takes one column. -/
def Narrow (l : Line) : Prop := ∀ s ∈ l, s.columns = 1

namespace Narrow

variable {l : Line}

theorem head {s : Symbol} (h : Narrow (s :: l)) : s.columns = 1 := h s List.mem_cons_self

theorem tail {s : Symbol} (h : Narrow (s :: l)) : Narrow l := fun t ht => h t (List.mem_cons_of_mem _ ht)

theorem take (h : l.Narrow) (n : Nat) : Narrow (l.take n) := fun s hs => h s (List.mem_of_mem_take hs)

theorem width_eq (h : l.Narrow) : l.width = l.length := by
  induction l with
  | nil => rfl
  | cons s rest ih =>
    rw [width, h.head, ih h.tail, List.length_cons]
    omega

theorem fit_eq (h : l.Narrow) (room : Nat) : l.fit room = l.take room := by
  induction l generalizing room with
  | nil => rw [fit, List.take_nil]
  | cons s rest ih =>
    rw [fit, h.head]
    cases room with
    | zero => rfl
    | succ room => rw [if_pos (by omega), Nat.add_sub_cancel, ih h.tail, List.take_succ_cons]

/-- As many symbols are shown as there are columns. -/
theorem shown_eq (h : l.Narrow) (room : Nat) : l.shown room = l.take room := by
  cases room with
  | zero =>
    have hnone : l.filter (·.columns ≤ 0) = [] := by
      refine List.filter_eq_nil_iff.mpr fun s hs => ?_
      simp [h s hs]
    rw [shown, hnone]
    rfl
  | succ room =>
    have hall : l.filter (·.columns ≤ room + 1) = l := by
      refine List.filter_eq_self.mpr fun s hs => ?_
      simp [h s hs]
    rw [shown, hall, h.fit_eq]

theorem cells_eq (h : l.Narrow) : l.cells = l.map Symbol.cell := by
  induction l with
  | nil => rfl
  | cons s rest ih =>
    have hcells : s.cells = [s.cell] := by
      rw [Symbol.cells, h.head]
      rfl
    have hrest : cells rest = rest.map Symbol.cell := ih h.tail
    rw [List.map_cons, ← hrest]
    simp [cells, hcells]

end Narrow

/-! ## Printable text -/

/-- A character of ASCII that is no control character. -/
def isPrintable (c : Char) : Bool := 0x20 ≤ c.toNat && c.toNat < 0x7F

/-- A printable character is a cluster of its own, and takes one column. -/
theorem measure_of_printable {c : Char} (h : isPrintable c = true) :
    breakClass c = .other ∧ isControl c = false ∧ columns [c] = 1 := by
  have hall : ∀ n < 0x7F, 0x20 ≤ n → breakClass (Char.ofNat n) = .other ∧ isControl (Char.ofNat n) = false ∧
      columns [Char.ofNat n] = 1 := by decide +kernel
  simp only [isPrintable, Bool.and_eq_true, decide_eq_true_eq] at h
  rw [← c.ofNat_toNat]
  exact hall c.toNat h.2 h.1

theorem clustersFrom_of_printable {k : Context} {current rest : List Char} (hk : k.last = .other)
    (h : ∀ c ∈ rest, isPrintable c = true) :
    clustersFrom k current rest = current.reverse :: rest.map fun c => [c] := by
  induction rest generalizing k current with
  | nil => rfl
  | cons c rest ih =>
    have hclass := (measure_of_printable (h c List.mem_cons_self)).1
    have happart : ¬ k.joins (breakClass c) = true := by
      unfold Context.joins
      rw [hk, hclass]
      exact Bool.false_ne_true
    rw [clustersFrom, if_neg happart, ih hclass fun d hd => h d (List.mem_cons_of_mem _ hd)]
    rfl

theorem clusters_of_printable {cs : List Char} (h : ∀ c ∈ cs, isPrintable c = true) :
    clusters cs = cs.map fun c => [c] := by
  cases cs with
  | nil => rfl
  | cons c rest =>
    have hclass := (measure_of_printable (h c List.mem_cons_self)).1
    exact clustersFrom_of_printable hclass fun d hd => h d (List.mem_cons_of_mem _ hd)

/-- The symbol of a printable character. -/
def ofPrintable (style : Style) (c : Char) : Symbol := ⟨String.ofList [c], 1, style⟩

theorem ofChars_of_printable (style : Style) {cs : List Char} (h : ∀ c ∈ cs, isPrintable c = true) :
    ofChars style cs = cs.map (ofPrintable style) := by
  rw [ofChars, clusters_of_printable h]
  induction cs with
  | nil => rfl
  | cons c rest ih =>
    obtain ⟨-, hcontrol, hcolumns⟩ := measure_of_printable (h c List.mem_cons_self)
    have hsymbol : Symbol.ofCluster? style [c] = some (ofPrintable style c) := by
      simp [Symbol.ofCluster?, hcontrol, hcolumns, ofPrintable]
    rw [List.map_cons, List.filterMap_cons_some hsymbol, ih fun d hd => h d (List.mem_cons_of_mem _ hd), List.map_cons]

theorem narrow_map_ofPrintable (style : Style) (cs : List Char) : Narrow (cs.map (ofPrintable style)) := by
  intro s hs
  obtain ⟨c, -, rfl⟩ := List.mem_map.mp hs
  rfl

/-! ## Backgrounds -/

theorem mem_of_mem_fit {l : Line} {room : Nat} {s : Symbol} (h : s ∈ l.fit room) : s ∈ l := by
  induction l generalizing room with
  | nil => exact h
  | cons t rest ih =>
    rw [fit] at h
    split at h
    · rcases List.mem_cons.mp h with rfl | h
      · exact List.mem_cons_self
      · exact List.mem_cons_of_mem _ (ih h)
    · cases h

/-- No symbol has a background. -/
def Plain (l : Line) : Prop := ∀ s ∈ l, s.style.background = none

theorem Plain.fit {l : Line} (h : l.Plain) (room : Nat) : Plain (l.fit room) := fun s hs => h s (mem_of_mem_fit hs)

theorem Plain.shown {l : Line} (h : l.Plain) (room : Nat) : Plain (l.shown room) := fun s hs =>
  h s (List.mem_filter.mp (mem_of_mem_fit hs)).1

theorem Plain.background_of_mem_cells {l : Line} (h : l.Plain) {c : Cell} (hc : c ∈ l.cells) :
    c.style.background = none := by
  obtain ⟨s, hs, hc⟩ := List.mem_flatMap.mp hc
  rcases List.mem_cons.mp hc with rfl | hc
  · exact h s hs
  · rw [List.eq_of_mem_replicate hc]
    rfl

/-- Text has the background of its style. -/
theorem plain_ofChars {style : Style} (h : style.background = none) (cs : List Char) : Plain (ofChars style cs) := by
  intro s hs
  rw [style_of_mem_ofChars hs, h]

end Line

/-! ## Panes -/

theorem Area.contains_iff {a : Area} {x y : Nat} :
    a.contains x y = true ↔ (a.left ≤ x ∧ x < a.left + a.width) ∧ a.top ≤ y ∧ y < a.top + a.height := by
  simp [Area.contains, and_assoc]

theorem Area.contains_of_right {a : Area} {x : Nat} (h : a.left + a.width ≤ x) (y : Nat) : a.contains x y = false :=
  Bool.eq_false_iff.mpr fun hin => by
    have hx := (contains_iff.mp hin).1
    omega

theorem Area.contains_of_below {a : Area} {y : Nat} (h : a.top + a.height ≤ y) (x : Nat) : a.contains x y = false :=
  Bool.eq_false_iff.mpr fun hin => by
    have hy := (contains_iff.mp hin).2
    omega

namespace Pane

/-- A narrow line is seen symbol by symbol, as far as there is room. -/
theorem lineCell_of_narrow (p : Pane) {l : Line} (narrow : l.Narrow) (x : Nat) :
    p.lineCell l x =
      if x < p.offset (min p.room l.length) then .blank
      else ((l.take p.room)[x - p.offset (min p.room l.length)]?.map Symbol.cell).getD .blank := by
  rw [lineCell, narrow.shown_eq, (narrow.take _).width_eq, (narrow.take _).cells_eq, List.length_take]
  simp only [List.getElem?_map]

theorem border?_eq_none_iff {p : Pane} {x y : Nat} :
    p.border? x y = none ↔ x ≠ 0 ∧ x ≠ p.area.width - 1 ∧ y ≠ 0 ∧ y ≠ p.area.height - 1 := by
  unfold border?
  grind

theorem cell_of_not_border {p : Pane} {x y : Nat} (h : p.border? x y = none) :
    p.cell x y = p.inside (x - 1) (y - 1) := by
  rw [cell, if_neg (border?_eq_none_iff.mp h).2.2.1, h]

/-- Between the borders the lines are seen. -/
theorem cell_of_inside {p : Pane} {x y : Nat} (hx : x < p.room) (hy : y + 2 < p.area.height) :
    p.cell (x + 1) (y + 1) = p.inside x y := by
  unfold room at hx
  exact cell_of_not_border (border?_eq_none_iff.mpr ⟨by omega, by omega, by omega, by omega⟩)

/-- A line that is shown ends in front of the border. -/
theorem offset_add_le (p : Pane) {width : Nat} (h : width ≤ p.room) : p.offset width + width ≤ p.room := by
  unfold offset
  split
  · omega
  · omega

/-- A symbol of a narrow line, unless it is cut off. -/
theorem lineCell_symbol (p : Pane) {l : Line} (narrow : l.Narrow) {k : Nat} {s : Symbol} (hs : l[k]? = some s)
    (hk : k < p.room) : p.lineCell l (p.offset (min p.room l.length) + k) = s.cell := by
  rw [p.lineCell_of_narrow narrow, if_neg (by omega), Nat.add_sub_cancel_left, List.getElem?_take_of_lt hk, hs]
  rfl

/-- Neither the border nor the title on it has a background. -/
theorem background_of_border {p : Pane} {x y : Nat} (h : p.border? x y ≠ none) :
    (p.cell x y).style.background = none := by
  obtain ⟨text, hborder⟩ := Option.ne_none_iff_exists'.mp h
  rw [cell, hborder]
  split
  · next c hc =>
    split at hc
    · unfold titleCell? at hc
      split at hc
      · cases hc
      · exact ((Line.plain_ofChars rfl _).fit _).background_of_mem_cells (List.mem_of_getElem? hc)
    · cases hc
  · rfl

theorem background_lineCell {l : Line} (h : l.Plain) (p : Pane) (x : Nat) :
    (p.lineCell l x).style.background = none := by
  unfold lineCell
  dsimp only
  split
  · rfl
  · cases hc : (l.shown p.room).cells[x - p.offset (l.shown p.room).width]? with
    | none => rfl
    | some c => exact (h.shown _).background_of_mem_cells (List.mem_of_getElem? hc)

/-- A pane without backgrounds in its lines has none in its cells. -/
theorem background_of_plain {p : Pane} (h : ∀ l ∈ p.lines, l.Plain) (x y : Nat) :
    (p.cell x y).style.background = none := by
  by_cases hborder : p.border? x y = none
  · rw [cell_of_not_border hborder, inside]
    split
    · next l hl => exact background_lineCell (h l (List.mem_of_getElem? hl)) p _
    · rfl
  · exact background_of_border hborder

theorem cell?_of_contains {p : Pane} {x y : Nat} (h : p.area.contains x y = true) :
    p.cell? x y = some (p.cell (x - p.area.left) (y - p.area.top)) := if_pos h

theorem cell?_eq_none_iff {p : Pane} {x y : Nat} : p.cell? x y = none ↔ p.area.contains x y = false := by
  unfold cell?
  cases p.area.contains x y <;> simp

end Pane

/-! ## Screens -/

/-- A cell is that of the first pane there. -/
theorem cell_of_first {s : Screen} {before after : List Pane} {p : Pane} {x y : Nat}
    (hs : s.panes = before ++ p :: after) (free : ∀ q ∈ before, q.area.contains x y = false)
    (inside : p.area.contains x y = true) : s.cell x y = p.cell (x - p.area.left) (y - p.area.top) := by
  have hbefore : before.findSome? (·.cell? x y) = none :=
    List.findSome?_eq_none_iff.mpr fun q hq => Pane.cell?_eq_none_iff.mpr (free q hq)
  rw [cell, hs, List.findSome?_append, hbefore, Option.none_or, List.findSome?_cons, Pane.cell?_of_contains inside]
  rfl

/-- Where a symbol of a narrow line is seen, unless it is cut off or a pane before is there. -/
theorem cell_symbol {s : Screen} {before after : List Pane} {p : Pane} (hs : s.panes = before ++ p :: after)
    {l : Line} {y : Nat} (hl : p.lines[y]? = some l) (hy : y + 2 < p.area.height) (narrow : l.Narrow) {k : Nat}
    {symbol : Symbol} (hsymbol : l[k]? = some symbol) (hk : k < p.room)
    (free : ∀ q ∈ before,
      q.area.contains (p.area.left + (p.offset (min p.room l.length) + k + 1)) (p.area.top + (y + 1)) = false) :
    s.cell (p.area.left + (p.offset (min p.room l.length) + k + 1)) (p.area.top + (y + 1)) = symbol.cell := by
  obtain ⟨hlength, -⟩ := List.getElem?_eq_some_iff.mp hsymbol
  have hfits := p.offset_add_le (Nat.min_le_left p.room l.length)
  have hcolumn : p.offset (min p.room l.length) + k < p.room := by omega
  have hinside :
      p.area.contains (p.area.left + (p.offset (min p.room l.length) + k + 1)) (p.area.top + (y + 1)) = true := by
    have hroom : p.room = p.area.width - 2 := rfl
    exact Area.contains_iff.mpr ⟨by omega, by omega⟩
  rw [cell_of_first hs free hinside, Nat.add_sub_cancel_left, Nat.add_sub_cancel_left,
    Pane.cell_of_inside hcolumn hy, Pane.inside, hl]
  exact p.lineCell_symbol narrow hsymbol hk

/-- A background is that of some pane. -/
theorem exists_pane_of_background {s : Screen} {x y : Nat} (h : (s.cell x y).style.background ≠ none) :
    ∃ p ∈ s.panes, p.area.contains x y = true ∧ s.cell x y = p.cell (x - p.area.left) (y - p.area.top) := by
  unfold cell at h ⊢
  cases hc : s.panes.findSome? (·.cell? x y) with
  | none =>
    rw [hc] at h
    exact absurd rfl h
  | some c =>
    obtain ⟨p, hp, hcell⟩ := List.exists_of_findSome?_eq_some hc
    refine ⟨p, hp, ?_⟩
    cases hin : p.area.contains x y with
    | false =>
      rw [Pane.cell?_eq_none_iff.mpr hin] at hcell
      cases hcell
    | true =>
      rw [Pane.cell?_of_contains hin] at hcell
      exact ⟨rfl, (Option.some.inj hcell).symm⟩

end Chip8.Screen
