import Chip8.Proofs.Views

/-!
# The newest calls are shown

The pane of the stack has a line for each return address with its depth, the oldest first; if it has too few rows, three
dots stand for the oldest ones (`Console.stackTexts`). Whatever the height of the pane and the depth of the stack, the
lines fit, they carry their own depth and address (`Console.readCall?_stackEntry`), and the last one is the top of the
stack (`Console.getLast?_stackTexts`). All of them are on the screen (`Console.cell_stack`). Main statement:
`Console.newest_calls_shown`.
-/

namespace Chip8.Console

open Screen (Area Line Pane Symbol)

/-! ## Entries -/

/-- The depth and the return address on a line of the stack. -/
def readCall? (line : String) : Option (Nat × UInt16) :=
  match line.toList.splitOn ':' with
  | [depth, ' ' :: address] => do
    let depth ← Numeral.value? 10 depth
    let address ← Numeral.value? 16 address
    return (depth, UInt16.ofNat address)
  | _ => none

theorem toList_stackEntry (depth : Nat) (a : UInt16) :
    (stackEntry depth a).toList = Numeral.chars 10 2 depth ++ ':' :: ' ' :: Numeral.chars 16 3 a.toNat := by
  simp [stackEntry, Numeral.decimal, Numeral.write, Numeral.toList_hex]

/-- An entry carries its depth and its address. -/
theorem readCall?_stackEntry (depth : Nat) (a : UInt16) : readCall? (stackEntry depth a) = some (depth, a) := by
  have hdepth : ':' ∉ Numeral.chars 10 2 depth := Numeral.not_mem_chars (by omega) (by omega) (by decide) 2 depth
  have haddress : ':' ∉ ' ' :: Numeral.chars 16 3 a.toNat :=
    List.not_mem_cons_of_ne_of_not_mem (by decide) (Numeral.not_mem_chars (by omega) (by omega) (by decide) 3 a.toNat)
  have hsplit : (stackEntry depth a).toList.splitOn ':' =
      [Numeral.chars 10 2 depth, ' ' :: Numeral.chars 16 3 a.toNat] := by
    rw [toList_stackEntry, List.splitOn_append_cons_self_of_not_mem hdepth, List.splitOn_eq_singleton haddress]
  have hdepthValue : Numeral.value? 10 (Numeral.chars 10 2 depth) = some depth :=
    Numeral.value?_chars (by omega) (by omega) 2 depth
  have haddressValue : Numeral.value? 16 (Numeral.chars 16 3 a.toNat) = some a.toNat :=
    Numeral.value?_chars (by omega) (by omega) 3 a.toNat
  simp [readCall?, hsplit, hdepthValue, haddressValue]

/-! ## Lines -/

section Lines

variable {rows : Nat} {stack : List UInt16}

theorem stackTexts_nil (hrows : 1 ≤ rows) : stackTexts rows [] = ["Empty"] := if_neg (Nat.not_lt.mpr hrows)

theorem stackLines_of_ne_nil (hne : stack ≠ []) : stackLines stack = stack.mapIdx stackEntry :=
  if_neg (by simpa using hne)

theorem stackTexts_of_fits (hne : stack ≠ []) (hfits : stack.length ≤ rows) :
    stackTexts rows stack = stack.mapIdx stackEntry := by
  rw [stackTexts, stackLines_of_ne_nil hne, if_neg (by rw [List.length_mapIdx]; omega)]

theorem stackTexts_of_not_fits (hmore : rows < stack.length) :
    stackTexts rows stack = "..." :: (stack.mapIdx stackEntry).drop (stack.length - (rows - 1)) := by
  have hne : stack ≠ [] := List.ne_nil_of_length_pos (by omega)
  rw [stackTexts, stackLines_of_ne_nil hne, if_pos (by rw [List.length_mapIdx]; omega), List.take_reverse,
    List.reverse_reverse, List.length_mapIdx]

/-- Entry `k` of a stack. -/
theorem getElem?_mapIdx_stackEntry (stack : List UInt16) {k : Nat} (hk : k < stack.length) :
    ∃ a, stack[k]? = some a ∧ (stack.mapIdx stackEntry)[k]? = some (stackEntry k a) := by
  refine ⟨stack[k], List.getElem?_eq_getElem hk, ?_⟩
  rw [List.getElem?_mapIdx, List.getElem?_eq_getElem hk]
  rfl

/-- The text of a pane whose lines are at most `rows`. -/
structure ShowsNewest (rows : Nat) (stack : List UInt16) (texts : List String) : Prop where
  nonempty : 1 ≤ texts.length
  fits : texts.length ≤ rows
  empty : stack = [] → texts = ["Empty"]
  /-- All entries, from the oldest to the newest. -/
  all : 1 ≤ stack.length → stack.length ≤ rows → texts.length = stack.length ∧
    ∀ k < stack.length, ∃ a, stack[k]? = some a ∧ texts[k]? = some (stackEntry k a)
  /-- Three dots, and behind them as many of the newest entries as there are rows left. -/
  newest : rows < stack.length → texts.length = rows ∧ texts[0]? = some "..." ∧
    ∀ j, 1 ≤ j → j < rows → ∃ a, stack[stack.length - rows + j]? = some a ∧
      texts[j]? = some (stackEntry (stack.length - rows + j) a)

theorem showsNewest (hrows : 1 ≤ rows) (stack : List UInt16) : ShowsNewest rows stack (stackTexts rows stack) := by
  rcases Nat.eq_zero_or_pos stack.length with hzero | hpos
  · obtain rfl := List.eq_nil_of_length_eq_zero hzero
    rw [stackTexts_nil hrows]
    exact ⟨Nat.le_refl 1, hrows, fun _ => rfl, fun h => absurd h (Nat.lt_irrefl 0),
      fun h => absurd h (Nat.not_lt_zero _)⟩
  have hne : stack ≠ [] := List.ne_nil_of_length_pos hpos
  rcases Nat.lt_or_ge rows stack.length with hmore | hfits
  · -- the rows behind the dots are counted from the end
    have hlength : (stackTexts rows stack).length = rows := by
      rw [stackTexts_of_not_fits hmore, List.length_cons, List.length_drop, List.length_mapIdx]
      omega
    refine ⟨by omega, by omega, fun h => absurd h hne, fun _ h => absurd hmore (by omega), fun _ => ⟨hlength, ?_, ?_⟩⟩
    · rw [stackTexts_of_not_fits hmore]
      rfl
    · intro j hj hlast
      have hk : stack.length - rows + j < stack.length := by omega
      obtain ⟨a, ha, hentry⟩ := getElem?_mapIdx_stackEntry stack hk
      refine ⟨a, ha, ?_⟩
      obtain ⟨i, rfl⟩ : ∃ i, j = i + 1 := ⟨j - 1, by omega⟩
      have hplace : stack.length - (rows - 1) + i = stack.length - rows + (i + 1) := by omega
      rw [stackTexts_of_not_fits hmore, List.getElem?_cons_succ, List.getElem?_drop, hplace, hentry]
  · have htexts := stackTexts_of_fits hne hfits
    have hlength : (stackTexts rows stack).length = stack.length := by rw [htexts, List.length_mapIdx]
    refine ⟨by omega, by omega, fun h => absurd h hne, fun _ _ => ⟨hlength, fun k hk => ?_⟩,
      fun h => absurd h (by omega)⟩
    rw [htexts]
    exact getElem?_mapIdx_stackEntry stack hk

/-- With two rows or more the last line is the newest entry. -/
theorem getLast?_stackTexts (hrows : 2 ≤ rows) (older : List UInt16) (a : UInt16) :
    (stackTexts rows (older ++ [a])).getLast? = some (stackEntry older.length a) := by
  have hrows' : 1 ≤ rows := by omega
  have hnewest := showsNewest hrows' (older ++ [a])
  have hlength : (older ++ [a]).length = older.length + 1 := by simp
  have hlast {k : Nat} {b : UInt16} (hk : k = older.length) (hb : (older ++ [a])[k]? = some b) : b = a := by
    subst hk
    simpa using hb.symm
  rw [List.getLast?_eq_getElem?]
  rcases Nat.lt_or_ge rows (older ++ [a]).length with hmore | hfits
  · obtain ⟨hcount, -, hentries⟩ := hnewest.newest hmore
    obtain ⟨b, hb, hentry⟩ := hentries (rows - 1) (by omega) (by omega)
    have hplace : (older ++ [a]).length - rows + (rows - 1) = older.length := by omega
    rw [hplace] at hb hentry
    rw [hcount, hentry, hlast rfl hb]
  · obtain ⟨hcount, hentries⟩ := hnewest.all (by omega) hfits
    obtain ⟨b, hb, hentry⟩ := hentries older.length (by omega)
    rw [hcount, hlength, Nat.add_sub_cancel, hentry, hlast rfl hb]

end Lines

/-! ## The screen -/

def stackPane (c : Console) (left height : Nat) : Pane :=
  ⟨⟨left, stackTop, sideWidth, height - stackTop⟩, " Stack ", .centre,
    (stackTexts (max (height - stackTop - 2) 1) c.frame.stack).map (Line.ofString .plain)⟩

theorem printable_chars {base : Nat} (hlow : 1 < base) (hbase : base ≤ 16) (width n : Nat) :
    ∀ ch ∈ Numeral.chars base width n, Line.isPrintable ch = true := by
  have hdigits : ∀ ch ∈ Numeral.capitals, Line.isPrintable ch = true := by simp [Numeral.capitals, Line.isPrintable]
  exact fun ch hch => hdigits ch (Numeral.mem_capitals hlow hbase hch)

theorem printable_stackEntry (depth : Nat) (a : UInt16) :
    ∀ ch ∈ (stackEntry depth a).toList, Line.isPrintable ch = true := by
  intro ch hch
  rw [toList_stackEntry] at hch
  simp only [List.mem_append, List.mem_cons] at hch
  rcases hch with hch | rfl | rfl | hch
  · exact printable_chars (by omega) (by omega) 2 depth ch hch
  · rfl
  · rfl
  · exact printable_chars (by omega) (by omega) 3 a.toNat ch hch

theorem printable_stackTexts {rows : Nat} {stack : List UInt16} {text : String} (h : text ∈ stackTexts rows stack) :
    ∀ ch ∈ text.toList, Line.isPrintable ch = true := by
  have hline {text : String} (h : text ∈ stackLines stack) : ∀ ch ∈ text.toList, Line.isPrintable ch = true := by
    dsimp only [stackLines] at h
    split at h
    · obtain rfl := List.mem_singleton.mp h
      simp [Line.isPrintable]
    · obtain ⟨k, hk, rfl⟩ := List.mem_mapIdx.mp h
      exact printable_stackEntry k _
  dsimp only [stackTexts] at h
  split at h
  · rcases List.mem_cons.mp h with rfl | h
    · simp [Line.isPrintable]
    · exact hline (List.mem_reverse.mp (List.mem_of_mem_take (List.mem_reverse.mp h)))
  · exact hline h

section Screen

variable (c : Console) {width height : Nat}

theorem room_stackPane (left height : Nat) : (c.stackPane left height).room = 17 := rfl

theorem offset_stackPane (left height n : Nat) : (c.stackPane left height).offset n = 8 - n / 2 := by
  simp only [stackPane, Pane.offset, Pane.room, sideWidth]

/-- Line `y` of the stack on the screen, as far as there is room. -/
theorem cell_stack (hw : 85 ≤ width) (hh : 40 ≤ height) {y : Nat} {text : String}
    (htext : (stackTexts (height - 24) c.frame.stack)[y]? = some text) {x : Nat} {ch : Char}
    (hch : text.toList[x]? = some ch) (hx : x < 17) :
    (c.view width height).cell (width - 10 - min 17 text.length / 2 + x) (23 + y) = ⟨String.ofList [ch], .plain⟩ := by
  have hside : c.sidePanes (width - 19) height = (c.sidePanes (width - 19) height).take 3 ++
      [c.stackPane (width - 19) height] := rfl
  have hrows : max (height - stackTop - 2) 1 = height - 24 := by
    simp only [stackTop, lineHeight, registersHeight, keypadHeight]
    omega
  have hline : (c.stackPane (width - 19) height).lines[y]? =
      some (text.toList.map (Line.ofPrintable .plain)) := by
    rw [stackPane, hrows, List.getElem?_map, htext, Option.map_some, Line.ofString,
      Line.ofChars_of_printable .plain (printable_stackTexts (List.mem_of_getElem? htext))]
  have hsymbol : (text.toList.map (Line.ofPrintable .plain))[x]? = some (Line.ofPrintable .plain ch) := by
    rw [List.getElem?_map, hch]
    rfl
  have hfits : y < height - 24 := by
    have hy := (List.getElem?_eq_some_iff.mp htext).1
    have hpos : 1 ≤ height - 24 := by omega
    have hlines := (showsNewest hpos c.frame.stack).fits
    omega
  have hcell := c.cell_sidePane hw hh hside hline
    (by simp only [stackPane, stackTop, lineHeight, registersHeight, keypadHeight]; omega)
    (Line.narrow_map_ofPrintable .plain _) hsymbol hx
  rw [room_stackPane, offset_stackPane, List.length_map, String.length_toList] at hcell
  have hleft : width - 10 - min 17 text.length / 2 + x = width - 19 + (8 - min 17 text.length / 2 + x + 1) := by omega
  have htop : 23 + y = stackTop + (y + 1) := by
    simp only [stackTop, lineHeight, registersHeight, keypadHeight]
    omega
  rw [hleft, htop]
  exact hcell

/-- What is seen of the stack on a screen. -/
structure StackSeen (c : Console) (width height : Nat) : Prop where
  pane : ∃ p ∈ (c.view width height).panes, p.title = " Stack " ∧ p.area.height = height - 22 ∧
    p.lines = (stackTexts (max (p.area.height - 2) 1) c.frame.stack).map (Line.ofString .plain)
  /-- Every line is there, its characters one by one, in the middle of the seventeen columns of the pane. -/
  cell (y : Nat) (text : String) : (stackTexts (height - 24) c.frame.stack)[y]? = some text →
    ∀ x < 17, ∀ ch, text.toList[x]? = some ch →
      (c.view width height).cell (width - 10 - min 17 text.length / 2 + x) (23 + y) = ⟨String.ofList [ch], .plain⟩

theorem stackSeen (hw : 85 ≤ width) (hh : 40 ≤ height) : c.StackSeen width height where
  pane := by
    refine ⟨c.stackPane (width - 19) height, ?_, rfl, rfl, rfl⟩
    rw [panes_view c hw hh]
    simp [sidePanes, stackPane]
  cell y text htext x hx ch hch := c.cell_stack hw hh htext hch hx

end Screen

/-- **The newest calls are shown.** For every stack and every height of its pane, the lines fit and are all entries or,
behind three dots, the newest ones, each with its own depth and address; so with two lines or more the return address on
top of the stack of a machine is on the last one. On a screen of any size with room for all panes each line is seen. -/
theorem newest_calls_shown :
    (∀ (stack : List UInt16) (height : Nat),
        ShowsNewest (max (height - 2) 1) stack (stackTexts (max (height - 2) 1) stack)) ∧
      (∀ (depth : Nat) (a : UInt16), readCall? (stackEntry depth a) = some (depth, a)) ∧
      (∀ (m : Machine) (a : UInt16) (older : List UInt16) (height : Nat), m.stack = a :: older →
        2 ≤ max (height - 2) 1 →
        (stackTexts (max (height - 2) 1) m.snapshot.stack).getLast? = some (stackEntry older.length a)) ∧
      ∀ (c : Console) (width height : Nat), 85 ≤ width → 40 ≤ height → c.StackSeen width height := by
  refine ⟨fun stack height => showsNewest (Nat.le_max_right _ _) stack, readCall?_stackEntry, ?_,
    fun c width height hw hh => c.stackSeen hw hh⟩
  intro m a older height hstack hrows
  have hsnapshot : m.snapshot.stack = older.reverse ++ [a] := by simp [Machine.snapshot, hstack]
  rw [hsnapshot, getLast?_stackTexts hrows, List.length_reverse]

/-- A console whose machine is twenty calls deep. -/
def twentyCalls : Console :=
  .ofMachine { Machine.initial Config.standard (.scripted []) with stack := 0x3AB :: List.replicate 19 0x204 }

/-- On the smallest screen sixteen lines are left for twenty calls; the newest one is on the last of them. -/
theorem newest_calls_shown_twentyCalls :
    (twentyCalls.runner.machine.stack = 0x3AB :: List.replicate 19 0x204 ∧ 2 ≤ max (18 - 2) 1) ∧
      (85 ≤ 85 ∧ 40 ≤ 40) ∧
      (stackTexts 16 twentyCalls.frame.stack).getLast? = some "19: 3AB" ∧
      (stackTexts 16 twentyCalls.frame.stack)[0]? = some "..." ∧
      readCall? "19: 3AB" = some (19, 0x3AB) ∧
      (twentyCalls.view 85 40).cell 77 38 = ⟨"A", .plain⟩ := by
  have hentry : stackEntry 19 0x3AB = "19: 3AB" := by decide +kernel
  have hlast := newest_calls_shown.2.2.1 twentyCalls.runner.machine 0x3AB (List.replicate 19 0x204) 18 rfl (by decide)
  have hdots := (newest_calls_shown.1 twentyCalls.frame.stack 18).newest (by decide)
  have hread := newest_calls_shown.2.1 19 0x3AB
  have hseen := newest_calls_shown.2.2.2 twentyCalls 85 40 (by decide) (by decide)
  rw [hentry] at hread
  refine ⟨⟨rfl, by decide⟩, by decide, ?_, hdots.2.1, hread, ?_⟩
  · rw [← hentry]
    exact hlast
  · exact hseen.cell 15 "19: 3AB" (by decide +kernel) 5 (by decide) 'A' (by decide)

end Chip8.Console
