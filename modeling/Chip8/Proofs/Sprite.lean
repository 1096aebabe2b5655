import Chip8.Proofs.Step

/-!
# What a sprite draw does to each pixel

A sprite of any length, placed anywhere, hits a pixel as often as the wrapped rows and columns of its set bits fall on
it (`Display.hits`). Drawing turns the pixel over once for each hit, and a lit pixel was turned off just when a pixel
was hit twice, or once while it was lit. The induction is on the rows of the sprite, from any display and any flag
(`Display.drawn_drawFrom`).
-/

namespace Chip8

namespace Display

/-! ## Hits -/

/-- The places of a sprite with `n` rows: a row and one of eight columns. -/
def places (n : Nat) : List (Nat × Nat) := (List.range n).flatMap fun k => (List.range 8).map fun j => (k, j)

/-- Whether the place `(k, j)` of a sprite at `(x, y)` is set and falls on the pixel in column `c` of row `r`. -/
def isHit (x y : Nat) (sprite : List UInt8) (c r : Nat) (place : Nat × Nat) : Bool :=
  decide ((y + place.1) % 32 = r) && decide ((x + place.2) % 64 = c) &&
    (sprite.getD place.1 0).toNat.testBit (7 - place.2)

/-- How often a sprite at `(x, y)` hits the pixel in column `c` of row `r`. -/
def hits (x y : Nat) (sprite : List UInt8) (c r : Nat) : Nat := (places sprite.length).countP (isHit x y sprite c r)

theorem places_succ (n : Nat) :
    places (n + 1) = (List.range 8).map (fun j => (0, j)) ++ (places n).map fun place => (place.1 + 1, place.2) := by
  have hr : List.range (n + 1) = 0 :: (List.range n).map Nat.succ := List.range_succ_eq_map
  unfold places
  rw [hr, List.flatMap_cons, List.flatMap_map, List.map_flatMap]
  simp only [List.map_map]
  rfl

theorem mem_places {n : Nat} {place : Nat × Nat} : place ∈ places n ↔ place.1 < n ∧ place.2 < 8 := by
  obtain ⟨k, j⟩ := place
  simp [places]

/-- A pixel is hit if the wrapped place of a set bit is on it. -/
theorem hits_pos_iff {x y : Nat} {sprite : List UInt8} {c r : Nat} :
    0 < hits x y sprite c r ↔ ∃ k < sprite.length, ∃ j < 8,
      (y + k) % 32 = r ∧ (x + j) % 64 = c ∧ (sprite.getD k 0).toNat.testBit (7 - j) = true := by
  unfold hits
  rw [List.countP_pos_iff]
  constructor
  · rintro ⟨⟨k, j⟩, hplace, hhit⟩
    obtain ⟨hk, hj⟩ := mem_places.mp hplace
    simp only [isHit, Bool.and_eq_true, decide_eq_true_eq] at hhit
    exact ⟨k, hk, j, hj, hhit.1.1, hhit.1.2, hhit.2⟩
  · rintro ⟨k, hk, j, hj, hr, hc, hbit⟩
    refine ⟨(k, j), mem_places.mpr ⟨hk, hj⟩, ?_⟩
    simp only [isHit, hr, hc, hbit, decide_true, Bool.true_and]

/-- A column less than eight to the right of the sprite's edge is a bit of the byte. -/
theorem getMsbD_spriteRow (pixels x : UInt8) {c : Nat} (hc : c < 64) :
    (spriteRow pixels x).getMsbD c = pixels.toBitVec.getMsbD ((c + (64 - x.toNat % 64)) % 64) := by
  have hx : x.toNat % 64 < 64 := Nat.mod_lt _ (by decide)
  have happ (j : Nat) : (pixels.toBitVec ++ 0#56).getMsbD j = pixels.toBitVec.getMsbD j := by
    rw [BitVec.getMsbD_append]
    split
    · rename_i hj
      rw [BitVec.getMsbD_zero, BitVec.getMsbD_of_ge _ _ hj]
    · rfl
  rw [spriteRow, BitVec.getMsbD_rotateRight, Nat.mod_eq_of_lt hx, decide_eq_true hc, Bool.true_and]
  split
  · rw [happ]
    congr 1
    omega
  · rw [happ]
    congr 1
    omega

/-- The places of one row hit a pixel at most once. -/
theorem countP_row (pixels x : UInt8) {c : Nat} (hc : c < 64) :
    (List.range 8).countP (fun j => decide ((x.toNat + j) % 64 = c) && pixels.toNat.testBit (7 - j)) =
      ((spriteRow pixels x).getMsbD c).toNat := by
  have hbit := getMsbD_spriteRow pixels x hc
  -- the one column of the sprite that may fall on the pixel
  generalize hj₀ : (c + (64 - x.toNat % 64)) % 64 = j₀ at hbit
  have hcount : (List.range 8).countP (fun j => decide ((x.toNat + j) % 64 = c) && pixels.toNat.testBit (7 - j)) =
      (List.range 8).countP fun j => j == j₀ && (spriteRow pixels x).getMsbD c := by
    refine List.countP_congr fun j hj => ?_
    have hj := List.mem_range.mp hj
    have hcol : (x.toNat + j) % 64 = c ↔ j = j₀ := by omega
    by_cases h : j = j₀
    · subst h
      rw [hbit, BitVec.getMsbD_eq_getLsbD, decide_eq_true hj, decide_eq_true (hcol.mpr rfl), beq_self_eq_true]
      rfl
    · rw [decide_eq_false (mt hcol.mp h), beq_false_of_ne h, Bool.false_and, Bool.false_and]
  rw [hcount]
  cases hb : (spriteRow pixels x).getMsbD c with
  | false => simp
  | true =>
    have hlt : j₀ < 8 := BitVec.lt_of_getMsbD (hbit.symm.trans hb)
    have hone := List.count_range (a := j₀) (n := 8)
    rw [if_pos hlt] at hone
    simpa [List.count] using hone

theorem isHit_succ (x y : Nat) (pixels : UInt8) (rest : List UInt8) (c r : Nat) (place : Nat × Nat) :
    isHit x y (pixels :: rest) c r (place.1 + 1, place.2) = isHit x (y + 1) rest c r place := by
  simp only [isHit, List.getD_cons_succ, Nat.add_assoc, Nat.add_comm 1]

/-- The hits of a sprite are those of its first row and those of the other rows. -/
theorem hits_cons (x : UInt8) (y : Nat) (pixels : UInt8) (rest : List UInt8) {c : Nat} (r : Nat) (hc : c < 64) :
    hits x.toNat y (pixels :: rest) c r =
      (decide (y % 32 = r) && (spriteRow pixels x).getMsbD c).toNat + hits x.toNat (y + 1) rest c r := by
  have hfirst : (List.range 8).countP (isHit x.toNat y (pixels :: rest) c r ∘ fun j => (0, j)) =
      (decide (y % 32 = r) && (spriteRow pixels x).getMsbD c).toNat := by
    by_cases hr : y % 32 = r
    · rw [decide_eq_true hr, Bool.true_and, ← countP_row pixels x hc]
      refine List.countP_congr fun j _ => ?_
      simp [isHit, hr]
    · rw [decide_eq_false hr, Bool.false_and]
      refine List.countP_eq_zero.mpr fun j _ => ?_
      simp [isHit, hr]
  have hrest : (places rest.length).countP
      (isHit x.toNat y (pixels :: rest) c r ∘ fun place => (place.1 + 1, place.2)) = hits x.toNat (y + 1) rest c r :=
    List.countP_congr fun place _ => by rw [Function.comp, isHit_succ]
  rw [hits, List.length_cons, places_succ, List.countP_append, List.countP_map, List.countP_map, hfirst, hrest]

/-! ## One row -/

/-- A row and the row in which only one column is lit have a lit pixel in common just if this pixel is lit. -/
theorem isLit_eq_getMsbD (row : BitVec 64) {c : Nat} (hc : c < 64) : isLit row c = row.getMsbD c := by
  have hcolumn : column? c = some (BitVec.twoPow 64 (63 - c)) := if_pos hc
  rw [isLit, hcolumn, Option.any_some, BitVec.and_twoPow, BitVec.getMsbD_eq_getLsbD, decide_eq_true hc, Bool.true_and]
  cases row.getLsbD (64 - 1 - c) with
  | false => rfl
  | true =>
    have hbit : (BitVec.twoPow 64 (63 - c)).getLsbD (63 - c) = true := by
      rw [BitVec.getLsbD_twoPow, decide_eq_true (by omega : 63 - c < 64), decide_eq_true rfl, Bool.and_self]
    refine bne_iff_ne.mpr fun hzero => ?_
    rw [if_pos rfl] at hzero
    rw [hzero] at hbit
    cases BitVec.getLsbD_zero.symm.trans hbit

/-- A pixel of the display is a bit of its row. -/
theorem pixel_eq_getMsbD (d : Display) {c r : Nat} (hc : c < 64) (hr : r < 32) : d.pixel c r = (d.row r).getMsbD c := by
  have hw : decide (c < width) = true := decide_eq_true hc
  have hh : decide (r < height) = true := decide_eq_true hr
  rw [pixel, hw, hh, Bool.true_and, Bool.true_and, isLit_eq_getMsbD _ hc]

/-- What is lit before or set in the pattern, and not lit after, is lit before and set in the pattern. -/
theorem or_xor_xor (old pattern : BitVec 64) : (old ||| pattern) ^^^ (old ^^^ pattern) = old &&& pattern := by
  refine BitVec.eq_of_getMsbD_eq fun c _ => ?_
  rw [BitVec.getMsbD_xor, BitVec.getMsbD_or, BitVec.getMsbD_xor, BitVec.getMsbD_and]
  cases old.getMsbD c <;> cases pattern.getMsbD c <;> rfl

/-- Turning over the pixels of a row. -/
theorem pixel_flip (d : Display) (y : Nat) (pattern : BitVec 64) {c r : Nat} (hc : c < 64) (hr : r < 32) :
    (d.flip y pattern).pixel c r = (d.pixel c r ^^ (decide (y % 32 = r) && pattern.getMsbD c)) := by
  rw [pixel_eq_getMsbD _ hc hr, pixel_eq_getMsbD d hc hr, row_flip, Nat.mod_eq_of_lt hr]
  by_cases h : y % 32 = r
  · rw [if_pos h, BitVec.getMsbD_xor, decide_eq_true h, Bool.true_and]
  · rw [if_neg h, decide_eq_false h, Bool.false_and, Bool.xor_false]

/-- A row and a pattern have a lit pixel in common just when the pattern turns off a lit pixel. -/
theorem and_ne_zero_iff (d : Display) (y : Nat) (pattern : BitVec 64) :
    (d.row y &&& pattern != 0) = true ↔
      ∃ c < 64, ∃ r < 32, d.pixel c r = true ∧ (decide (y % 32 = r) && pattern.getMsbD c) = true := by
  have hy : y % 32 < 32 := Nat.mod_lt _ (by decide)
  have hpixel {c : Nat} (hc : c < 64) : d.pixel c (y % 32) = (d.row y).getMsbD c := by
    rw [pixel_eq_getMsbD d hc hy]
    simp only [row, Nat.mod_mod]
  constructor
  · intro h
    have hne : d.row y &&& pattern ≠ 0 := bne_iff_ne.mp h
    -- otherwise all sixty-four columns would be dark
    apply Classical.byContradiction
    intro hno
    refine hne (BitVec.eq_of_getMsbD_eq fun c hc => ?_)
    have hzero : BitVec.getMsbD (0 : BitVec 64) c = false := BitVec.getMsbD_zero
    rw [BitVec.getMsbD_and, hzero]
    refine Bool.eq_false_iff.mpr fun hboth => hno ⟨c, hc, y % 32, hy, ?_⟩
    rw [hpixel hc, decide_eq_true rfl, Bool.true_and]
    exact Bool.and_eq_true_iff.mp hboth
  · rintro ⟨c, hc, r, -, hlit, hset⟩
    obtain ⟨hr, hbit⟩ := Bool.and_eq_true_iff.mp hset
    obtain rfl := of_decide_eq_true hr
    rw [hpixel hc] at hlit
    refine bne_iff_ne.mpr fun hz => ?_
    have hdark : (d.row y &&& pattern).getMsbD c = false := by
      rw [hz]
      exact BitVec.getMsbD_zero
    rw [BitVec.getMsbD_and, hlit, hbit] at hdark
    cases hdark

/-! ## All rows -/

/-- A pixel that is hit at least twice, or once while it is lit, is turned off at some time. -/
def turnsOff (d : Display) (x y : Nat) (sprite : List UInt8) (c r : Nat) : Prop :=
  2 ≤ hits x y sprite c r ∨ 1 ≤ hits x y sprite c r ∧ d.pixel c r = true

/-- The first row turns a pixel off, or the other rows do on what the first row left. -/
theorem turnsOff_cons (d : Display) (x : UInt8) (y : Nat) (pixels : UInt8) (rest : List UInt8) {c r : Nat}
    (hc : c < 64) (hr : r < 32) :
    d.turnsOff x.toNat y (pixels :: rest) c r ↔
      d.pixel c r = true ∧ (decide (y % 32 = r) && (spriteRow pixels x).getMsbD c) = true ∨
        (d.flip y (spriteRow pixels x)).turnsOff x.toNat (y + 1) rest c r := by
  unfold turnsOff
  rw [hits_cons x y pixels rest r hc, pixel_flip d y _ hc hr]
  cases decide (y % 32 = r) && (spriteRow pixels x).getMsbD c with
  | false => simp
  | true =>
    -- a dark pixel is lit by the first row, so that the next hit turns it off
    cases d.pixel c r with
    | false =>
      simp only [Bool.toNat_true, Bool.false_xor, Bool.false_eq_true, and_true, and_false, false_or, or_false]
      omega
    | true =>
      simp only [Bool.toNat_true, Bool.xor_self, Bool.false_eq_true, and_true, and_false, or_false, true_or, iff_true]
      omega

theorem odd_toNat_add (b : Bool) (n : Nat) : decide ((b.toNat + n) % 2 = 1) = (b ^^ decide (n % 2 = 1)) := by
  cases b with
  | false => rw [Bool.toNat_false, Nat.zero_add, Bool.false_xor]
  | true =>
    rw [Bool.toNat_true, Bool.true_xor, ← decide_not]
    refine decide_eq_decide.mpr ?_
    omega

/-- Drawing a sprite row by row, from any display and any flag. -/
theorem drawn_drawFrom (x : UInt8) (y : Nat) (sprite : List UInt8) (hit : Bool) (d : Display) :
    (∀ c < 64, ∀ r < 32, (drawFrom x y sprite (hit, d)).2.pixel c r =
        (d.pixel c r ^^ decide (hits x.toNat y sprite c r % 2 = 1))) ∧
      ((drawFrom x y sprite (hit, d)).1 = true ↔
        hit = true ∨ ∃ c < 64, ∃ r < 32, d.turnsOff x.toNat y sprite c r) := by
  induction sprite generalizing y hit d with
  | nil =>
    refine ⟨fun c _ r _ => ?_, ?_⟩
    · simp [drawFrom, hits, places]
    · simp [drawFrom, turnsOff, hits, places]
  | cons pixels rest ih =>
    obtain ⟨hpixel, hcollision⟩ :=
      ih (y + 1) (hit || d.row y &&& spriteRow pixels x != 0) (d.flip y (spriteRow pixels x))
    simp only [drawFrom, or_xor_xor]
    refine ⟨fun c hc r hr => ?_, ?_⟩
    · rw [hpixel c hc r hr, pixel_flip d y _ hc hr, hits_cons x y pixels rest r hc]
      rw [odd_toNat_add, Bool.xor_assoc]
    · rw [hcollision, Bool.or_eq_true, and_ne_zero_iff, or_assoc]
      refine or_congr_right ⟨?_, ?_⟩
      · rintro (⟨c, hc, r, hr, h⟩ | ⟨c, hc, r, hr, h⟩)
        · exact ⟨c, hc, r, hr, (turnsOff_cons d x y pixels rest hc hr).mpr (.inl h)⟩
        · exact ⟨c, hc, r, hr, (turnsOff_cons d x y pixels rest hc hr).mpr (.inr h)⟩
      · rintro ⟨c, hc, r, hr, h⟩
        rcases (turnsOff_cons d x y pixels rest hc hr).mp h with h | h
        · exact .inl ⟨c, hc, r, hr, h⟩
        · exact .inr ⟨c, hc, r, hr, h⟩

end Display

/-! ## The draw instruction -/

namespace Machine

/-- The index register wraps at 2 ^ 16, a multiple of the size of memory. -/
theorem indexed_mod (m : Machine) (k : Nat) : m.indexed k % 4096 = (m.i.toNat + k) % 4096 := by
  simp only [indexed, UInt16.toNat_add, UInt16.toNat_ofNat']
  omega

theorem indexedBytes_eq (m : Machine) (n : Nat) :
    m.indexedBytes n = (List.range n).map fun k => m.memory.read ((m.i.toNat + k) % 4096) := by
  refine List.map_congr_left fun k _ => ?_
  simp only [Memory.read, indexed_mod, Nat.mod_mod]

theorem length_indexedBytes (m : Machine) (n : Nat) : (m.indexedBytes n).length = n := by
  rw [indexedBytes, List.length_map, List.length_range]

/-- The step of a word that starts with the digit D. -/
theorem step_of_draw {m : Machine} {x y n : Nibble} (h : m.fetch = Word.ofDigits 0xD x y n) :
    m.step = (.executed, m.advance.drawIndexed x y n) := by
  refine step_of_executed ?_
  rw [attempt, Instruction.decode_eq_draw_iff.mpr h]
  rfl

end Machine

/-- What a sprite draw does to each pixel and when it tells of a collision, and that `Dxyn` is this draw, with the flag
set afterwards. -/
theorem Display.draw_pixels :
    (∀ (d : Display) (x y : UInt8) (sprite : List UInt8),
      (∀ c < 64, ∀ r < 32, (d.draw x y sprite).2.pixel c r =
          (d.pixel c r ^^ decide (hits x.toNat y.toNat sprite c r % 2 = 1))) ∧
        ((d.draw x y sprite).1 = true ↔ ∃ c < 64, ∃ r < 32,
          2 ≤ hits x.toNat y.toNat sprite c r ∨ 1 ≤ hits x.toNat y.toNat sprite c r ∧ d.pixel c r = true)) ∧
      ∀ (m : Machine) (x y n : Nibble), m.fetch = Word.ofDigits 0xD x y n →
        ∃ hit display,
          m.display.draw (m.reg x) (m.reg y) ((List.range n.val).map fun k => m.memory.read ((m.i.toNat + k) % 4096)) =
            (hit, display) ∧
          m.step = (.executed,
            { m with pc := wrapAdd m.pc 2, display := display, v := m.v.set 0xF (if hit then 1 else 0) }) := by
  refine ⟨fun d x y sprite => ?_, fun m x y n h => ⟨_, _, rfl, ?_⟩⟩
  · obtain ⟨hpixel, hcollision⟩ := drawn_drawFrom x y.toNat sprite false d
    refine ⟨hpixel, hcollision.trans ?_⟩
    rw [Bool.false_eq_true, false_or]
    rfl
  · rw [Machine.step_of_draw h, ← m.indexedBytes_eq]
    rfl

/-- A machine whose program draws the glyph of zero at the upper left corner. -/
def Machine.drawsGlyph : Machine :=
  { initial Config.standard (.scripted []) with memory := Memory.initial.writeMany 0x200 [0xD0, 0x05] }

theorem Display.draw_pixels_glyph :
    Machine.drawsGlyph.fetch = Word.ofDigits 0xD 0 0 5 ∧
      ∃ hit display, Display.blank.draw 0 0 [0xF0, 0x90, 0x90, 0x90, 0xF0] = (hit, display) ∧
        Machine.drawsGlyph.step = (.executed,
          { Machine.drawsGlyph with
            pc := 0x202, display := display, v := Machine.drawsGlyph.v.set 0xF (if hit then 1 else 0) }) := by
  have hfetch : Machine.drawsGlyph.fetch = Word.ofDigits 0xD 0 0 5 := by decide +kernel
  have hsprite : ((List.range (5 : Nibble).val).map fun k =>
      Machine.drawsGlyph.memory.read ((Machine.drawsGlyph.i.toNat + k) % 4096)) = [0xF0, 0x90, 0x90, 0x90, 0xF0] := by
    decide +kernel
  obtain ⟨hit, display, hdraw, hstep⟩ := draw_pixels.2 Machine.drawsGlyph 0 0 5 hfetch
  rw [hsprite] at hdraw
  exact ⟨hfetch, hit, display, hdraw, hstep⟩

end Chip8
