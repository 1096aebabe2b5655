import Chip8.Proofs.Sprite

/-!
# Drawing again

A draw turns every pixel over as often as it is hit (`Display.drawn_drawFrom`), whatever the picture was. So what a list
of draws leaves of a pixel depends on how many of them turn it over, odd or even (`Display.pixel_drawAll`): their order
does not matter, and a draw made again is undone. A sprite with no more rows than the display hits a pixel once at most
(`Display.hits_le_one`), so there the flag tells of the lit pixels under the set bits, and the draw made again of those
that were dark.
-/

namespace Chip8

namespace Display

/-! ## Lists of draws -/

/-- Two displays with the same pixels are the same. -/
theorem ext_pixel {d d' : Display} (h : ∀ c < 64, ∀ r < 32, d.pixel c r = d'.pixel c r) : d = d' := by
  have hrow : ∀ r (hr : r < 32), d.rows[r] = d'.rows[r] := by
    intro r hr
    refine BitVec.eq_of_getMsbD_eq fun c hc => ?_
    have hpixel := h c hc r hr
    rw [pixel_eq_getMsbD d hc hr, pixel_eq_getMsbD d' hc hr] at hpixel
    simpa only [row, Nat.mod_eq_of_lt hr] using hpixel
  have hrows : d.rows = d'.rows := Vector.ext hrow
  cases d
  cases d'
  exact congrArg Display.mk hrows

/-- A sprite and the place of its upper left corner. -/
structure Drawing where
  x : UInt8
  y : UInt8
  sprite : List UInt8
  deriving DecidableEq, Repr

/-- Draws one after the other. -/
def drawAll (d : Display) (drawings : List Drawing) : Display :=
  drawings.foldl (fun d g => (d.draw g.x g.y g.sprite).2) d

/-- Whether drawing turns the pixel in column `c` of row `r` over in the end. -/
def Drawing.turns (c r : Nat) (g : Drawing) : Bool := decide (hits g.x.toNat g.y.toNat g.sprite c r % 2 = 1)

theorem pixel_draw (d : Display) (g : Drawing) {c r : Nat} (hc : c < 64) (hr : r < 32) :
    (d.draw g.x g.y g.sprite).2.pixel c r = (d.pixel c r ^^ g.turns c r) :=
  (drawn_drawFrom g.x g.y.toNat g.sprite false d).1 c hc r hr

/-- A pixel is turned over if an odd number of the draws turn it over. -/
theorem pixel_drawAll (d : Display) (drawings : List Drawing) {c r : Nat} (hc : c < 64) (hr : r < 32) :
    (d.drawAll drawings).pixel c r = (d.pixel c r ^^ decide (drawings.countP (Drawing.turns c r) % 2 = 1)) := by
  induction drawings generalizing d with
  | nil => simp [drawAll]
  | cons g rest ih =>
    have hcount : (g :: rest).countP (Drawing.turns c r) =
        (g.turns c r).toNat + rest.countP (Drawing.turns c r) := by
      rw [List.countP_cons, Nat.add_comm]
      cases g.turns c r <;> rfl
    rw [hcount, odd_toNat_add, ← Bool.xor_assoc, ← pixel_draw d g hc hr]
    exact ih _

/-- The order of the draws does not matter. -/
theorem drawAll_perm (d : Display) {drawings drawings' : List Drawing} (h : drawings.Perm drawings') :
    d.drawAll drawings = d.drawAll drawings' := by
  refine ext_pixel fun c hc r hr => ?_
  rw [pixel_drawAll d _ hc hr, pixel_drawAll d _ hc hr, h.countP_eq]

/-- A draw made a second time, however much later, leaves the picture that there is without both. -/
theorem drawAll_cancel (d : Display) (g : Drawing) (before between behind : List Drawing) :
    d.drawAll (before ++ g :: between ++ g :: behind) = d.drawAll (before ++ between ++ behind) := by
  refine ext_pixel fun c hc r hr => ?_
  rw [pixel_drawAll d _ hc hr, pixel_drawAll d _ hc hr]
  simp only [List.countP_append, List.countP_cons]
  congr 2
  refine propext ?_
  -- both counts are odd or neither is: a draw is counted twice or not at all
  omega

theorem draw_draw (d : Display) (x y : UInt8) (sprite : List UInt8) :
    ((d.draw x y sprite).2.draw x y sprite).2 = d :=
  drawAll_cancel d ⟨x, y, sprite⟩ [] [] []

/-! ## The flag of one draw -/

/-- A set bit of a sprite at `(x, y)` is on a pixel that is lit, or dark, as `lit` says. -/
def Covers (d : Display) (x y : Nat) (sprite : List UInt8) (lit : Bool) : Prop :=
  ∃ k < sprite.length, ∃ j < 8,
    (sprite.getD k 0).toNat.testBit (7 - j) = true ∧ d.pixel ((x + j) % 64) ((y + k) % 32) = lit

/-- A sprite with no more rows than the display hits a pixel once at most. -/
theorem hits_le_one (x : UInt8) (y : Nat) {sprite : List UInt8} (short : sprite.length ≤ 32) {c : Nat} (r : Nat)
    (hc : c < 64) : hits x.toNat y sprite c r ≤ 1 := by
  induction sprite generalizing y with
  | nil => simp [hits, places]
  | cons pixels rest ih =>
    rw [List.length_cons] at short
    rw [hits_cons x y pixels rest r hc]
    by_cases hy : y % 32 = r
    · -- the other rows of the sprite are on other rows of the display
      have hrest : ¬ 0 < hits x.toNat (y + 1) rest c r := by
        rw [hits_pos_iff]
        rintro ⟨k, hk, j, -, hrow, -⟩
        omega
      have hfirst := (decide (y % 32 = r) && (spriteRow pixels x).getMsbD c).toNat_le
      omega
    · rw [decide_eq_false hy, Bool.false_and, Bool.toNat_false, Nat.zero_add]
      exact ih (y + 1) (by omega)

theorem hits_set_bit (x y : Nat) {sprite : List UInt8} {k j : Nat} (hk : k < sprite.length) (hj : j < 8)
    (hbit : (sprite.getD k 0).toNat.testBit (7 - j) = true) :
    0 < hits x y sprite ((x + j) % 64) ((y + k) % 32) :=
  hits_pos_iff.mpr ⟨k, hk, j, hj, rfl, rfl, hbit⟩

/-- Drawing a short sprite turns a lit pixel off just when a set bit is on one. -/
theorem draw_hit_iff (d : Display) (x y : UInt8) {sprite : List UInt8} (short : sprite.length ≤ 32) :
    (d.draw x y sprite).1 = true ↔ d.Covers x.toNat y.toNat sprite true := by
  have hcollision := (drawn_drawFrom x y.toNat sprite false d).2
  rw [Bool.false_eq_true, false_or] at hcollision
  refine hcollision.trans ⟨?_, ?_⟩
  · rintro ⟨c, hc, r, -, htwice | ⟨honce, hlit⟩⟩
    · have hle := hits_le_one x y.toNat short r hc
      omega
    · obtain ⟨k, hk, j, hj, rfl, rfl, hbit⟩ := hits_pos_iff.mp honce
      exact ⟨k, hk, j, hj, hbit, hlit⟩
  · rintro ⟨k, hk, j, hj, hbit, hlit⟩
    have hc : (x.toNat + j) % 64 < 64 := Nat.mod_lt _ (by decide)
    have hr : (y.toNat + k) % 32 < 32 := Nat.mod_lt _ (by decide)
    exact ⟨_, hc, _, hr, .inr ⟨hits_set_bit x.toNat y.toNat hk hj hbit, hlit⟩⟩

/-- Once a short sprite is drawn, the lit pixels under its set bits are those that were dark. -/
theorem covers_draw_iff (d : Display) (x y : UInt8) {sprite : List UInt8} (short : sprite.length ≤ 32) (lit : Bool) :
    (d.draw x y sprite).2.Covers x.toNat y.toNat sprite lit ↔ d.Covers x.toNat y.toNat sprite (!lit) := by
  have hturned : ∀ k < sprite.length, ∀ j < 8, (sprite.getD k 0).toNat.testBit (7 - j) = true →
      (d.draw x y sprite).2.pixel ((x.toNat + j) % 64) ((y.toNat + k) % 32) =
        !d.pixel ((x.toNat + j) % 64) ((y.toNat + k) % 32) := by
    intro k hk j hj hbit
    have hc : (x.toNat + j) % 64 < 64 := Nat.mod_lt _ (by decide)
    have hr : (y.toNat + k) % 32 < 32 := Nat.mod_lt _ (by decide)
    have hpos := hits_set_bit x.toNat y.toNat hk hj hbit
    have hle := hits_le_one x y.toNat short ((y.toNat + k) % 32) hc
    have hone : hits x.toNat y.toNat sprite ((x.toNat + j) % 64) ((y.toNat + k) % 32) = 1 :=
      Nat.le_antisymm hle hpos
    have hodd : Drawing.turns ((x.toNat + j) % 64) ((y.toNat + k) % 32) ⟨x, y, sprite⟩ = true :=
      decide_eq_true (by rw [hone])
    rw [pixel_draw d ⟨x, y, sprite⟩ hc hr, hodd, Bool.xor_true]
  constructor
  · rintro ⟨k, hk, j, hj, hbit, hlit⟩
    rw [hturned k hk j hj hbit] at hlit
    exact ⟨k, hk, j, hj, hbit, Bool.not_eq_eq_eq_not.mp hlit⟩
  · rintro ⟨k, hk, j, hj, hbit, hlit⟩
    refine ⟨k, hk, j, hj, hbit, ?_⟩
    rw [hturned k hk j hj hbit, hlit, Bool.not_not]

/-- No set bit is on a lit pixel and none on a dark one: there is none. -/
theorem not_covers_iff (d : Display) (x y : Nat) (sprite : List UInt8) :
    ¬ d.Covers x y sprite true ∧ ¬ d.Covers x y sprite false ↔ ∀ k < sprite.length, sprite.getD k 0 = 0 := by
  constructor
  · rintro ⟨hlit, hdark⟩ k hk
    refine UInt8.toNat_inj.mp (Nat.eq_of_testBit_eq fun i => ?_)
    have hzero : (0 : UInt8).toNat.testBit i = false := Nat.zero_testBit i
    rw [hzero]
    by_cases hi : i < 8
    · refine Bool.eq_false_iff.mpr fun hbit => ?_
      have hplace : i = 7 - (7 - i) := by omega
      rw [hplace] at hbit
      cases hpixel : d.pixel ((x + (7 - i)) % 64) ((y + k) % 32) with
      | true => exact hlit ⟨k, hk, 7 - i, by omega, hbit, hpixel⟩
      | false => exact hdark ⟨k, hk, 7 - i, by omega, hbit, hpixel⟩
    · refine Nat.testBit_lt_two_pow (Nat.lt_of_lt_of_le (UInt8.toNat_lt _) ?_)
      exact Nat.pow_le_pow_right (by decide) (Nat.le_of_not_lt hi)
  · intro hblank
    have hbits : ∀ lit, ¬ d.Covers x y sprite lit := by
      rintro lit ⟨k, hk, j, -, hbit, -⟩
      rw [hblank k hk] at hbit
      exact absurd hbit (by simp)
    exact ⟨hbits true, hbits false⟩

end Display

/-! ## The draw instruction made twice -/

/-- The byte is one if `p` holds and zero if not. -/
def Tells (b : UInt8) (p : Prop) : Prop := p ∧ b = 1 ∨ ¬ p ∧ b = 0

theorem Tells.ite {hit : Bool} {p : Prop} (h : hit = true ↔ p) : Tells (if hit then 1 else 0) p := by
  cases hit with
  | true => exact .inl ⟨h.mp rfl, rfl⟩
  | false => exact .inr ⟨fun hp => Bool.false_ne_true (h.mpr hp), rfl⟩

theorem Tells.eq_zero_iff {b : UInt8} {p : Prop} (h : Tells b p) : b = 0 ↔ ¬ p := by
  rcases h with ⟨hp, rfl⟩ | ⟨hp, rfl⟩
  · exact ⟨fun h => absurd h (by decide), fun h => absurd hp h⟩
  · exact ⟨fun _ => hp, fun _ => rfl⟩

namespace Machine

/-- A set bit of the `n` bytes at the index register, drawn at `(Vx, Vy)`, is on a pixel that is lit, or dark. -/
def Covers (m : Machine) (x y n : Nibble) (lit : Bool) : Prop :=
  ∃ k < n.val, ∃ j < 8, (m.memory.read ((m.i.toNat + k) % 4096)).toNat.testBit (7 - j) = true ∧
    m.display.pixel (((m.reg x).toNat + j) % 64) (((m.reg y).toNat + k) % 32) = lit

theorem getD_indexedBytes (m : Machine) {n k : Nat} (hk : k < n) :
    (m.indexedBytes n).getD k 0 = m.memory.read ((m.i.toNat + k) % 4096) := by
  rw [indexedBytes_eq, List.getD_eq_getElem?_getD, List.getElem?_map, List.getElem?_range hk]
  rfl

theorem covers_indexedBytes_iff (m : Machine) (x y n : Nibble) (lit : Bool) :
    m.display.Covers (m.reg x).toNat (m.reg y).toNat (m.indexedBytes n.val) lit ↔ m.Covers x y n lit := by
  unfold Display.Covers Covers
  rw [length_indexedBytes]
  refine exists_congr fun k => and_congr_right fun hk => ?_
  rw [getD_indexedBytes m hk]

theorem display_drawIndexed (m : Machine) (x y n : Nibble) :
    (m.drawIndexed x y n).display = (m.display.draw (m.reg x) (m.reg y) (m.indexedBytes n.val)).2 :=
  rfl

theorem length_sprite (m : Machine) (n : Nibble) : (m.indexedBytes n.val).length ≤ 32 := by
  rw [length_indexedBytes]
  omega

/-- The flag tells whether a set bit was on a lit pixel. -/
theorem flag_drawIndexed (m : Machine) (x y n : Nibble) :
    Tells ((m.drawIndexed x y n).reg flag) (m.Covers x y n true) := by
  have hflag : (m.drawIndexed x y n).reg flag =
      if (m.display.draw (m.reg x) (m.reg y) (m.indexedBytes n.val)).1 then 1 else 0 := by
    rw [drawIndexed, reg_setReg, if_pos rfl]
    rfl
  rw [hflag]
  exact .ite ((m.display.draw_hit_iff _ _ (m.length_sprite n)).trans (m.covers_indexedBytes_iff x y n true))

/-- Only the flag register changes when a sprite is drawn. -/
theorem reg_drawIndexed (m : Machine) (x y n : Nibble) {z : Nibble} (hz : z ≠ flag) :
    (m.drawIndexed x y n).reg z = m.reg z := by
  rw [drawIndexed, reg_setReg, if_neg (Ne.symm hz)]
  rfl

/-- A draw that keeps its coordinates is undone when it is made again, from whatever address. -/
theorem drawIndexed_drawIndexed (m : Machine) (pc : UInt16) {x y : Nibble} (n : Nibble) (hx : x ≠ flag)
    (hy : y ≠ flag) :
    (({ m.drawIndexed x y n with pc := pc } : Machine).drawIndexed x y n).display = m.display := by
  -- memory and index register are as they were
  show ((m.drawIndexed x y n).display.draw ((m.drawIndexed x y n).reg x) ((m.drawIndexed x y n).reg y)
    (m.indexedBytes n.val)).2 = m.display
  rw [reg_drawIndexed m x y n hx, reg_drawIndexed m x y n hy, display_drawIndexed]
  exact m.display.draw_draw _ _ _

/-- After a draw that keeps its coordinates the lit pixels under the sprite are those that were dark. -/
theorem covers_drawIndexed_iff (m : Machine) (pc : UInt16) {x y : Nibble} (n : Nibble) (hx : x ≠ flag) (hy : y ≠ flag)
    (lit : Bool) : ({ m.drawIndexed x y n with pc := pc } : Machine).Covers x y n lit ↔ m.Covers x y n !lit := by
  rw [← covers_indexedBytes_iff, ← covers_indexedBytes_iff]
  show (m.drawIndexed x y n).display.Covers ((m.drawIndexed x y n).reg x).toNat ((m.drawIndexed x y n).reg y).toNat
    (m.indexedBytes n.val) lit ↔ _
  rw [reg_drawIndexed m x y n hx, reg_drawIndexed m x y n hy, display_drawIndexed]
  exact m.display.covers_draw_iff _ _ (m.length_sprite n) lit

/-- There is no set bit on a lit pixel and none on a dark one if the bytes are zero. -/
theorem not_covers_iff (m : Machine) (x y n : Nibble) :
    ¬ m.Covers x y n true ∧ ¬ m.Covers x y n false ↔
      ∀ k < n.val, m.memory.read ((m.i.toNat + k) % 4096) = 0 := by
  rw [← covers_indexedBytes_iff, ← covers_indexedBytes_iff, Display.not_covers_iff, length_indexedBytes]
  refine forall_congr' fun k => imp_congr_right fun hk => ?_
  rw [getD_indexedBytes m hk]

end Machine

/-- **Drawing is an involution, and draws commute.** The order of a list of draws does not matter, and a draw made a
second time anywhere later is undone. For `Dxyn` with coordinates that are not the flag: executed again, wherever the
word stands, it restores the display, and the two flags tell of the set bits on lit and on dark pixels. -/
theorem Display.draw_involution :
    (∀ (d : Display) (drawings drawings' : List Drawing), drawings.Perm drawings' →
        d.drawAll drawings = d.drawAll drawings') ∧
      (∀ (d : Display) (g : Drawing) (before between behind : List Drawing),
        d.drawAll (before ++ g :: between ++ g :: behind) = d.drawAll (before ++ between ++ behind)) ∧
      ∀ (m : Machine) (x y n : Nibble) (pc : UInt16), x ≠ 0xF → y ≠ 0xF →
        m.fetch = Word.ofDigits 0xD x y n → ({ m with pc := pc } : Machine).fetch = Word.ofDigits 0xD x y n →
        ∃ once twice, m.step = (.executed, once) ∧ ({ once with pc := pc } : Machine).step = (.executed, twice) ∧
          twice.display = m.display ∧
          Tells (once.reg 0xF) (m.Covers x y n true) ∧ Tells (twice.reg 0xF) (m.Covers x y n false) ∧
          (once.reg 0xF = 0 ∧ twice.reg 0xF = 0 ↔ ∀ k < n.val, m.memory.read ((m.i.toNat + k) % 4096) = 0) := by
  refine ⟨fun d drawings drawings' h => d.drawAll_perm h, fun d g before between behind => ?_, ?_⟩
  · exact d.drawAll_cancel g before between behind
  · intro m x y n pc hx hy hfetch hfetch'
    -- drawing leaves the memory alone, so the same word is there to be fetched
    have hagain : ({ m.advance.drawIndexed x y n with pc := pc } : Machine).fetch = Word.ofDigits 0xD x y n := hfetch'
    have hfirst : Tells ((m.advance.drawIndexed x y n).reg 0xF) (m.Covers x y n true) :=
      m.advance.flag_drawIndexed x y n
    have hcovers := m.advance.covers_drawIndexed_iff (wrapAdd pc 2) n hx hy true
    have hsecond := Machine.flag_drawIndexed { m.advance.drawIndexed x y n with pc := wrapAdd pc 2 } x y n
    rw [propext hcovers] at hsecond
    refine ⟨_, _, Machine.step_of_draw hfetch, Machine.step_of_draw hagain, ?_, hfirst, hsecond, ?_⟩
    · exact m.advance.drawIndexed_drawIndexed (wrapAdd pc 2) n hx hy
    · rw [← Machine.not_covers_iff m x y n]
      exact and_congr hfirst.eq_zero_iff hsecond.eq_zero_iff

/-- A machine whose program draws the glyph of zero twice, at column 8 of row 0. -/
def Machine.drawsTwice : Machine :=
  { (initial Config.standard (.scripted [])).setReg 0 8 with
    memory := Memory.initial.writeMany 0x200 [0xD0, 0x15, 0xD0, 0x15] }

theorem Display.draw_involution_glyph :
    Display.blank.drawAll [⟨0, 0, [0xFF]⟩, ⟨4, 31, [0xF0, 0x90]⟩] =
        Display.blank.drawAll [⟨4, 31, [0xF0, 0x90]⟩, ⟨0, 0, [0xFF]⟩] ∧
      ∃ once twice, Machine.drawsTwice.step = (.executed, once) ∧
        ({ once with pc := 0x202 } : Machine).step = (.executed, twice) ∧
        twice.display = Machine.drawsTwice.display ∧
        Tells (once.reg 0xF) (Machine.drawsTwice.Covers 0 1 5 true) ∧
        Tells (twice.reg 0xF) (Machine.drawsTwice.Covers 0 1 5 false) ∧
        ¬ (once.reg 0xF = 0 ∧ twice.reg 0xF = 0) := by
  have hpair := draw_involution.1 blank [⟨0, 0, [0xFF]⟩, ⟨4, 31, [0xF0, 0x90]⟩]
    [⟨4, 31, [0xF0, 0x90]⟩, ⟨0, 0, [0xFF]⟩] (List.Perm.swap _ _ _)
  obtain ⟨once, twice, hfirst, hsecond, hdisplay, hon, hoff, hzero⟩ :=
    draw_involution.2.2 Machine.drawsTwice 0 1 5 0x202 (by decide) (by decide) (by decide +kernel) (by decide +kernel)
  refine ⟨hpair, once, twice, hfirst, hsecond, hdisplay, hon, hoff, fun hflags => ?_⟩
  have hglyph := hzero.mp hflags 0 (by decide)
  exact absurd hglyph (by decide +kernel)

/-- A draw at the flag register is made again somewhere else: the first one has changed the coordinate. -/
example :
    let m := { Machine.drawsTwice.setReg 0xF 8 with
      memory := Memory.initial.writeMany 0x200 [0xDF, 0x15, 0xDF, 0x15] }
    m.step.2.step.2.display ≠ m.display := by
  decide +kernel

end Chip8
