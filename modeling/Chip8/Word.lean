/-!
# Instruction words

A word is read as four hexadecimal digits: its kind, the operands `x` and `y`, and the last digit `n`. The operands
`nn` (the low byte) and `nnn` (the low twelve bits) overlap them. `ofDigits`, `ofByte` and `ofAddress` put a word
together again. All of them shift and mask bits; the lemmas beside them tell the numbers.
-/

namespace Chip8

/-- A hexadecimal digit, the number of a register or the height of a sprite. -/
abbrev Nibble := Fin 16

namespace Nibble

/-- Lets digits be written as numerals. -/
instance : @NeZero Nat Zero.ofOfNat0 16 := ⟨Nat.succ_ne_zero 15⟩

/-- The digit of a byte below sixteen. -/
def ofByte? (b : UInt8) : Option Nibble :=
  if h : b.toNat < 16 then some ⟨b.toNat, h⟩ else none

theorem toNat_and (b : UInt8) : (b &&& 0x0F).toNat = b.toNat % 16 :=
  (UInt8.toNat_and b 0x0F).trans (Nat.and_two_pow_sub_one_eq_mod b.toNat 4)

theorem toNat_shiftRight (b : UInt8) : (b >>> 4).toNat = b.toNat / 16 :=
  (UInt8.toNat_shiftRight b 4).trans (Nat.shiftRight_eq_div_pow b.toNat 4)

/-- The low digit of a byte. -/
def low (b : UInt8) : Nibble :=
  ⟨(b &&& 0x0F).toNat, by rw [toNat_and]; exact Nat.mod_lt _ (by decide)⟩

/-- The high digit of a byte. -/
def high (b : UInt8) : Nibble :=
  ⟨(b >>> 4).toNat, by rw [toNat_shiftRight]; exact Nat.div_lt_of_lt_mul b.toNat_lt⟩

theorem val_low (b : UInt8) : (low b).val = b.toNat % 16 := toNat_and b

theorem val_high (b : UInt8) : (high b).val = b.toNat / 16 := toNat_shiftRight b

/-- Why a larger byte has no digit. -/
def rangeMessage : String := "u4 value must be in range 0x0-0xF"

def toUInt16 (d : Nibble) : UInt16 := UInt16.ofNat d.val

theorem toNat_toUInt16 (d : Nibble) : d.toUInt16.toNat = d.val :=
  UInt16.toNat_ofNat_of_lt' (Nat.lt_trans d.isLt (by decide))

end Nibble

namespace Word

/-! ## Reading -/

def highByte (w : UInt16) : UInt8 := (w >>> 8).toUInt8

def lowByte (w : UInt16) : UInt8 := w.toUInt8

def kind (w : UInt16) : Nibble := .high (highByte w)

def x (w : UInt16) : Nibble := .low (highByte w)

def y (w : UInt16) : Nibble := .high (lowByte w)

def n (w : UInt16) : Nibble := .low (lowByte w)

def nn (w : UInt16) : UInt8 := lowByte w

/-- The low twelve bits of a word, which are an address. -/
def nnn (w : UInt16) : UInt16 := w &&& 0x0FFF

theorem toNat_highByte (w : UInt16) : (highByte w).toNat = w.toNat / 0x100 := by
  have h := w.toNat_lt
  have hs : (w >>> 8).toNat = w.toNat / 0x100 :=
    (UInt16.toNat_shiftRight w 8).trans (Nat.shiftRight_eq_div_pow w.toNat 8)
  rw [highByte, UInt16.toNat_toUInt8, hs]
  omega

theorem toNat_lowByte (w : UInt16) : (lowByte w).toNat = w.toNat % 0x100 := w.toNat_toUInt8

theorem val_kind (w : UInt16) : (kind w).val = w.toNat / 0x1000 := by
  rw [kind, Nibble.val_high, toNat_highByte, Nat.div_div_eq_div_mul]

theorem val_x (w : UInt16) : (x w).val = w.toNat / 0x100 % 16 := by
  rw [x, Nibble.val_low, toNat_highByte]

theorem val_y (w : UInt16) : (y w).val = w.toNat / 0x10 % 16 := by
  rw [y, Nibble.val_high, toNat_lowByte]
  omega

theorem val_n (w : UInt16) : (n w).val = w.toNat % 16 := by
  rw [n, Nibble.val_low, toNat_lowByte]
  omega

theorem toNat_nn (w : UInt16) : (nn w).toNat = w.toNat % 0x100 := toNat_lowByte w

theorem toNat_nnn (w : UInt16) : (nnn w).toNat = w.toNat % 0x1000 :=
  (UInt16.toNat_and w 0x0FFF).trans (Nat.and_two_pow_sub_one_eq_mod w.toNat 12)

/-! ## Writing -/

/-- The word of four digits. -/
def ofDigits (kind x y n : Nibble) : UInt16 :=
  kind.toUInt16 <<< 12 ||| x.toUInt16 <<< 8 ||| y.toUInt16 <<< 4 ||| n.toUInt16

/-- The word of two digits and a byte. -/
def ofByte (kind x : Nibble) (nn : UInt8) : UInt16 := kind.toUInt16 <<< 12 ||| x.toUInt16 <<< 8 ||| nn.toUInt16

/-- The word of a digit and the low twelve bits of an address. -/
def ofAddress (kind : Nibble) (nnn : UInt16) : UInt16 := kind.toUInt16 <<< 12 ||| nnn &&& 0x0FFF

/-- The word whose bytes in memory are `high` and then `low`. -/
def ofBytes (high low : UInt8) : UInt16 := high.toUInt16 <<< 8 ||| low.toUInt16

/-- The two bytes of a word as they stand in memory. -/
def toBytes (w : UInt16) : List UInt8 := [highByte w, lowByte w]

/-- Numbers that have no bit in common. -/
theorem or_eq_add {i unit a b : Nat} (hunit : 1 <<< i = unit) (ha : a % unit = 0) (hb : b < unit) :
    a ||| b = a + b := by
  subst hunit
  rw [Nat.one_shiftLeft] at ha hb
  obtain ⟨c, rfl⟩ := Nat.dvd_of_mod_eq_zero ha
  exact (Nat.two_pow_add_eq_or_of_lt hb c).symm

theorem toNat_shiftLeft {w k : UInt16} {unit : Nat} (hunit : 1 <<< (k.toNat % 16) = unit)
    (h : w.toNat * unit < 0x10000) : (w <<< k).toNat = w.toNat * unit := by
  subst hunit
  rw [Nat.one_shiftLeft] at h ⊢
  rw [UInt16.toNat_shiftLeft, Nat.shiftLeft_eq]
  exact Nat.mod_eq_of_lt h

/-- A digit moved to its place in a word. -/
theorem toNat_digit_shiftLeft (d : Nibble) (k : UInt16) {unit : Nat} (hunit : 1 <<< (k.toNat % 16) = unit)
    (h : unit ≤ 0x1000) : (d.toUInt16 <<< k).toNat = d.val * unit := by
  have hd : d.val * unit < 0x10000 := Nat.lt_of_le_of_lt (Nat.mul_le_mul (Nat.le_of_lt_succ d.isLt) h) (by decide)
  rw [← d.toNat_toUInt16] at hd ⊢
  exact toNat_shiftLeft hunit hd

theorem toNat_ofDigits (kind x y n : Nibble) :
    (ofDigits kind x y n).toNat = kind.val * 0x1000 + x.val * 0x100 + y.val * 0x10 + n.val := by
  have hx := x.isLt
  have hy := y.isLt
  have hn := n.isLt
  have h₁ : kind.val * 0x1000 ||| x.val * 0x100 = kind.val * 0x1000 + x.val * 0x100 :=
    or_eq_add (show 1 <<< 12 = 0x1000 from rfl) (by omega) (by omega)
  have h₂ : kind.val * 0x1000 + x.val * 0x100 ||| y.val * 0x10 = kind.val * 0x1000 + x.val * 0x100 + y.val * 0x10 :=
    or_eq_add (show 1 <<< 8 = 0x100 from rfl) (by omega) (by omega)
  rw [ofDigits, UInt16.toNat_or, UInt16.toNat_or, UInt16.toNat_or, n.toNat_toUInt16,
    toNat_digit_shiftLeft kind 12 (show 1 <<< 12 = 0x1000 from rfl) (by decide),
    toNat_digit_shiftLeft x 8 (show 1 <<< 8 = 0x100 from rfl) (by decide),
    toNat_digit_shiftLeft y 4 (show 1 <<< 4 = 0x10 from rfl) (by decide), h₁, h₂]
  exact or_eq_add (show 1 <<< 4 = 0x10 from rfl) (by omega) (by omega)

theorem toNat_ofByte (kind x : Nibble) (b : UInt8) :
    (ofByte kind x b).toNat = kind.val * 0x1000 + x.val * 0x100 + b.toNat := by
  have hx := x.isLt
  have hb := b.toNat_lt
  have h : kind.val * 0x1000 ||| x.val * 0x100 = kind.val * 0x1000 + x.val * 0x100 :=
    or_eq_add (show 1 <<< 12 = 0x1000 from rfl) (by omega) (by omega)
  rw [ofByte, UInt16.toNat_or, UInt16.toNat_or, UInt8.toNat_toUInt16,
    toNat_digit_shiftLeft kind 12 (show 1 <<< 12 = 0x1000 from rfl) (by decide),
    toNat_digit_shiftLeft x 8 (show 1 <<< 8 = 0x100 from rfl) (by decide), h]
  exact or_eq_add (show 1 <<< 8 = 0x100 from rfl) (by omega) (by omega)

theorem toNat_ofAddress (kind : Nibble) (a : UInt16) :
    (ofAddress kind a).toNat = kind.val * 0x1000 + a.toNat % 0x1000 := by
  have ha : (a &&& 0x0FFF).toNat = a.toNat % 0x1000 := toNat_nnn a
  rw [ofAddress, UInt16.toNat_or, ha, toNat_digit_shiftLeft kind 12 (show 1 <<< 12 = 0x1000 from rfl) (by decide)]
  exact or_eq_add (show 1 <<< 12 = 0x1000 from rfl) (by omega) (by omega)

theorem toNat_ofBytes (high low : UInt8) : (ofBytes high low).toNat = high.toNat * 0x100 + low.toNat := by
  have hh := high.toNat_lt
  have hl := low.toNat_lt
  have hs := toNat_shiftLeft (show 1 <<< 8 = 0x100 from rfl) (w := high.toUInt16) (k := 8)
    (by rw [UInt8.toNat_toUInt16]; omega)
  rw [ofBytes, UInt16.toNat_or, hs, UInt8.toNat_toUInt16, UInt8.toNat_toUInt16]
  exact or_eq_add (show 1 <<< 8 = 0x100 from rfl) (by omega) (by omega)

end Word

end Chip8
