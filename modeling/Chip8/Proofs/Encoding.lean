import Chip8.Instruction.Encoding

/-!
# Decoding loses nothing

A word is the word of the instruction that it decodes to (`encode_decode`). So an instruction that a word decodes to
tells the digits of the word, and the other way round: `decode_eq_ret_iff`, `decode_eq_call_iff`,
`decode_eq_random_iff` and `decode_eq_waitKey_iff` for the instructions that may fail to execute, `decode_eq_draw_iff`
for the one that draws. The address in a decoded instruction lies in memory (`address_lt_of_decode`).
-/

namespace Chip8

/-! ## The digits of a word -/

namespace Word

/-- The address in a word lies in memory. -/
theorem nnn_lt (w : UInt16) : (nnn w).toNat < 0x1000 := by
  rw [toNat_nnn]
  exact Nat.mod_lt _ (by decide)

theorem ofAddress_kind_nnn (w : UInt16) : ofAddress (kind w) (nnn w) = w := by
  have h := w.toNat_lt
  apply UInt16.toNat_inj.mp
  simp only [toNat_ofAddress, val_kind, toNat_nnn]
  omega

theorem ofByte_kind_x_nn (w : UInt16) : ofByte (kind w) (x w) (nn w) = w := by
  have h := w.toNat_lt
  apply UInt16.toNat_inj.mp
  simp only [toNat_ofByte, val_kind, val_x, toNat_nn]
  omega

theorem ofDigits_kind_x_y_n (w : UInt16) : ofDigits (kind w) (x w) (y w) (n w) = w := by
  have h := w.toNat_lt
  apply UInt16.toNat_inj.mp
  simp only [toNat_ofDigits, val_kind, val_x, val_y, val_n]
  omega

theorem kind_ofAddress (k : Nibble) (a : UInt16) : kind (ofAddress k a) = k := by
  have h := k.isLt
  apply Fin.ext
  simp only [val_kind, toNat_ofAddress]
  omega

theorem kind_ofByte (k x : Nibble) (b : UInt8) : kind (ofByte k x b) = k := by
  have h := k.isLt
  have hx := x.isLt
  have hb := b.toNat_lt
  apply Fin.ext
  simp only [val_kind, toNat_ofByte]
  omega

/-- The digits of a word of four digits. -/
theorem digits_ofDigits (k a b c : Nibble) :
    kind (ofDigits k a b c) = k ∧ x (ofDigits k a b c) = a ∧ y (ofDigits k a b c) = b ∧ n (ofDigits k a b c) = c := by
  have hk := k.isLt
  have ha := a.isLt
  have hb := b.isLt
  have hc := c.isLt
  refine ⟨Fin.ext ?_, Fin.ext ?_, Fin.ext ?_, Fin.ext ?_⟩ <;>
    simp only [val_kind, val_x, val_y, val_n, toNat_ofDigits] <;>
    omega

theorem nn_ofByte (k x : Nibble) (b : UInt8) : nn (ofByte k x b) = b := by
  have h := k.isLt
  have hx := x.isLt
  have hb := b.toNat_lt
  apply UInt8.toNat_inj.mp
  simp only [toNat_nn, toNat_ofByte]
  omega

end Word

namespace Instruction

/-! ## Encoding what was decoded -/

theorem encode_of_decodeKey? {w : UInt16} {i : Instruction} (hk : Word.kind w = 0xE)
    (h : decodeKey? (Word.x w) (Word.nn w) = some i) : encode i = w := by
  have hw := Word.ofByte_kind_x_nn w
  rw [hk] at hw
  unfold decodeKey? at h
  split at h <;> rename_i hn <;> cases h <;> rw [hn] at hw <;> exact hw

theorem encode_of_decodeDevice? {w : UInt16} {i : Instruction} (hk : Word.kind w = 0xF)
    (h : decodeDevice? (Word.x w) (Word.nn w) = some i) : encode i = w := by
  have hw := Word.ofByte_kind_x_nn w
  rw [hk] at hw
  unfold decodeDevice? at h
  split at h <;> rename_i hn <;> cases h <;> rw [hn] at hw <;> exact hw

/-- A word of a known form is the word of its instruction. -/
theorem encode_of_decode? {w : UInt16} {i : Instruction} (h : decode? w = some i) : encode i = w := by
  have ha := Word.ofAddress_kind_nnn w
  have hb := Word.ofByte_kind_x_nn w
  have hd := Word.ofDigits_kind_x_y_n w
  unfold decode? at h
  split at h <;> rename_i hk
  case h_1 =>
    split at h
    · rename_i hw; cases h; exact hw.symm
    · split at h
      · rename_i hw; cases h; exact hw.symm
      · cases h
  -- an address
  case h_2 | h_3 | h_11 | h_12 => cases h; rw [hk] at ha; exact ha
  -- a register and a byte
  case h_4 | h_5 | h_7 | h_8 | h_13 => cases h; rw [hk] at hb; exact hb
  -- two registers and the digit zero
  case h_6 | h_10 =>
    split at h
    · rename_i hn; cases h; rw [hk, hn] at hd; exact hd
    · cases h
  case h_9 =>
    obtain ⟨op, hop, rfl⟩ := Option.map_eq_some_iff.mp h
    rw [hk, ← Arith.digit_of_ofDigit? hop] at hd
    exact hd
  case h_14 => cases h; rw [hk] at hd; exact hd
  case h_15 => exact encode_of_decodeKey? hk h
  case h_16 =>
    have hF : Word.kind w = 0xF := by grind
    exact encode_of_decodeDevice? hF h

/-- Every word is the word of what it decodes to. -/
theorem encode_decode (w : UInt16) : encode (decode w) = w := by
  unfold decode
  cases h : decode? w with
  | none => rfl
  | some i => exact encode_of_decode? h

/-! ## Single forms -/

theorem eq_of_decode_eq_unknown {w v : UInt16} (h : decode w = .unknown v) : v = w := by
  have hw := encode_decode w
  rw [h] at hw
  exact hw

theorem decode_eq_ret_iff {w : UInt16} : decode w = .ret ↔ w = 0x00EE := by
  constructor
  · intro h
    rw [← encode_decode w, h, encode]
  · rintro rfl
    rfl

theorem decode_eq_call_iff {w nnn : UInt16} : decode w = .call nnn ↔ Word.kind w = 0x2 ∧ nnn = Word.nnn w := by
  constructor
  · intro h
    have hk : Word.kind w = 0x2 := by rw [← encode_decode w, h]; exact Word.kind_ofAddress _ _
    simp_all [decode, decode?]
  · rintro ⟨hk, rfl⟩
    simp [decode, decode?, hk]

theorem decode_eq_random_iff {w : UInt16} {x : Nibble} {nn : UInt8} :
    decode w = .random x nn ↔ Word.kind w = 0xC ∧ x = Word.x w ∧ nn = Word.nn w := by
  constructor
  · intro h
    have hk : Word.kind w = 0xC := by rw [← encode_decode w, h]; exact Word.kind_ofByte _ _ _
    simp_all [decode, decode?]
  · rintro ⟨hk, rfl, rfl⟩
    simp [decode, decode?, hk]

theorem decode_eq_draw_iff {w : UInt16} {x y n : Nibble} : decode w = .draw x y n ↔ w = Word.ofDigits 0xD x y n := by
  constructor
  · intro h
    rw [← encode_decode w, h, encode]
  · rintro rfl
    obtain ⟨hk, hx, hy, hn⟩ := Word.digits_ofDigits 0xD x y n
    simp [decode, decode?, hk, hx, hy, hn]

theorem decode_eq_waitKey_iff {w : UInt16} {x : Nibble} :
    decode w = .waitKey x ↔ (Word.kind w = 0xF ∧ Word.nn w = 0x0A) ∧ x = Word.x w := by
  constructor
  · intro h
    have hk : Word.kind w = 0xF := by rw [← encode_decode w, h]; exact Word.kind_ofByte _ _ _
    have hn : Word.nn w = 0x0A := by rw [← encode_decode w, h]; exact Word.nn_ofByte _ _ _
    simp_all [decode, decode?, decodeDevice?]
  · rintro ⟨⟨hk, hn⟩, rfl⟩
    simp [decode, decode?, decodeDevice?, hk, hn]

/-! ## Addresses in instructions -/

/-- The address that an instruction carries. -/
def address? : Instruction → Option UInt16
  | .jump nnn | .call nnn | .setIndex nnn | .jumpPlus nnn => some nnn
  | _ => none

theorem address?_of_decodeKey? {x : Nibble} {nn : UInt8} {i : Instruction} (h : decodeKey? x nn = some i) :
    i.address? = none := by
  unfold decodeKey? at h
  split at h <;> cases h <;> rfl

theorem address?_of_decodeDevice? {x : Nibble} {nn : UInt8} {i : Instruction} (h : decodeDevice? x nn = some i) :
    i.address? = none := by
  unfold decodeDevice? at h
  split at h <;> cases h <;> rfl

/-- The address in a decoded instruction is the one in its word. -/
theorem eq_nnn_of_address? {w a : UInt16} {i : Instruction} (h : decode? w = some i) (ha : i.address? = some a) :
    a = Word.nnn w := by
  unfold decode? at h
  split at h
  case h_1 =>
    split at h
    · cases h; cases ha
    · split at h <;> cases h
      cases ha
  case h_2 | h_3 | h_11 | h_12 => cases h; cases ha; rfl
  case h_4 | h_5 | h_7 | h_8 | h_13 | h_14 => cases h; cases ha
  case h_6 | h_10 =>
    split at h <;> cases h
    cases ha
  case h_9 =>
    obtain ⟨op, -, rfl⟩ := Option.map_eq_some_iff.mp h
    cases ha
  case h_15 => rw [address?_of_decodeKey? h] at ha; cases ha
  case h_16 => rw [address?_of_decodeDevice? h] at ha; cases ha

/-- The address in a decoded instruction lies in memory. -/
theorem address_lt_of_decode {w a : UInt16} (h : (decode w).address? = some a) : a.toNat < 0x1000 := by
  unfold decode at h
  cases hd : decode? w with
  | none => rw [hd] at h; cases h
  | some i =>
    rw [hd] at h
    rw [eq_nnn_of_address? hd h]
    exact Word.nnn_lt w

end Instruction

end Chip8
