import Chip8.Listing
import Chip8.Proofs.Encoding

/-!
# Encoding and decoding are inverse

The instruction table is written down once more, as data: `Instruction.table` lists the digits that each row fixes.
Decoding finds an instruction exactly for the words that match a row (`Instruction.isSome_decode?_iff`). So an
instruction is read back from its word exactly when it is `Instruction.Canonical`: its address fits into twelve bits,
and it does not call a word unknown that is in the table (`Instruction.decode_encode_iff`). Listings carry both
directions over to programs (`Listing.coding_inverse`).
-/

namespace Chip8

/-! ## Bytes and digits -/

namespace Word

theorem x_ofByte (k x : Nibble) (b : UInt8) : Word.x (ofByte k x b) = x := by
  have hk := k.isLt
  have hx := x.isLt
  have hb := b.toNat_lt
  apply Fin.ext
  simp only [val_x, toNat_ofByte]
  omega

theorem nnn_ofAddress {k : Nibble} {a : UInt16} (h : a.toNat ≤ 0xFFF) : nnn (ofAddress k a) = a := by
  have hk := k.isLt
  apply UInt16.toNat_inj.mp
  simp only [toNat_nnn, toNat_ofAddress]
  omega

/-- A word is its four digits. -/
theorem eq_iff_digits {w v : UInt16} :
    w = v ↔ kind w = kind v ∧ x w = x v ∧ y w = y v ∧ n w = n v := by
  constructor
  · rintro rfl
    exact ⟨rfl, rfl, rfl, rfl⟩
  · rintro ⟨hk, hx, hy, hn⟩
    rw [← ofDigits_kind_x_y_n w, hk, hx, hy, hn, ofDigits_kind_x_y_n]

/-- The low byte holds the digits `y` and `n`. -/
theorem nn_eq_iff {w : UInt16} {b : UInt8} : nn w = b ↔ y w = Nibble.high b ∧ n w = Nibble.low b := by
  have hb := b.toNat_lt
  rw [← UInt8.toNat_inj, Fin.ext_iff, Fin.ext_iff, toNat_nn, val_y, val_n]
  rw [Nibble.val_high, Nibble.val_low]
  omega

theorem ofBytes_toBytes (w : UInt16) : ofBytes (highByte w) (lowByte w) = w := by
  apply UInt16.toNat_inj.mp
  rw [toNat_ofBytes, toNat_highByte, toNat_lowByte]
  omega

theorem toBytes_ofBytes (high low : UInt8) : toBytes (ofBytes high low) = [high, low] := by
  have hh := high.toNat_lt
  have hl := low.toNat_lt
  have hhigh : highByte (ofBytes high low) = high := by
    apply UInt8.toNat_inj.mp
    rw [toNat_highByte, toNat_ofBytes]
    omega
  have hlow : lowByte (ofBytes high low) = low := by
    apply UInt8.toNat_inj.mp
    rw [toNat_lowByte, toNat_ofBytes]
    omega
  rw [toBytes, hhigh, hlow]

end Word

namespace Instruction

/-! ## The instruction table -/

/-- The digits after the first that a row of the table fixes. -/
structure Row where
  x : Option Nibble
  y : Option Nibble
  n : Option Nibble
  deriving DecidableEq, Repr

def Row.Matches (row : Row) (w : UInt16) : Prop :=
  (∀ d ∈ row.x, Word.x w = d) ∧ (∀ d ∈ row.y, Word.y w = d) ∧ ∀ d ∈ row.n, Word.n w = d

-- The instances are named: a search may find one that goes through all digits or all words.
instance (row : Row) (w : UInt16) : Decidable (row.Matches w) :=
  @instDecidableAnd _ _ (Option.decidableForallMem row.x)
    (@instDecidableAnd _ _ (Option.decidableForallMem row.y) (Option.decidableForallMem row.n))

/-- The rows of the instruction table whose first digit is the given one. -/
def table : Nibble → List Row
  | 0x0 => [⟨some 0x0, some 0xE, some 0x0⟩, ⟨some 0x0, some 0xE, some 0xE⟩]
  | 0x5 | 0x9 => [⟨none, none, some 0x0⟩]
  | 0x8 => [0x0, 0x1, 0x2, 0x3, 0x4, 0x5, 0x6, 0x7, 0xE].map fun n => ⟨none, none, some n⟩
  | 0xE => [⟨none, some 0x9, some 0xE⟩, ⟨none, some 0xA, some 0x1⟩]
  | 0xF =>
    [⟨none, some 0x0, some 0x7⟩, ⟨none, some 0x0, some 0xA⟩, ⟨none, some 0x1, some 0x5⟩, ⟨none, some 0x1, some 0x8⟩,
      ⟨none, some 0x1, some 0xE⟩, ⟨none, some 0x2, some 0x9⟩, ⟨none, some 0x3, some 0x3⟩, ⟨none, some 0x5, some 0x5⟩,
      ⟨none, some 0x6, some 0x5⟩]
  | _ => [⟨none, none, none⟩]

/-- A row of the table matches the word. -/
def Tabulated (w : UInt16) : Prop := ∃ row ∈ table (Word.kind w), row.Matches w

instance (w : UInt16) : Decidable (Tabulated w) :=
  List.decidableBEx (fun row : Row => row.Matches w) (table (Word.kind w))

/-! ## Decoding follows the table -/

theorem isSome_decodeKey?_iff {x : Nibble} {nn : UInt8} :
    (decodeKey? x nn).isSome = true ↔ nn = 0x9E ∨ nn = 0xA1 := by
  unfold decodeKey?
  split <;> simp_all

theorem isSome_decodeDevice?_iff {x : Nibble} {nn : UInt8} : (decodeDevice? x nn).isSome = true ↔
    nn = 0x07 ∨ nn = 0x0A ∨ nn = 0x15 ∨ nn = 0x18 ∨ nn = 0x1E ∨ nn = 0x29 ∨ nn = 0x33 ∨ nn = 0x55 ∨ nn = 0x65 := by
  unfold decodeDevice?
  split <;> simp_all

theorem isSome_ofDigit?_iff {n : Nibble} : (Arith.ofDigit? n).isSome = true ↔
    n ∈ ([0x0, 0x1, 0x2, 0x3, 0x4, 0x5, 0x6, 0x7, 0xE] : List Nibble) := by
  revert n
  decide

/-- A word has a known form exactly when a row of the table matches it. -/
theorem isSome_decode?_iff (w : UInt16) : (decode? w).isSome = true ↔ Tabulated w := by
  unfold decode? Tabulated
  split <;> rename_i hk
  case h_1 =>
    have hclear : w = 0x00E0 ↔ Word.x w = 0x0 ∧ Word.y w = 0xE ∧ Word.n w = 0x0 := by
      rw [Word.eq_iff_digits, hk]
      exact and_iff_right rfl
    have hret : w = 0x00EE ↔ Word.x w = 0x0 ∧ Word.y w = 0xE ∧ Word.n w = 0xE := by
      rw [Word.eq_iff_digits, hk]
      exact and_iff_right rfl
    rw [hk]
    split
    · simp_all [table, Row.Matches]
    · split <;> simp_all [table, Row.Matches]
  case h_6 | h_10 => simp [table, Row.Matches, hk]
  case h_9 =>
    rw [Option.isSome_map, isSome_ofDigit?_iff]
    simp [table, Row.Matches, hk]
  case h_15 =>
    rw [isSome_decodeKey?_iff]
    simp only [Word.nn_eq_iff]
    simp [table, Row.Matches, hk, Nibble.high, Nibble.low]
  case h_16 =>
    have hF : Word.kind w = 0xF := by grind
    rw [isSome_decodeDevice?_iff]
    simp only [Word.nn_eq_iff]
    simp [table, Row.Matches, hF, Nibble.high, Nibble.low]
  -- the kinds that fix no other digit
  all_goals simp [table, Row.Matches, hk]

theorem decode?_ne_unknown (w v : UInt16) : decode? w ≠ some (.unknown v) := by
  intro h
  unfold decode? at h
  split at h
  case h_1 =>
    split at h
    · cases h
    · split at h <;> cases h
  case h_6 | h_10 => split at h <;> cases h
  case h_9 =>
    obtain ⟨_, _, h⟩ := Option.map_eq_some_iff.mp h
    cases h
  case h_15 =>
    unfold decodeKey? at h
    split at h <;> cases h
  case h_16 =>
    unfold decodeDevice? at h
    split at h <;> cases h
  all_goals cases h

/-- The words that no row matches are the unknown ones. -/
theorem decode_eq_unknown_iff {w v : UInt16} : decode w = .unknown v ↔ ¬ Tabulated w ∧ v = w := by
  rw [← isSome_decode?_iff, Bool.not_eq_true, Option.isSome_eq_false_iff, Option.isNone_iff_eq_none]
  constructor
  · intro h
    refine ⟨?_, eq_of_decode_eq_unknown h⟩
    cases hd : decode? w with
    | none => rfl
    | some i =>
      rw [decode, hd] at h
      exact absurd (hd.trans (congrArg some h)) (decode?_ne_unknown w v)
  · rintro ⟨hd, rfl⟩
    rw [decode, hd]
    rfl

/-! ## Canonical instructions -/

/-- The word that an instruction of no known form holds. -/
def raw? : Instruction → Option UInt16
  | .unknown w => some w
  | _ => none

/-- The address fits into twelve bits, and a word that is called unknown is in no row of the table. -/
def Canonical (i : Instruction) : Prop :=
  (∀ a ∈ i.address?, a.toNat ≤ 0xFFF) ∧ ∀ w ∈ i.raw?, ¬ Tabulated w

instance (i : Instruction) : Decidable i.Canonical :=
  @instDecidableAnd _ _ (Option.decidableForallMem i.address?) (Option.decidableForallMem i.raw?)

theorem canonical_decode (w : UInt16) : (decode w).Canonical := by
  constructor
  · intro a ha
    exact Nat.le_of_lt_succ (address_lt_of_decode ha)
  · intro v hv
    cases hd : decode w with
    | unknown u =>
      rw [hd] at hv
      cases hv
      obtain ⟨hw, rfl⟩ := decode_eq_unknown_iff.mp hd
      exact hw
    | _ =>
      rw [hd] at hv
      cases hv

theorem decode_encode {i : Instruction} (h : i.Canonical) : decode (encode i) = i := by
  cases i with
  | clear | ret => rfl
  | jump a | call a | setIndex a | jumpPlus a =>
    have ha : a.toNat ≤ 0xFFF := h.1 a rfl
    simp [encode, decode, decode?, Word.kind_ofAddress, Word.nnn_ofAddress ha]
  | skipEqByte | skipNeByte | setByte | addByte | random =>
    simp [encode, decode, decode?, Word.kind_ofByte, Word.x_ofByte, Word.nn_ofByte]
  | skipEq x y | skipNe x y =>
    simp [encode, decode, decode?, Word.digits_ofDigits]
  | arith op x y =>
    simp [encode, decode, decode?, Word.digits_ofDigits, Arith.ofDigit?_digit]
  | draw x y n =>
    simp [encode, decode, decode?, Word.digits_ofDigits]
  | skipHeld | skipNotHeld =>
    simp [encode, decode, decode?, decodeKey?, Word.kind_ofByte, Word.x_ofByte, Word.nn_ofByte]
  | readDelay | waitKey | setDelay | setSound | addIndex | glyph | decimal | save | restore =>
    simp [encode, decode, decode?, decodeDevice?, Word.kind_ofByte, Word.x_ofByte, Word.nn_ofByte]
  | unknown w => exact decode_eq_unknown_iff.mpr ⟨h.2 w rfl, rfl⟩

/-- An instruction is read back from its word exactly when it is canonical. -/
theorem decode_encode_iff {i : Instruction} : decode (encode i) = i ↔ i.Canonical := by
  constructor
  · intro h
    rw [← h]
    exact canonical_decode (encode i)
  · exact decode_encode

end Instruction

/-! ## Programs -/

namespace Listing

/-- The image of a program: its words, the high byte of each first. -/
def image (program : List Instruction) : List UInt8 := program.flatMap fun i => Word.toBytes i.encode

theorem length_image (program : List Instruction) : (image program).length = 2 * program.length := by
  induction program with
  | nil => rfl
  | cons i rest ih =>
    simp only [image, List.flatMap_cons, List.length_append, List.length_cons] at ih ⊢
    rw [ih, Word.toBytes]
    simp only [List.length_cons, List.length_nil]
    omega

theorem words_image (program : List Instruction) : words (image program) = program.map Instruction.encode := by
  induction program with
  | nil => rfl
  | cons i rest ih =>
    rw [List.map_cons, ← ih, ← Word.ofBytes_toBytes i.encode]
    simp only [image, List.flatMap_cons, Word.toBytes, List.cons_append, List.nil_append, words,
      Word.ofBytes_toBytes]

theorem map_instruction_linesFrom (base : UInt16) (index : Nat) (ws : List UInt16) :
    (linesFrom base index ws).map Line.instruction = ws.map Instruction.decode := by
  induction ws generalizing index with
  | nil => rfl
  | cons w rest ih => rw [linesFrom, List.map_cons, List.map_cons, ih]

/-- The words of an image put together again, a last odd byte is lost. -/
theorem flatMap_toBytes_words (bytes : List UInt8) :
    (words bytes).flatMap Word.toBytes = bytes.take (2 * (bytes.length / 2)) := by
  induction bytes using words.induct with
  | case1 high low rest ih =>
    have hlen : 2 * ((high :: low :: rest).length / 2) = 2 * (rest.length / 2) + 2 := by
      simp only [List.length_cons]
      omega
    rw [words, List.flatMap_cons, Word.toBytes_ofBytes, ih, hlen]
    rfl
  | case2 bytes h =>
    match bytes with
    | [] => rfl
    | [_] => simp [words]
    | high :: low :: rest => exact absurd rfl (h high low rest)

theorem image_decode (ws : List UInt16) : image (ws.map Instruction.decode) = ws.flatMap Word.toBytes := by
  rw [image, List.flatMap_map]
  simp only [Instruction.encode_decode]

/-- A program that is listed from its image comes back, if its instructions are canonical. -/
theorem ofImage_image {program : List Instruction} (base : UInt16) (hlen : program.length ≤ 32768)
    (h : ∀ i ∈ program, i.Canonical) :
    ∃ lines, ofImage (image program) base = .ok lines ∧ lines.map Line.instruction = program := by
  have hfits : (image program).length / 2 ≤ maxWords := by
    rw [length_image, maxWords]
    omega
  refine ⟨_, if_pos hfits, ?_⟩
  rw [map_instruction_linesFrom, words_image, List.map_map]
  calc program.map (Instruction.decode ∘ Instruction.encode)
      = program.map id := List.map_congr_left fun i hi => Instruction.decode_encode (h i hi)
    _ = program := List.map_id program

/-- The listed instructions put together again are the image that was listed. -/
theorem image_ofImage {bytes : List UInt8} (base : UInt16) (hlen : bytes.length ≤ 65536) :
    ∃ lines, ofImage bytes base = .ok lines ∧
      image (lines.map Line.instruction) = bytes.take (2 * (bytes.length / 2)) := by
  have hfits : bytes.length / 2 ≤ maxWords := by
    rw [maxWords]
    omega
  refine ⟨_, if_pos hfits, ?_⟩
  rw [map_instruction_linesFrom, image_decode, flatMap_toBytes_words]

/-- Encoding takes back every decoding, decoding takes back the encoding of the canonical instructions and of no
others, and so it is for whole programs: listing the image of canonical instructions gives them back, and the image
of the listed instructions is the image that was listed, less a last odd byte. -/
theorem coding_inverse :
    (∀ w : UInt16, Instruction.encode (Instruction.decode w) = w) ∧
      (∀ i : Instruction, Instruction.decode i.encode = i ↔ i.Canonical) ∧
      (∀ (program : List Instruction) (base : UInt16), program.length ≤ 32768 → (∀ i ∈ program, i.Canonical) →
        ∃ lines, ofImage (image program) base = .ok lines ∧ lines.map Line.instruction = program) ∧
      ∀ (bytes : List UInt8) (base : UInt16), bytes.length ≤ 65536 →
        ∃ lines, ofImage bytes base = .ok lines ∧
          image (lines.map Line.instruction) = bytes.take (2 * (bytes.length / 2)) :=
  ⟨Instruction.encode_decode, fun _ => Instruction.decode_encode_iff,
    fun _ base hlen h => ofImage_image base hlen h, fun _ base hlen => image_ofImage base hlen⟩

/-- Three instructions listed from their image, and an image of three bytes put together again. -/
theorem coding_inverse_short :
    (∃ lines, ofImage (image [.draw 0x1 0x2 0x5, .call 0xFFF, .unknown 0x8AB8]) 0xFFFE = .ok lines ∧
      lines.map Line.instruction = [.draw 0x1 0x2 0x5, .call 0xFFF, .unknown 0x8AB8]) ∧
      ∃ lines, ofImage [0x00, 0xEE, 0x12] 0x200 = .ok lines ∧ image (lines.map Line.instruction) = [0x00, 0xEE] :=
  ⟨coding_inverse.2.2.1 _ 0xFFFE (by decide) (by decide), coding_inverse.2.2.2 _ 0x200 (by decide)⟩

end Listing

end Chip8
