import Chip8.Instruction.Mnemonic
import Chip8.Proofs.Encoding
import Chip8.Proofs.Tokens

/-!
# Mnemonics are read back

A mnemonic is a name and at most three operands behind it (`Instruction.mnemonic_eq`). No operand has a blank or a comma
in it, so the words of the text are the name and the operands (`Mnemonic.words_written`). The kinds of operands differ
in their first letter or in the width of their numeral, so each is read back from its text (`Operand.read?_text`), and
no two instructions share a name and the kinds of their operands (`Instruction.ofParts?_parts`). Hence the instruction
is read back from its mnemonic, and only the words that are no instruction share a text
(`Instruction.mnemonic_unambiguous`).
-/

namespace Chip8

open Grammar (Token Holds isUnbroken blank_nil split split_of_holds plain_of_ordinary)
open Numeral (hex isOrdinary)

namespace Mnemonic

/-! ## Operands -/

/-- An operand that is none of the numbers in a word. -/
inductive Special
  | index
  /-- The memory at the index register. -/
  | memory
  | delay
  | sound
  | glyph
  | decimal
  | key
  deriving DecidableEq, Repr

def Special.text : Special → String
  | index => "I"
  | memory => "[I]"
  | delay => "DT"
  | sound => "ST"
  | glyph => "F"
  | decimal => "B"
  | key => "K"

def Special.all : List Special := [.index, .memory, .delay, .sound, .glyph, .decimal, .key]

inductive Operand
  | register (x : Nibble)
  | digit (n : Nibble)
  | byte (nn : UInt8)
  | address (nnn : UInt16)
  | special (s : Special)
  deriving DecidableEq, Repr

namespace Operand

def text : Operand → String
  | register x => Mnemonic.register x
  | digit n => "0x" ++ hex 1 n.val
  | byte nn => Mnemonic.byte nn
  | address nnn => Mnemonic.address nnn
  | special s => s.text

/-- What a numeral stands for: one digit, a byte of two digits, or an address. -/
def ofNumeral (width value : Nat) : Operand :=
  if width = 1 then digit (Fin.ofNat 16 value)
  else if width = 2 then byte (UInt8.ofNat value)
  else address (UInt16.ofNat value)

/-- The operand of a text. -/
def read? : Token → Option Operand
  | ['V', c] => (Numeral.digitValue? 16 c).map fun value => register (Fin.ofNat 16 value)
  | '0' :: 'x' :: digits => (Numeral.readDigits 16 0xFFFF 0 digits).toOption.map (ofNumeral digits.length)
  | t => (Special.all.find? fun s => s.text.toList == t).map special

theorem read?_numeral (width : Nat) {n : Nat} (h : n ≤ 0xFFFF) :
    read? ("0x" ++ hex width n).toList = some (ofNumeral (max width (Nat.toDigits 16 n).length) n) := by
  have hread : Numeral.readDigits 16 0xFFFF 0 (Numeral.chars 16 width n) = .ok n := by
    rw [(Numeral.digits_chars (by omega) (by omega) width n).readDigits (by omega) (by omega), if_pos h]
  have htext : ("0x" ++ hex width n).toList = '0' :: 'x' :: Numeral.chars 16 width n := by
    simp [Numeral.toList_hex]
  rw [htext, read?, hread, Numeral.length_chars]
  rfl

/-- An operand is read back. -/
theorem read?_text (o : Operand) : read? o.text.toList = some o := by
  cases o with
  | register x =>
    revert x
    decide +kernel
  | digit n =>
    have hn := n.isLt
    have hwidth : max 1 (Nat.toDigits 16 n.val).length = 1 := by
      rw [Nat.toDigits_of_lt_base hn]
      rfl
    rw [text, read?_numeral 1 (by omega), hwidth, ofNumeral, if_pos rfl]
    exact congrArg (some ∘ digit) (Fin.ext (Nat.mod_eq_of_lt hn))
  | byte nn =>
    have hnn := nn.toNat_lt
    have hdigits : (Nat.toDigits 16 nn.toNat).length ≤ 2 :=
      (Nat.length_toDigits_le_iff (by omega) (by omega)).mpr hnn
    have hwidth : max 2 (Nat.toDigits 16 nn.toNat).length = 2 := by omega
    rw [text, Mnemonic.byte, read?_numeral 2 (by omega), hwidth, ofNumeral, if_neg (by omega), if_pos rfl,
      UInt8.ofNat_toNat]
  | address nnn =>
    -- three digits at least
    have hnnn := nnn.toNat_lt
    rw [text, Mnemonic.address, read?_numeral 3 (by omega), ofNumeral, if_neg (by omega), if_neg (by omega),
      UInt16.ofNat_toNat]
  | special s => cases s <;> decide +kernel

/-- No operand has a blank or a comma in it. -/
theorem ordinary (o : Operand) : o.text.toList.all isOrdinary = true := by
  have hnumeral (width n : Nat) : ("0x" ++ hex width n).toList.all isOrdinary = true := by
    have hdigits := (Numeral.digits_chars (by omega) (Nat.le_refl 16) width n).ordinary (by omega) (by omega)
    simp only [String.toList_append, Numeral.toList_hex, List.all_append, hdigits, Bool.and_true]
    rfl
  cases o with
  | register x =>
    revert x
    decide +kernel
  | digit n => exact hnumeral 1 n.val
  | byte nn => exact hnumeral 2 nn.toNat
  | address nnn => exact hnumeral 3 nnn.toNat
  | special s => cases s <;> decide +kernel

theorem text_ne_empty (o : Operand) : o.text ≠ "" := by
  intro h
  have hread := o.read?_text
  rw [h] at hread
  cases hread

end Operand

/-! ## A name with operands -/

/-- Operands with a comma and a blank between them. -/
def listed : List Operand → String
  | [] => ""
  | [o] => o.text
  | o :: p :: rest => o.text ++ ", " ++ listed (p :: rest)

/-- A name, and its operands behind a blank. -/
def written (name : String) : List Operand → String
  | [] => name
  | o :: rest => name ++ " " ++ listed (o :: rest)

/-- The words of a text, the commas apart. -/
def words (text : String) : List Token := split (text.toList.filter fun c => c != ',')

theorem filter_of_ordinary {text : List Char} (h : text.all isOrdinary = true) :
    text.filter (fun c => c != ',') = text := by
  refine List.filter_eq_self.mpr fun c hc => bne_iff_ne.mpr ?_
  rintro rfl
  cases List.all_eq_true.mp h _ hc

theorem holds_listed : ∀ operands : List Operand,
    Holds (operands.map fun o => o.text.toList) ((listed operands).toList.filter fun c => c != ',')
  | [] => .none blank_nil
  | [o] => by
    rw [listed, filter_of_ordinary o.ordinary]
    exact .last blank_nil
  | o :: p :: rest => by
    have hfilter : (listed (o :: p :: rest)).toList.filter (fun c => c != ',') =
        o.text.toList ++ ' ' :: (listed (p :: rest)).toList.filter (fun c => c != ',') := by
      simp [listed, filter_of_ordinary o.ordinary]
    rw [hfilter]
    exact .more blank_nil rfl (holds_listed (p :: rest))

theorem isUnbroken_of_ordinary {text : String} (hne : text ≠ "") (h : text.toList.all isOrdinary = true) :
    isUnbroken text.toList = true :=
  (plain_of_ordinary (mt String.toList_eq_nil_iff.mp hne) h).1

/-- The words of a mnemonic are its name and its operands. -/
theorem words_written {name : String} (hne : name ≠ "") (h : name.toList.all isOrdinary = true)
    (operands : List Operand) :
    words (written name operands) = name.toList :: operands.map fun o => o.text.toList := by
  refine split_of_holds ?_ fun t ht => ?_
  · cases operands with
    | nil =>
      rw [written, filter_of_ordinary h]
      exact .last blank_nil
    | cons o rest =>
      have hfilter : (written name (o :: rest)).toList.filter (fun c => c != ',') =
          name.toList ++ ' ' :: (listed (o :: rest)).toList.filter (fun c => c != ',') := by
        simp [written, filter_of_ordinary h]
      rw [hfilter]
      exact .more blank_nil rfl (holds_listed (o :: rest))
  · rcases List.mem_cons.mp ht with rfl | ht
    · exact isUnbroken_of_ordinary hne h
    · obtain ⟨o, -, rfl⟩ := List.mem_map.mp ht
      exact isUnbroken_of_ordinary o.text_ne_empty o.ordinary

theorem mapM_read? (operands : List Operand) :
    (operands.map fun o => o.text.toList).mapM Operand.read? = some operands := by
  induction operands with
  | nil => rfl
  | cons o rest ih =>
    rw [List.map_cons, List.mapM_cons, o.read?_text, ih]
    rfl

end Mnemonic

open Mnemonic (Operand Special words written listed)

/-- The operation of a name. -/
def Arith.ofMnemonic? (name : String) : Option Arith :=
  [copy, or, and, xor, add, sub, shiftRight, subFrom, shiftLeft].find? fun op => op.mnemonic == name

namespace Instruction

/-! ## The parts of an instruction -/

def isKnown : Instruction → Bool
  | .unknown _ => false
  | _ => true

def name : Instruction → String
  | .clear => "CLS"
  | .ret => "RET"
  | .jump _ | .jumpPlus _ => "JP"
  | .call _ => "CALL"
  | .skipEqByte .. | .skipEq .. => "SE"
  | .skipNeByte .. | .skipNe .. => "SNE"
  | .addByte .. | .addIndex _ => "ADD"
  | .arith op _ _ => op.mnemonic
  | .random .. => "RND"
  | .draw .. => "DRW"
  | .skipHeld _ => "SKP"
  | .skipNotHeld _ => "SKNP"
  | .unknown _ => "???"
  | _ => "LD"

def operands : Instruction → List Operand
  | .clear | .ret | .unknown _ => []
  | .jump nnn | .call nnn => [.address nnn]
  | .skipEqByte x nn | .skipNeByte x nn | .setByte x nn | .addByte x nn | .random x nn => [.register x, .byte nn]
  | .skipEq x y | .skipNe x y | .arith _ x y => [.register x, .register y]
  | .setIndex nnn => [.special .index, .address nnn]
  | .jumpPlus nnn => [.register 0, .address nnn]
  | .draw x y n => [.register x, .register y, .digit n]
  | .skipHeld x | .skipNotHeld x => [.register x]
  | .readDelay x => [.register x, .special .delay]
  | .waitKey x => [.register x, .special .key]
  | .setDelay x => [.special .delay, .register x]
  | .setSound x => [.special .sound, .register x]
  | .addIndex x => [.special .index, .register x]
  | .glyph x => [.special .glyph, .register x]
  | .decimal x => [.special .decimal, .register x]
  | .save x => [.special .memory, .register x]
  | .restore x => [.register x, .special .memory]

/-- The instruction of a name and operands. -/
def ofParts? : String → List Operand → Option Instruction
  | "CLS", [] => some .clear
  | "RET", [] => some .ret
  | "JP", [.address nnn] => some (.jump nnn)
  | "JP", [.register 0, .address nnn] => some (.jumpPlus nnn)
  | "CALL", [.address nnn] => some (.call nnn)
  | "SE", [.register x, .byte nn] => some (.skipEqByte x nn)
  | "SE", [.register x, .register y] => some (.skipEq x y)
  | "SNE", [.register x, .byte nn] => some (.skipNeByte x nn)
  | "SNE", [.register x, .register y] => some (.skipNe x y)
  | "LD", [.register x, .byte nn] => some (.setByte x nn)
  | "LD", [.special .index, .address nnn] => some (.setIndex nnn)
  | "LD", [.register x, .special .delay] => some (.readDelay x)
  | "LD", [.register x, .special .key] => some (.waitKey x)
  | "LD", [.register x, .special .memory] => some (.restore x)
  | "LD", [.special .delay, .register x] => some (.setDelay x)
  | "LD", [.special .sound, .register x] => some (.setSound x)
  | "LD", [.special .glyph, .register x] => some (.glyph x)
  | "LD", [.special .decimal, .register x] => some (.decimal x)
  | "LD", [.special .memory, .register x] => some (.save x)
  | "ADD", [.register x, .byte nn] => some (.addByte x nn)
  | "ADD", [.special .index, .register x] => some (.addIndex x)
  | "RND", [.register x, .byte nn] => some (.random x nn)
  | "DRW", [.register x, .register y, .digit n] => some (.draw x y n)
  | "SKP", [.register x] => some (.skipHeld x)
  | "SKNP", [.register x] => some (.skipNotHeld x)
  -- the names of the skips on two registers are taken
  | name, [.register x, .register y] => (Arith.ofMnemonic? name).map fun op => .arith op x y
  | _, _ => none

/-- An instruction is read back from its name and operands. -/
theorem ofParts?_parts {i : Instruction} (known : i.isKnown = true) : ofParts? i.name i.operands = some i := by
  cases i with
  | unknown => cases known
  | arith op => cases op <;> rfl
  | _ => rfl

theorem mnemonic_eq (i : Instruction) : i.mnemonic = written i.name i.operands := by
  have hzero : Mnemonic.register 0 = "V0" := by decide +kernel
  apply String.toList_inj.mp
  cases i with
  | arith op => cases op <;> simp [mnemonic, name, operands, written, listed, Operand.text, Arith.mnemonic]
  | _ => simp [mnemonic, name, operands, written, listed, Operand.text, Special.text, hzero]

theorem name_ne_empty (i : Instruction) : i.name ≠ "" := by
  cases i with
  | arith op => cases op <;> simp [name, Arith.mnemonic]
  | _ => simp [name]

theorem ordinary_name (i : Instruction) : i.name.toList.all isOrdinary = true := by
  cases i with
  | arith op => cases op <;> simp only [name, Arith.mnemonic] <;> decide +kernel
  | _ => simp only [name]; decide +kernel

/-! ## The reader -/

/-- The instruction of a text. -/
def ofMnemonic? (text : String) : Option Instruction :=
  match words text with
  | [] => none
  | name :: operands => (operands.mapM Operand.read?).bind (ofParts? (String.ofList name))

/-- Reading a mnemonic finds the name and the operands again. -/
theorem ofMnemonic?_mnemonic (i : Instruction) : ofMnemonic? i.mnemonic = ofParts? i.name i.operands := by
  have hwords := Mnemonic.words_written i.name_ne_empty i.ordinary_name i.operands
  rw [ofMnemonic?, i.mnemonic_eq, hwords]
  dsimp only
  rw [Mnemonic.mapM_read?, String.ofList_toList]
  rfl

theorem ofMnemonic?_of_isKnown {i : Instruction} (known : i.isKnown = true) : ofMnemonic? i.mnemonic = some i := by
  rw [ofMnemonic?_mnemonic, ofParts?_parts known]

theorem mnemonic_eq_unknown_iff {i : Instruction} : i.mnemonic = "???" ↔ i.isKnown = false := by
  constructor
  · intro h
    refine Bool.eq_false_iff.mpr fun known => ?_
    -- the reader finds no instruction in this text
    have hread := ofMnemonic?_of_isKnown known
    have hnone : ofMnemonic? "???" = none := ofMnemonic?_mnemonic (.unknown 0)
    rw [h, hnone] at hread
    cases hread
  · intro h
    cases i with
    | unknown => rfl
    | _ => cases h

theorem isKnown_eq_false_iff {i : Instruction} : i.isKnown = false ↔ ∃ w, i = .unknown w := by
  cases i with
  | unknown w => exact ⟨fun _ => ⟨w, rfl⟩, fun _ => rfl⟩
  | _ => simp [isKnown]

theorem eq_of_mnemonic_eq {i j : Instruction} (known : i.isKnown = true) (h : j.mnemonic = i.mnemonic) : j = i := by
  cases hj : j.isKnown with
  | false =>
    have hunknown : i.mnemonic = "???" := h.symm.trans (mnemonic_eq_unknown_iff.mpr hj)
    rw [mnemonic_eq_unknown_iff.mp hunknown] at known
    cases known
  | true =>
    have hread := ofMnemonic?_of_isKnown hj
    rw [h, ofMnemonic?_of_isKnown known] at hread
    exact (Option.some.inj hread).symm

/-- **Mnemonics are unambiguous.** A known instruction is read back from its text, with all its operands; so no other
instruction has this text, and no other word. The text `???` is that of the unknown words. -/
theorem mnemonic_unambiguous :
    (∀ i : Instruction, i.isKnown = true → ofMnemonic? i.mnemonic = some i) ∧
      (∀ i j : Instruction, i.isKnown = true → j.isKnown = true → i.mnemonic = j.mnemonic → i = j) ∧
      (∀ i : Instruction, i.mnemonic = "???" ↔ ∃ w, i = .unknown w) ∧
      ∀ w v : UInt16, (decode w).isKnown = true → (decode v).mnemonic = (decode w).mnemonic → v = w := by
  refine ⟨fun i => ofMnemonic?_of_isKnown, fun i j _ hj h => eq_of_mnemonic_eq hj h, fun i => ?_, fun w v known h => ?_⟩
  · rw [mnemonic_eq_unknown_iff, isKnown_eq_false_iff]
  · have hdecode := eq_of_mnemonic_eq known h
    rw [← encode_decode v, hdecode, encode_decode]

/-- A jump with an address of four digits, and a word whose text has the index register in brackets. -/
theorem mnemonic_unambiguous_jumpPlus :
    (Instruction.jumpPlus 0xF00D).mnemonic = "JP V0, 0xF00D" ∧
      ofMnemonic? "JP V0, 0xF00D" = some (.jumpPlus 0xF00D) ∧ (decode 0xFB65).mnemonic = "LD VB, [I]" ∧
      ∀ v, (decode v).mnemonic = "LD VB, [I]" → v = 0xFB65 := by
  have hjump : (Instruction.jumpPlus 0xF00D).mnemonic = "JP V0, 0xF00D" := by decide +kernel
  have hrestore : (decode 0xFB65).mnemonic = "LD VB, [I]" := by decide +kernel
  refine ⟨hjump, ?_, hrestore, fun v h => ?_⟩
  · rw [← hjump]
    exact mnemonic_unambiguous.1 _ rfl
  · exact mnemonic_unambiguous.2.2.2 0xFB65 v (by decide +kernel) (h.trans hrestore.symm)

end Instruction

end Chip8
