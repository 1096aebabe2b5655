import Chip8.Proofs.Lines
import Chip8.Proofs.Listing
import Chip8.Proofs.Mnemonics

/-!
# Listings are read back

A line of a listing has three blanks behind the address and three behind the word, and there is no blank in either of
them, so a line is cut at the first two places with three blanks (`Listing.cut?_append`), and its address, word and
mnemonic are read back (`Listing.readLine?_text`). No mnemonic has a line feed in it, so a listing falls apart into its
lines (`Listing.splitOn_text`). Main statement: `Listing.listing_lossless`.
-/

namespace Chip8

open Numeral (isOrdinary)

/-! ## Mnemonics -/

namespace Mnemonic

theorem newline_not_mem_of_ordinary {text : List Char} (h : text.all isOrdinary = true) : '\n' ∉ text := by
  intro hmem
  cases List.all_eq_true.mp h _ hmem

theorem newline_not_mem_listed : ∀ operands : List Operand, '\n' ∉ (listed operands).toList
  | [] => List.not_mem_nil
  | [o] => newline_not_mem_of_ordinary o.ordinary
  | o :: p :: rest => by
    have hfirst := newline_not_mem_of_ordinary o.ordinary
    have hrest := newline_not_mem_listed (p :: rest)
    simp [listed, hfirst, hrest]

theorem newline_not_mem (i : Instruction) : '\n' ∉ i.mnemonic.toList := by
  have hname := newline_not_mem_of_ordinary i.ordinary_name
  rw [i.mnemonic_eq]
  cases hoperands : i.operands with
  | nil => exact hname
  | cons o rest =>
    have hrest := newline_not_mem_listed (o :: rest)
    simp [written, hname, hrest]

end Mnemonic

namespace Listing

/-! ## Lines -/

/-- What is in front of the first three blanks in a row, and what is behind them. -/
def cut? : List Char → Option (List Char × List Char)
  | ' ' :: ' ' :: ' ' :: rest => some ([], rest)
  | c :: rest => (cut? rest).map fun (front, behind) => (c :: front, behind)
  | [] => none

theorem cut?_append {front : List Char} (h : ' ' ∉ front) (behind : List Char) :
    cut? (front ++ ' ' :: ' ' :: ' ' :: behind) = some (front, behind) := by
  induction front with
  | nil => rfl
  | cons c rest ih =>
    have hc : c ≠ ' ' := fun e => h (e ▸ List.mem_cons_self)
    rw [List.cons_append, cut?, ih fun hmem => h (List.mem_cons_of_mem _ hmem)]
    · rfl
    · intro _ hblank
      exact absurd hblank hc

/-- What is written on a line. -/
structure Fields where
  address : UInt16
  word : UInt16
  mnemonic : String
  deriving DecidableEq, Repr

def Line.fields (l : Line) : Fields := ⟨l.address, l.word, l.instruction.mnemonic⟩

/-- The fields of a line, cut at the first two places with three blanks. -/
def readLine? (line : List Char) : Option Fields := do
  let (address, rest) ← cut? line
  let (word, mnemonic) ← cut? rest
  match address with
  | '0' :: 'x' :: digits =>
    let address ← Numeral.value? 16 digits
    let word ← Numeral.value? 16 word
    return ⟨UInt16.ofNat address, UInt16.ofNat word, String.ofList mnemonic⟩
  | _ => none

theorem toList_line (l : Line) : l.text.toList = ('0' :: 'x' :: Numeral.chars 16 3 l.address.toNat) ++
    ' ' :: ' ' :: ' ' :: (Numeral.chars 16 4 l.word.toNat ++ ' ' :: ' ' :: ' ' :: l.instruction.mnemonic.toList) := by
  simp [Line.text, Numeral.toList_hex]

/-- A line is read back. -/
theorem readLine?_text (l : Line) : readLine? l.text.toList = some l.fields := by
  have hdigits (width n : Nat) : ' ' ∉ Numeral.chars 16 width n :=
    Numeral.not_mem_chars (by omega) (by omega) (by decide) width n
  have haddress : ' ' ∉ '0' :: 'x' :: Numeral.chars 16 3 l.address.toNat := by simp [hdigits]
  have hvalue (width n : Nat) : Numeral.value? 16 (Numeral.chars 16 width n) = some n :=
    Numeral.value?_chars (by omega) (by omega) width n
  rw [readLine?, toList_line, cut?_append haddress, Option.bind_eq_bind, Option.bind_some]
  dsimp only
  rw [cut?_append (hdigits 4 l.word.toNat), Option.bind_eq_bind, Option.bind_some]
  simp [hvalue, Line.fields]

/-! ## Listings -/

/-- All lines of a listing, the last of them ended as well. -/
def read? (text : List Char) : Option (List Fields) := (text.splitOn '\n').dropLast.mapM readLine?

theorem newline_not_mem_line (l : Line) : '\n' ∉ l.text.toList := by
  have hdigits (width n : Nat) : '\n' ∉ Numeral.chars 16 width n :=
    Numeral.not_mem_chars (by omega) (by omega) (by decide) width n
  simp [toList_line, hdigits, Mnemonic.newline_not_mem]

theorem toList_text (lines : List Line) : (text lines).toList = ended '\n' (lines.map fun l => l.text.toList) := by
  simp [text, ended, String.toList_join, List.flatMap_map]

/-- A listing falls apart into its lines. -/
theorem splitOn_text (lines : List Line) :
    (text lines).toList.splitOn '\n' = (lines.map fun l => l.text.toList) ++ [[]] := by
  rw [toList_text]
  refine splitOn_ended fun p hp => ?_
  obtain ⟨l, -, rfl⟩ := List.mem_map.mp hp
  exact newline_not_mem_line l

theorem read?_text (lines : List Line) : read? (text lines).toList = some (lines.map Line.fields) := by
  rw [read?, splitOn_text, List.dropLast_concat, mapM_written readLine?_text]

/-! ## Images -/

theorem map_word_linesFrom (base : UInt16) (index : Nat) (ws : List UInt16) :
    (linesFrom base index ws).map Line.word = ws := by
  induction ws generalizing index with
  | nil => rfl
  | cons w rest ih => rw [linesFrom, List.map_cons, ih]

theorem listingText_of_fits {bytes : List UInt8} (base : UInt16) (h : bytes.length ≤ 65536) :
    Program.listingText bytes base = .ok (text (linesFrom base 0 (words bytes))) := by
  rw [Program.listingText, ofImage_of_fits base (by omega)]

/-- The words of an image of even length make it up. -/
theorem eq_of_words_eq {bytes bytes' : List UInt8} (even : bytes.length % 2 = 0) (even' : bytes'.length % 2 = 0)
    (h : words bytes = words bytes') : bytes = bytes' := by
  have hwhole {bytes : List UInt8} (even : bytes.length % 2 = 0) : (words bytes).flatMap Word.toBytes = bytes := by
    rw [flatMap_toBytes_words, List.take_of_length_le (by omega)]
  rw [← hwhole even, ← hwhole even', h]

/-- A listing with lines begins with the base. -/
theorem base_eq_of_fields_eq {base base' : UInt16} {ws : List UInt16} (hne : ws ≠ [])
    (h : (linesFrom base 0 ws).map Line.fields = (linesFrom base' 0 ws).map Line.fields) : base = base' := by
  cases ws with
  | nil => exact absurd rfl hne
  | cons w rest =>
    simp only [linesFrom, List.map_cons, Line.fields, List.cons.injEq, Fields.mk.injEq] at h
    simpa using h.1.1

/-- Listings of images of even length are equal just if the images are, and the bases, unless nothing is listed. -/
theorem listingText_eq_iff {bytes bytes' : List UInt8} (base base' : UInt16) (h : bytes.length ≤ 65536)
    (h' : bytes'.length ≤ 65536) (even : bytes.length % 2 = 0) (even' : bytes'.length % 2 = 0) :
    Program.listingText bytes base = Program.listingText bytes' base' ↔
      bytes = bytes' ∧ (bytes = [] ∨ base = base') := by
  constructor
  · intro heq
    rw [listingText_of_fits base h, listingText_of_fits base' h'] at heq
    have hfields := read?_text (linesFrom base 0 (words bytes))
    rw [Except.ok.inj heq, read?_text] at hfields
    have hfields := Option.some.inj hfields
    have hwords : words bytes' = words bytes := by
      have hmap := congrArg (List.map Fields.word) hfields
      rw [List.map_map, List.map_map] at hmap
      rw [← map_word_linesFrom base' 0 (words bytes'), ← map_word_linesFrom base 0 (words bytes)]
      exact hmap
    obtain rfl := eq_of_words_eq even even' hwords.symm
    refine ⟨rfl, ?_⟩
    by_cases hempty : bytes = []
    · exact .inl hempty
    · have hpos := List.length_pos_iff.mpr hempty
      have hne : words bytes ≠ [] := List.ne_nil_of_length_pos (by rw [length_words]; omega)
      exact .inr (base_eq_of_fields_eq hne hfields.symm)
  · rintro ⟨rfl, rfl | rfl⟩
    · rfl
    · rfl

/-- **A listing loses nothing.** There is one line for every two bytes, each ended by a line feed, and a reader that
cuts them at the first two places with three blanks finds the address, the word and the mnemonic of each. So images of
even length are known by their listings, and the bases, too, unless there is nothing to list. -/
theorem listing_lossless :
    (∀ (bytes : List UInt8) (base : UInt16), bytes.length ≤ 65536 → ∃ lines,
      ofImage bytes base = .ok lines ∧ Lists bytes base lines ∧ lines.length = bytes.length / 2 ∧
        Program.listingText bytes base = .ok (text lines) ∧
        (text lines).toList.splitOn '\n' = (lines.map fun l => l.text.toList) ++ [[]] ∧
        (∀ l ∈ lines, readLine? l.text.toList = some ⟨l.address, l.word, l.instruction.mnemonic⟩)) ∧
      ∀ (bytes bytes' : List UInt8) (base base' : UInt16), bytes.length ≤ 65536 → bytes'.length ≤ 65536 →
        bytes.length % 2 = 0 → bytes'.length % 2 = 0 →
        (Program.listingText bytes base = Program.listingText bytes' base' ↔
          bytes = bytes' ∧ (bytes = [] ∨ base = base')) := by
  refine ⟨fun bytes base h => ?_, fun bytes bytes' base base' h h' even even' =>
    listingText_eq_iff base base' h h' even even'⟩
  have hlists := lists_linesFrom bytes base
  exact ⟨_, ofImage_of_fits base (by omega), hlists, hlists.length, listingText_of_fits base h, splitOn_text _,
    fun l _ => readLine?_text l⟩

/-- The five bytes end in the middle of a word and their addresses go round: two lines, read back. Two words are in
another listing than the same words the other way round. -/
theorem listing_lossless_goingRound :
    [(0x00 : UInt8), 0xE0, 0xD1, 0x25, 0x7F].length ≤ 65536 ∧
      Program.listingText [0x00, 0xE0, 0xD1, 0x25, 0x7F] 0xFFFE =
        .ok "0xFFFE   00E0   CLS\n0x000   D125   DRW V1, V2, 0x5\n" ∧
      (∃ lines, Lists [0x00, 0xE0, 0xD1, 0x25, 0x7F] 0xFFFE lines ∧ lines.length = 2 ∧
        ∀ l ∈ lines, readLine? l.text.toList = some ⟨l.address, l.word, l.instruction.mnemonic⟩) ∧
      [(0x00 : UInt8), 0xE0, 0xD1, 0x25].length % 2 = 0 ∧ [(0xD1 : UInt8), 0x25, 0x00, 0xE0].length % 2 = 0 ∧
      Program.listingText [0x00, 0xE0, 0xD1, 0x25] 0x200 ≠ Program.listingText [0xD1, 0x25, 0x00, 0xE0] 0x200 := by
  refine ⟨by decide, rfl, ?_, by decide, by decide, fun heq => ?_⟩
  · obtain ⟨lines, -, hlists, hlength, -, -, hread⟩ :=
      listing_lossless.1 [0x00, 0xE0, 0xD1, 0x25, 0x7F] 0xFFFE (by decide)
    exact ⟨lines, hlists, hlength, hread⟩
  · have hequal := (listing_lossless.2 [0x00, 0xE0, 0xD1, 0x25] [0xD1, 0x25, 0x00, 0xE0] 0x200 0x200 (by decide)
      (by decide) (by decide) (by decide)).mp heq
    exact absurd hequal.1 (by decide)

end Listing

end Chip8
