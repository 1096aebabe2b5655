import Chip8.Proofs.Numerals
import Mathlib.Algebra.Group.Nat.Defs

/-!
# Texts in pieces

A text of pieces with a separator behind each, or before each, is split into these pieces again, if the separator is in
none of them (`splitOn_ended`, `splitOn_begun`). Numerals are such pieces for every separator that is no digit
(`Numeral.mem_capitals`); they are read back whatever their size (`Numeral.value?_chars`), and binary digits stand at
the places of their bits (`Numeral.getElem?_chars_two`).
-/

namespace Chip8

/-! ## Pieces -/

section Pieces

variable {separator : Char} {pieces : List (List Char)}

/-- Each piece with the separator behind it. -/
def ended (separator : Char) (pieces : List (List Char)) : List Char := pieces.flatMap fun p => p ++ [separator]

/-- Each piece with the separator before it. -/
def begun (separator : Char) (pieces : List (List Char)) : List Char := pieces.flatMap fun p => separator :: p

theorem splitOn_ended (h : ∀ p ∈ pieces, separator ∉ p) :
    (ended separator pieces).splitOn separator = pieces ++ [[]] := by
  induction pieces with
  | nil => rfl
  | cons p rest ih =>
    have hp : separator ∉ p := h p List.mem_cons_self
    have htext : ended separator (p :: rest) = p ++ separator :: ended separator rest := by simp [ended]
    rw [htext, List.splitOn_append_cons_self_of_not_mem hp, ih fun q hq => h q (List.mem_cons_of_mem _ hq)]
    rfl

/-- A first piece without a separator, and others behind separators. -/
theorem splitOn_append_begun {first : List Char} (hfirst : separator ∉ first) (h : ∀ p ∈ pieces, separator ∉ p) :
    (first ++ begun separator pieces).splitOn separator = first :: pieces := by
  induction pieces generalizing first with
  | nil =>
    have htext : first ++ begun separator [] = first := List.append_nil first
    rw [htext, List.splitOn_eq_singleton hfirst]
  | cons p rest ih =>
    have htext : first ++ begun separator (p :: rest) = first ++ separator :: (p ++ begun separator rest) := rfl
    rw [htext, List.splitOn_append_cons_self_of_not_mem hfirst,
      ih (h p List.mem_cons_self) fun q hq => h q (List.mem_cons_of_mem _ hq)]

theorem splitOn_begun (h : ∀ p ∈ pieces, separator ∉ p) : (begun separator pieces).splitOn separator = [] :: pieces :=
  splitOn_append_begun List.not_mem_nil h

theorem not_mem_ended {c : Char} (hc : c ≠ separator) (h : ∀ p ∈ pieces, c ∉ p) : c ∉ ended separator pieces := by
  intro hmem
  obtain ⟨p, hp, hmem⟩ := List.mem_flatMap.mp hmem
  rcases List.mem_append.mp hmem with hmem | hmem
  · exact h p hp hmem
  · exact hc (List.mem_singleton.mp hmem)

/-- Pieces that are read back one by one. -/
theorem mapM_written {α β : Type} {write : α → List Char} {read : List Char → Option β} {value : α → β}
    (h : ∀ a, read (write a) = some (value a)) (l : List α) : (l.map write).mapM read = some (l.map value) := by
  have hread : read ∘ write = fun a => some (value a) := funext h
  rw [List.mapM_map, hread]
  exact List.mapM_pure

end Pieces

/-! ## Digits -/

namespace Numeral

/-- The digits up to base sixteen, capital letters above nine. -/
def capitals : List Char := ['0', '1', '2', '3', '4', '5', '6', '7', '8', '9', 'A', 'B', 'C', 'D', 'E', 'F']

theorem mem_capitals {base : Nat} (hlow : 1 < base) (hbase : base ≤ 16) {width n : Nat} {c : Char}
    (h : c ∈ chars base width n) : c ∈ capitals := by
  have hdigit : ∀ d < 16, (Nat.digitChar d).toUpper ∈ capitals := by decide
  rcases List.mem_append.mp h with h | h
  · rw [List.eq_of_mem_replicate h]
    exact List.mem_cons_self
  · obtain ⟨small, hsmall, rfl⟩ := List.mem_map.mp h
    obtain ⟨d, hd, rfl⟩ := mem_toDigits hlow hsmall
    exact hdigit d (by omega)

/-- There is nothing but digits in a numeral. -/
theorem not_mem_chars {base : Nat} (hlow : 1 < base) (hbase : base ≤ 16) {c : Char} (hc : c ∉ capitals)
    (width n : Nat) : c ∉ chars base width n := fun hmem => hc (mem_capitals hlow hbase hmem)

/-- The number that a text of digits stands for. It is smaller than the power of the base with as many digits. -/
def value? (base : Nat) (text : List Char) : Option Nat := (readDigits base (base ^ text.length) 0 text).toOption

/-- A numeral is read back, however large it is. -/
theorem value?_chars {base : Nat} (hlow : 1 < base) (hbase : base ≤ 16) (width n : Nat) :
    value? base (chars base width n) = some n := by
  have hdigits := digits_chars hlow hbase width n
  have hlength := length_chars base width n
  have hlimit : n < base ^ (chars base width n).length := by
    refine (Nat.length_toDigits_le_iff hlow (List.length_pos_iff.mpr hdigits.ne_nil)).mp ?_
    omega
  rw [value?, hdigits.readDigits hlow hbase, if_pos (Nat.le_of_lt hlimit)]
  rfl

/-- The last digit, and the others before it. -/
theorem chars_succ {base width : Nat} (hlow : 1 < base) (hwidth : 0 < width) (n : Nat) :
    chars base (width + 1) n = chars base width (n / base) ++ [(Nat.digitChar (n % base)).toUpper] := by
  unfold chars
  rw [Nat.toDigits_eq_if (b := base) (n := n) hlow]
  split
  · next hn =>
    -- one digit, with a zero more before it
    rw [Nat.div_eq_of_lt hn, Nat.mod_eq_of_lt hn, Nat.toDigits_zero]
    have hzeros : List.replicate width '0' = List.replicate (width - 1) '0' ++ ['0'] := by
      rw [← List.replicate_succ', Nat.sub_add_cancel hwidth]
    simp [hzeros]
  · simp

theorem length_chars_of_lt {base width n : Nat} (hlow : 1 < base) (hwidth : 0 < width) (h : n < base ^ width) :
    (chars base width n).length = width := by
  have hdigits := (Nat.length_toDigits_le_iff hlow hwidth).mpr h
  rw [length_chars]
  omega

/-- Binary digits are the bits, the highest first. -/
theorem getElem?_chars_two {width n k : Nat} (h : n < 2 ^ width) (hk : k < width) :
    (chars 2 width n)[k]? = some (if n.testBit (width - 1 - k) then '1' else '0') := by
  induction width generalizing n k with
  | zero => cases hk
  | succ width ih =>
    cases Nat.eq_zero_or_pos width with
    | inl hzero =>
      subst hzero
      obtain rfl : k = 0 := by omega
      obtain rfl | rfl : n = 0 ∨ n = 1 := by omega
      · rfl
      · rfl
    | inr hwidth =>
      have hhalf : n / 2 < 2 ^ width := by omega
      have hlength := length_chars_of_lt (by omega) hwidth hhalf
      rw [chars_succ (by omega) hwidth]
      rcases Nat.lt_or_eq_of_le (Nat.le_of_lt_succ hk) with hk | rfl
      · have hbit : width + 1 - 1 - k = width - 1 - k + 1 := by omega
        rw [List.getElem?_append_left (by omega), ih hhalf hk, hbit, Nat.testBit_succ]
      · rw [List.getElem?_append_right (by omega), hlength, Nat.add_sub_cancel, Nat.sub_self, Nat.testBit_zero]
        rcases Nat.mod_two_eq_zero_or_one n with hbit | hbit
        · rw [hbit]
          rfl
        · rw [hbit]
          rfl

end Numeral

end Chip8
