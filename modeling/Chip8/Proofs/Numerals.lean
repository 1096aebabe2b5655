import Chip8.Numeral

/-!
# Numerals are read back

A number may be written with any leading zeros and its digits in either case (`Numeral.Digits`), in base ten with a plus
sign or without one, and in base sixteen behind `0x` or `0X` (`Numeral.Written`). Reading digits one after the other
follows the digits of the number from the left, so a reader with a limit finds the number if it is within the limit, and
otherwise that it is too large (`Numeral.readPrefixed_written`). In a fixed base no other texts are read
(`Numeral.read_eq_ok_iff`).
-/

namespace Chip8.Numeral

/-! ## Digits and their case -/

theorem le_iff_toNat_le {a b : Char} : a ≤ b ↔ a.toNat ≤ b.toNat := by
  simp only [Char.le_def, UInt32.le_iff_toNat_le]
  exact Iff.rfl

theorem toNat_toLower (c : Char) :
    c.toLower.toNat = if 65 ≤ c.toNat ∧ c.toNat ≤ 90 then c.toNat + 32 else c.toNat := by
  have hcapital : (c.val ≥ 'A'.val ∧ c.val ≤ 'Z'.val) ↔ 65 ≤ c.toNat ∧ c.toNat ≤ 90 := by
    simp only [ge_iff_le, UInt32.le_iff_toNat_le]
    exact Iff.rfl
  unfold Char.toLower
  split <;> rename_i h
  · have hc := hcapital.mp h
    have hval : c.val.toNat = c.toNat := rfl
    rw [if_pos hc]
    change (c.val + 32).toNat = _
    rw [UInt32.toNat_add, hval]
    simp
    omega
  · rw [if_neg fun hc => h (hcapital.mpr hc)]

/-- The case of a letter does not change its value. -/
theorem digitValue?_toLower (base : Nat) (c : Char) : digitValue? base c.toLower = digitValue? base c := by
  simp only [digitValue?, le_iff_toNat_le, toNat_toLower]
  congr 1
  split
  · have hdigit : ¬ c.toNat ≤ 57 := by omega
    have hsmall : ¬ 97 ≤ c.toNat := by omega
    have hshifted : ¬ c.toNat + 32 ≤ 57 := by omega
    have hcapital : ¬ c.toNat ≤ 38 := by omega
    simp [hdigit, hsmall, hshifted, hcapital]
  · rfl

theorem digitValue?_digitChar : ∀ base ≤ 16, ∀ d < base, digitValue? base (Nat.digitChar d) = some d := by decide

theorem toNat_of_isSome_digitValue? {base : Nat} {c : Char} (h : (digitValue? base c).isSome = true) :
    48 ≤ c.toNat ∧ c.toNat ≤ 102 := by
  by_cases hdigit : '0' ≤ c ∧ c ≤ '9'
  · have hlow : 48 ≤ c.toNat := le_iff_toNat_le.mp hdigit.1
    have hhigh : c.toNat ≤ 57 := le_iff_toNat_le.mp hdigit.2
    omega
  by_cases hsmall : 'a' ≤ c ∧ c ≤ 'f'
  · have hlow : 97 ≤ c.toNat := le_iff_toNat_le.mp hsmall.1
    have hhigh : c.toNat ≤ 102 := le_iff_toNat_le.mp hsmall.2
    omega
  by_cases hcapital : 'A' ≤ c ∧ c ≤ 'F'
  · have hlow : 65 ≤ c.toNat := le_iff_toNat_le.mp hcapital.1
    have hhigh : c.toNat ≤ 70 := le_iff_toNat_le.mp hcapital.2
    omega
  · simp [digitValue?, hdigit, hsmall, hcapital] at h

/-- The value of digits hangs on nothing but their letters, in either case. -/
theorem readDigits_map_toLower (base limit value : Nat) (text : List Char) :
    readDigits base limit value (text.map Char.toLower) = readDigits base limit value text := by
  induction text generalizing value with
  | nil => rfl
  | cons c rest ih =>
    rw [List.map_cons, readDigits, readDigits, digitValue?_toLower]
    simp only [ih]

/-! ## Reading digits -/

/-- Digits are read from the left; once the limit is passed the rest does not matter. -/
theorem readDigits_append (base limit value : Nat) (text more : List Char) :
    readDigits base limit value (text ++ more) =
      (readDigits base limit value text).bind fun value => readDigits base limit value more := by
  induction text generalizing value with
  | nil => rfl
  | cons c rest ih =>
    rw [List.cons_append, readDigits, readDigits]
    cases digitValue? base c with
    | none => rfl
    | some d =>
      by_cases h : limit < value * base + d
      · simp only [h, if_true]
        rfl
      · simp only [h, if_false]
        exact ih _

theorem readDigits_zeros {base : Nat} (h : 0 < base) (hbase : base ≤ 16) (limit zeros : Nat) (text : List Char) :
    readDigits base limit 0 (List.replicate zeros '0' ++ text) = readDigits base limit 0 text := by
  have hzero : digitValue? base '0' = some 0 := digitValue?_digitChar base hbase 0 h
  induction zeros with
  | zero => rfl
  | succ zeros ih =>
    rw [List.replicate_succ, List.cons_append, readDigits, hzero]
    simpa using ih

theorem readDigits_digitChar {base d : Nat} (hbase : base ≤ 16) (hd : d < base) (limit value : Nat) :
    readDigits base limit value [Nat.digitChar d] =
      if value * base + d ≤ limit then .ok (value * base + d) else .error .tooLarge := by
  simp only [readDigits, digitValue?_digitChar base hbase d hd]
  by_cases h : value * base + d ≤ limit
  · rw [if_neg (by omega), if_pos h]
  · rw [if_pos (by omega), if_neg h]

/-- Reading the digits of a number finds it, or that it is past the limit. -/
theorem readDigits_toDigits {base : Nat} (h : 1 < base) (hbase : base ≤ 16) (limit n : Nat) :
    readDigits base limit 0 (Nat.toDigits base n) = if n ≤ limit then .ok n else .error .tooLarge := by
  induction n using Nat.strongRecOn with
  | ind n ih =>
    rw [Nat.toDigits_eq_if h]
    split
    · next hn =>
      rw [readDigits_digitChar hbase hn, Nat.zero_mul, Nat.zero_add]
    · next hn =>
      have hless : n / base < n := Nat.div_lt_self (by omega) h
      have hlast : n % base < base := Nat.mod_lt _ (by omega)
      have hvalue : n / base * base + n % base = n := Nat.div_add_mod' n base
      rw [readDigits_append, ih _ hless]
      by_cases hfits : n / base ≤ limit
      · rw [if_pos hfits]
        change readDigits base limit (n / base) _ = _
        rw [readDigits_digitChar hbase hlast, hvalue]
      · -- the digits before the last are too large already
        rw [if_neg hfits, if_neg (by omega)]
        rfl

/-! ## Written numbers -/

/-- The digits of a number, in either case, behind any number of zeros. -/
def Digits (base n : Nat) (text : List Char) : Prop :=
  ∃ zeros, text.map Char.toLower = List.replicate zeros '0' ++ Nat.toDigits base n

/-- A number as it may be written. -/
inductive Written (n : Nat) : List Char → Prop
  | decimal {text : List Char} : Digits 10 n text → Written n text
  | signed {text : List Char} : Digits 10 n text → Written n ('+' :: text)
  | hex {text : List Char} : Digits 16 n text → Written n ('0' :: 'x' :: text)
  | capitalHex {text : List Char} : Digits 16 n text → Written n ('0' :: 'X' :: text)

theorem mem_toDigits {base : Nat} (h : 1 < base) {n : Nat} {c : Char} (hc : c ∈ Nat.toDigits base n) :
    ∃ d < base, c = Nat.digitChar d := by
  induction n using Nat.strongRecOn with
  | ind n ih =>
    rw [Nat.toDigits_eq_if h] at hc
    split at hc
    · next hn => exact ⟨n, hn, List.mem_singleton.mp hc⟩
    · next hn =>
      rcases List.mem_append.mp hc with hc | hc
      · exact ih _ (Nat.div_lt_self (by omega) h) hc
      · exact ⟨n % base, Nat.mod_lt _ (by omega), List.mem_singleton.mp hc⟩

theorem map_toLower_toDigits {base : Nat} (hlow : 1 < base) (hbase : base ≤ 16) (n : Nat) :
    (Nat.toDigits base n).map Char.toLower = Nat.toDigits base n := by
  have hsmall : ∀ d < 16, (Nat.digitChar d).toLower = Nat.digitChar d := by decide
  refine (List.map_congr_left fun c hc => ?_).trans (List.map_id _)
  obtain ⟨d, hd, rfl⟩ := mem_toDigits hlow hc
  exact hsmall d (by omega)

namespace Digits

theorem toDigits {base : Nat} (hlow : 1 < base) (hbase : base ≤ 16) (n : Nat) :
    Digits base n (Nat.toDigits base n) :=
  ⟨0, map_toLower_toDigits hlow hbase n⟩

variable {base n : Nat} {text : List Char}

theorem ne_nil (h : Digits base n text) : text ≠ [] := by
  obtain ⟨zeros, hdigits⟩ := h
  rintro rfl
  simp at hdigits

/-- Each character is a digit. -/
theorem isSome_digitValue? (h : Digits base n text) (hlow : 1 < base) (hbase : base ≤ 16) :
    ∀ c ∈ text, (digitValue? base c).isSome = true := by
  intro c hc
  obtain ⟨zeros, hdigits⟩ := h
  have hlower : c.toLower ∈ List.replicate zeros '0' ++ Nat.toDigits base n :=
    hdigits ▸ List.mem_map_of_mem hc
  have hzero : digitValue? base '0' = some 0 := digitValue?_digitChar base hbase 0 (by omega)
  rw [← digitValue?_toLower]
  rcases List.mem_append.mp hlower with hlead | hdigit
  · rw [List.eq_of_mem_replicate hlead, hzero]
    rfl
  · obtain ⟨d, hd, hchar⟩ := mem_toDigits hlow hdigit
    rw [hchar, digitValue?_digitChar base hbase d hd]
    rfl

theorem readDigits (h : Digits base n text) (hlow : 1 < base) (hbase : base ≤ 16) (limit : Nat) :
    readDigits base limit 0 text = if n ≤ limit then .ok n else .error .tooLarge := by
  obtain ⟨zeros, hdigits⟩ := h
  rw [← readDigits_map_toLower, hdigits, readDigits_zeros (by omega) hbase, readDigits_toDigits hlow hbase]

/-- A plus sign in front is passed over. -/
theorem read_signed (h : Digits base n text) (hlow : 1 < base) (hbase : base ≤ 16) (limit : Nat) :
    read base limit ('+' :: text) = if n ≤ limit then .ok n else .error .tooLarge := by
  cases text with
  | nil => exact absurd rfl h.ne_nil
  | cons c rest => exact h.readDigits hlow hbase limit

theorem read (h : Digits base n text) (hlow : 1 < base) (hbase : base ≤ 16) (limit : Nat) :
    read base limit text = if n ≤ limit then .ok n else .error .tooLarge := by
  have hdigit := h.isSome_digitValue? hlow hbase
  rw [← h.readDigits hlow hbase limit]
  unfold Numeral.read
  split
  · exact absurd rfl h.ne_nil
  -- a plus sign is no digit
  · cases hdigit '+' (by simp)
  · cases hdigit '+' (by simp)
  · rfl

end Digits

/-- A number filled with zeros to a width, in capitals. -/
theorem digits_chars {base : Nat} (hlow : 1 < base) (hbase : base ≤ 16) (width n : Nat) :
    Digits base n (chars base width n) := by
  have hcapital : ∀ d < 16, (Nat.digitChar d).toUpper.toLower = Nat.digitChar d := by decide
  refine ⟨width - ((Nat.toDigits base n).map Char.toUpper).length, ?_⟩
  rw [chars, List.map_append, List.map_replicate, List.map_map]
  congr 1
  refine (List.map_congr_left fun c hc => ?_).trans (List.map_id _)
  obtain ⟨d, hd, rfl⟩ := mem_toDigits hlow hc
  exact hcapital d (by omega)

theorem length_chars (base width n : Nat) :
    (chars base width n).length = max width (Nat.toDigits base n).length := by
  simp only [chars, List.length_append, List.length_replicate, List.length_map]
  omega

theorem toList_hex (width n : Nat) : (hex width n).toList = chars 16 width n := by
  rw [hex, write, String.toList_ofList]

/-- **A written number is read back**, or found to be too large. -/
theorem readPrefixed_written {n : Nat} {text : List Char} (h : Written n text) (limit : Nat) :
    readPrefixed limit text = if n ≤ limit then .ok n else .error .tooLarge := by
  cases h with
  | @decimal text h =>
    have hread := h.read (by omega) (by omega) limit
    have hdigit := h.isSome_digitValue? (by omega) (by omega)
    rw [← hread]
    unfold readPrefixed
    split
    · next digits => cases hdigit 'x' (by simp)
    · next digits => cases hdigit 'X' (by simp)
    · rfl
  | signed h => exact h.read_signed (by omega) (by omega) limit
  | hex h => exact h.read (by omega) (by omega) limit
  | capitalHex h => exact h.read (by omega) (by omega) limit

/-- The plus sign, or a character from the digits up to the small letters. -/
def isOrdinary (c : Char) : Bool := c.toNat == 43 || (48 ≤ c.toNat && c.toNat ≤ 122)

theorem isOrdinary_iff {c : Char} : isOrdinary c = true ↔ c.toNat = 43 ∨ 48 ≤ c.toNat ∧ c.toNat ≤ 122 := by
  simp [isOrdinary]

theorem Digits.ordinary {base n : Nat} {text : List Char} (h : Digits base n text) (hlow : 1 < base)
    (hbase : base ≤ 16) : text.all isOrdinary = true := by
  refine List.all_eq_true.mpr fun c hc => isOrdinary_iff.mpr (.inr ?_)
  have hrange := toNat_of_isSome_digitValue? (h.isSome_digitValue? hlow hbase c hc)
  omega

theorem Written.ordinary {n : Nat} {text : List Char} (h : Written n text) : text.all isOrdinary = true := by
  cases h with
  | decimal h | signed h => exact h.ordinary (by omega) (by omega)
  | hex h | capitalHex h => exact h.ordinary (by omega) (by omega)

theorem Written.ne_nil {n : Nat} {text : List Char} (h : Written n text) : text ≠ [] := by
  cases h with
  | decimal h => exact h.ne_nil
  | signed | hex | capitalHex => exact List.cons_ne_nil _ _

/-! ## Only written numbers are read -/

/-- In small letters, a digit is the character of its value. -/
theorem toLower_of_digitValue? {base d : Nat} {c : Char} (hbase : base ≤ 16) (h : digitValue? base c = some d) :
    d < base ∧ c.toLower = Nat.digitChar d := by
  have hsmall : ∀ k < 103, ∀ d ∈ digitValue? 16 (Char.ofNat k), (Char.ofNat k).toLower = Nat.digitChar d := by decide
  obtain ⟨-, hlast⟩ := toNat_of_isSome_digitValue? (Option.isSome_of_eq_some h)
  obtain ⟨hvalue, hd⟩ := Option.filter_eq_some_iff.mp h
  have hd : d < base := of_decide_eq_true hd
  have hsixteen : digitValue? 16 c = some d :=
    Option.filter_eq_some_iff.mpr ⟨hvalue, decide_eq_true (Nat.lt_of_lt_of_le hd hbase)⟩
  have hchar := hsmall c.toNat (by omega) d
  rw [Char.ofNat_toNat] at hchar
  exact ⟨hd, hchar hsixteen⟩

namespace Digits

variable {base n d : Nat} {text : List Char} {c : Char}

/-- One more digit. -/
theorem snoc (h : Digits base n text) (hlow : 1 < base) (hbase : base ≤ 16) (hc : digitValue? base c = some d) :
    Digits base (n * base + d) (text ++ [c]) := by
  obtain ⟨zeros, hdigits⟩ := h
  obtain ⟨hd, hchar⟩ := toLower_of_digitValue? hbase hc
  rw [Digits, List.map_append, hdigits, List.map_singleton, hchar]
  by_cases hn : n = 0
  · -- the digit of zero becomes one of the zeros in front
    subst hn
    refine ⟨zeros + 1, ?_⟩
    have hzero : Nat.toDigits base 0 = ['0'] := by rw [Nat.toDigits_of_lt_base (by omega)]; rfl
    rw [Nat.zero_mul, Nat.zero_add, Nat.toDigits_of_lt_base hd, hzero, List.replicate_succ']
  · refine ⟨zeros, ?_⟩
    have hmore : ¬ n * base + d < base := by
      have : base ≤ n * base := Nat.le_mul_of_pos_left base (by omega)
      omega
    have hrest : (n * base + d) / base = n := by
      rw [Nat.mul_comm, Nat.mul_add_div (by omega), Nat.div_eq_of_lt hd, Nat.add_zero]
    have hlast : (n * base + d) % base = d := by rw [Nat.mul_add_mod_self_right, Nat.mod_eq_of_lt hd]
    rw [Nat.toDigits_eq_if hlow (n := n * base + d), if_neg hmore, hrest, hlast, List.append_assoc]

/-- More digits. -/
theorem append (hlow : 1 < base) (hbase : base ≤ 16) {more : List Char}
    (hmore : ∀ c ∈ more, (digitValue? base c).isSome = true) (h : Digits base n text) :
    ∃ m, Digits base m (text ++ more) := by
  induction more generalizing n text with
  | nil => exact ⟨n, by rwa [List.append_nil]⟩
  | cons c more ih =>
    obtain ⟨d, hc⟩ := Option.isSome_iff_exists.mp (hmore c List.mem_cons_self)
    obtain ⟨m, hm⟩ := ih (fun c hc => hmore c (List.mem_cons_of_mem _ hc)) (h.snoc hlow hbase hc)
    exact ⟨m, by rwa [List.append_assoc] at hm⟩

/-- All texts of digits are the digits of a number. -/
theorem exists_of_digits (hlow : 1 < base) (hbase : base ≤ 16) (hne : text ≠ [])
    (h : ∀ c ∈ text, (digitValue? base c).isSome = true) : ∃ n, Digits base n text := by
  obtain ⟨c, rest, rfl⟩ := List.exists_cons_of_ne_nil hne
  obtain ⟨d, hc⟩ := Option.isSome_iff_exists.mp (h c List.mem_cons_self)
  obtain ⟨hd, hchar⟩ := toLower_of_digitValue? hbase hc
  have hfirst : Digits base d [c] := ⟨0, by rw [List.map_singleton, hchar, Nat.toDigits_of_lt_base hd]; rfl⟩
  exact hfirst.append hlow hbase fun c hc => h c (List.mem_cons_of_mem _ hc)

end Digits

section Read

variable {base limit value n : Nat} {text : List Char}

theorem isSome_digitValue?_of_readDigits (h : readDigits base limit value text = .ok n) :
    ∀ c ∈ text, (digitValue? base c).isSome = true := by
  induction text generalizing value with
  | nil => simp
  | cons c rest ih =>
    rw [readDigits] at h
    split at h
    · cases h
    · next d hd =>
      split at h
      · cases h
      · exact List.forall_mem_cons.mpr ⟨Option.isSome_of_eq_some hd, ih h⟩

theorem readDigits_eq_ok (hlow : 1 < base) (hbase : base ≤ 16) (hne : text ≠ [])
    (h : readDigits base limit 0 text = .ok n) : n ≤ limit ∧ Digits base n text := by
  obtain ⟨m, hm⟩ := Digits.exists_of_digits hlow hbase hne (isSome_digitValue?_of_readDigits h)
  rw [hm.readDigits hlow hbase] at h
  split at h
  · next hfits =>
    obtain rfl := Except.ok.inj h
    exact ⟨hfits, hm⟩
  · cases h

/-- **Exactly the digits of the numbers up to the limit are read**, a plus sign in front of them or none. -/
theorem read_eq_ok_iff (hlow : 1 < base) (hbase : base ≤ 16) :
    read base limit text = .ok n ↔
      n ≤ limit ∧ (Digits base n text ∨ ∃ digits, text = '+' :: digits ∧ Digits base n digits) := by
  constructor
  · intro h
    unfold read at h
    split at h
    · cases h
    · cases h
    · next digits hdigits =>
      obtain ⟨hfits, hn⟩ := readDigits_eq_ok hlow hbase (fun hnil => hdigits (hnil ▸ rfl)) h
      exact ⟨hfits, .inr ⟨digits, rfl, hn⟩⟩
    · next hempty _ _ =>
      obtain ⟨hfits, hn⟩ := readDigits_eq_ok hlow hbase (fun hnil => hempty hnil) h
      exact ⟨hfits, .inl hn⟩
  · rintro ⟨hfits, hn | ⟨digits, rfl, hn⟩⟩
    · rw [hn.read hlow hbase, if_pos hfits]
    · rw [hn.read_signed hlow hbase, if_pos hfits]

end Read

end Chip8.Numeral
