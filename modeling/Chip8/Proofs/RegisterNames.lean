import Chip8.Proofs.CommandLines
import Chip8.Proofs.LowerCase

/-!
# Names of registers

A name is read step by step (`Target.readStepwise?`): its small letters are compared with the names, and behind a v a
byte is read in base sixteen, which has to be a digit. Two of these steps could break off, cutting the text behind its
first byte and making a digit of the byte. They never do, and the result is that of `Target.read`, which looks at the
small letters of ASCII alone. The names that are read are those of `Target.Named`, and all other texts are errors
(`names_exact`).
-/

namespace Chip8.Debugger

open Grammar (Token isBlank isBlank_of_isOrdinary)
open Numeral (Digits)

/-! ## Bytes -/

/-- The text behind its first `n` bytes; none if these do not end where a character ends. -/
def dropBytes? : Nat → List Char → Option (List Char)
  | 0, text => some text
  | _ + 1, [] => none
  | n + 1, c :: rest => if c.utf8Size ≤ n + 1 then dropBytes? (n + 1 - c.utf8Size) rest else none

/-- A character of one byte is cut off. -/
theorem dropBytes?_one {c : Char} (h : c.utf8Size = 1) (rest : List Char) : dropBytes? 1 (c :: rest) = some rest := by
  rw [dropBytes?, h, if_pos (Nat.le_refl _), Nat.sub_self, dropBytes?]

/-- Reads a byte in base sixteen. -/
def readByte (text : List Char) : Except Numeral.ReadError UInt8 := (Numeral.read 16 255 text).map UInt8.ofNat

/-- The byte has the value of its numeral. -/
theorem readByte_of_read {text : List Char} {n : Nat} (h : Numeral.read 16 255 text = .ok n) :
    ∃ b : UInt8, readByte text = .ok b ∧ b.toNat = n := by
  obtain ⟨hn, -⟩ := (Numeral.read_eq_ok_iff (by omega) (by omega)).mp h
  refine ⟨UInt8.ofNat n, by rw [readByte, h]; rfl, ?_⟩
  rw [UInt8.toNat_ofNat', Nat.mod_eq_of_lt (by omega)]

namespace Target

/-! ## Names -/

/-- The names of a register in small letters, its number with a plus sign or without one. -/
inductive Named : Target → List Char → Prop
  | called {target : Target} {name : List Char} : target.Called name → Named target name
  | signed {x : Nibble} {digits : List Char} : Digits 16 x.val digits → Named (.v x) ('v' :: '+' :: digits)

/-- Texts in small letters that come close to names. -/
inductive Misnamed : List Char → Prop
  | bare : Misnamed ['v']
  | sign : Misnamed ['v', '+']
  | large {n : Nat} {digits : List Char} : 15 < n → Digits 16 n digits → Misnamed ('v' :: digits)
  | signedLarge {n : Nat} {digits : List Char} : 15 < n → Digits 16 n digits → Misnamed ('v' :: '+' :: digits)
  | minus {text : List Char} : '-' ∈ text → Misnamed text
  | secondPlus {text : List Char} : 1 < text.count '+' → Misnamed text
  | blank {text : List Char} {c : Char} : c ∈ text → isBlank c = true → Misnamed text

section Named

variable {target : Target} {text : List Char}

/-- Behind a v stands what is read as a byte below sixteen. -/
theorem named_v_iff {digits : List Char} :
    Named target ('v' :: digits) ↔ ∃ x : Nibble, target = .v x ∧ Numeral.read 16 255 digits = .ok x.val := by
  have hread (x : Nibble) := @Numeral.read_eq_ok_iff 16 255 x.val digits (by omega) (by omega)
  simp only [hread]
  constructor
  · intro h
    cases h with
    | called h =>
      cases h with
      | @v x _ h => exact ⟨x, rfl, by omega, .inl h⟩
    | @signed x more h => exact ⟨x, rfl, by omega, .inr ⟨more, rfl, h⟩⟩
  · rintro ⟨x, rfl, -, h | ⟨more, rfl, h⟩⟩
    · exact .called (.v h)
    · exact .signed h

theorem Named.ordinary (h : Named target text) : text.all Numeral.isOrdinary = true := by
  cases h with
  | called h => exact h.ordinary
  | signed h =>
    have hdigits := h.ordinary (by omega) (by omega)
    rw [List.all_cons, List.all_cons, hdigits]
    rfl

/-- There is no k in a name. -/
theorem Named.k_not_mem (h : Named target text) : 'k' ∉ text := by
  have hdigits {x : Nibble} {digits : List Char} (h : Digits 16 x.val digits) : 'k' ∉ digits := fun hk => by
    cases h.isSome_digitValue? (by omega) (by omega) 'k' hk
  cases h with
  | called h =>
    cases h with
    | i | index | pc => decide
    | v h => simpa using hdigits h
  | signed h => simpa using hdigits h

theorem Named.count_plus (h : Named target text) : text.count '+' ≤ 1 := by
  have hdigits {x : Nibble} {digits : List Char} (h : Digits 16 x.val digits) : digits.count '+' = 0 :=
    List.count_eq_zero.mpr fun hplus => by cases h.isSome_digitValue? (by omega) (by omega) '+' hplus
  cases h with
  | called h =>
    cases h with
    | i | index | pc => decide
    | v h => simp [hdigits h]
  | signed h => simp [hdigits h]

/-- There is no register above fifteen. -/
theorem not_named_of_read {n : Nat} {digits : List Char} (hn : 15 < n)
    (h : Numeral.read 16 255 digits = if n ≤ 255 then .ok n else .error .tooLarge) :
    ¬ Named target ('v' :: digits) := by
  rw [named_v_iff, h]
  rintro ⟨x, -, hx⟩
  split at hx
  · obtain rfl := Except.ok.inj hx
    omega
  · cases hx

theorem Misnamed.not_named (h : Misnamed text) : ¬ Named target text := by
  cases h with
  | bare | sign =>
    rw [named_v_iff]
    rintro ⟨x, -, hx⟩
    cases hx
  | large hn h => exact not_named_of_read hn (h.read (by omega) (by omega) 255)
  | signedLarge hn h => exact not_named_of_read hn (h.read_signed (by omega) (by omega) 255)
  | minus hmem => exact fun h => by cases List.all_eq_true.mp h.ordinary _ hmem
  | secondPlus hcount => exact fun h => absurd h.count_plus (Nat.not_le.mpr hcount)
  | blank hmem hblank =>
    intro h
    rw [isBlank_of_isOrdinary (List.all_eq_true.mp h.ordinary _ hmem)] at hblank
    cases hblank

/-- A text with a k or a character outside ASCII is no name. -/
theorem not_named_of_mem {c : Char} (hmem : c ∈ text) (hc : c = 'k' ∨ 128 ≤ c.toNat) : ¬ Named target text := by
  intro h
  rcases hc with rfl | hc
  · exact h.k_not_mem hmem
  · have hordinary := List.all_eq_true.mp h.ordinary _ hmem
    rw [Numeral.isOrdinary_iff] at hordinary
    omega

end Named

/-! ## Reading small letters -/

def invalidRegister (name : Token) : String := "Invalid register: '" ++ String.ofList name ++ "'"

def unknownTarget (name : Token) : String := "Unknown set target: '" ++ String.ofList name ++ "'"

/-- What is said of a name whose small letters name no register. -/
def refusal (name : Token) (lower : List Char) : String :=
  if lower.head? = some 'v' then invalidRegister name else unknownTarget name

/-- Reads the small letters of a name. -/
def resolve (name : Token) (lower : List Char) : Except String Target :=
  match lower with
  | ['i'] | ['i', 'n', 'd', 'e', 'x'] => .ok .i
  | ['p', 'c'] => .ok .pc
  | 'v' :: digits =>
    match Numeral.read 16 255 digits with
    | .ok n => if h : n < 16 then .ok (.v ⟨n, h⟩) else .error (invalidRegister name)
    | .error _ => .error (invalidRegister name)
  | _ => .error (unknownTarget name)

theorem read_eq_resolve (name : Token) : Target.read name = resolve name (name.map Char.toLower) := rfl

section Resolve

variable {target : Target} {name : Token} {lower : List Char}

theorem resolve_of_named (h : Named target lower) : resolve name lower = .ok target := by
  have hv {digits : List Char} (h : Named target ('v' :: digits)) : resolve name ('v' :: digits) = .ok target := by
    obtain ⟨x, rfl, hread⟩ := named_v_iff.mp h
    simp only [resolve, hread, dif_pos x.isLt]
  cases h with
  | called h =>
    cases h with
    | i | index | pc => rfl
    | v h => exact hv (.called (.v h))
  | signed h => exact hv (.signed h)

theorem resolve_of_not_named (h : ∀ target, ¬ Named target lower) :
    resolve name lower = .error (refusal name lower) := by
  unfold resolve
  split
  · exact absurd (.called .i) (h _)
  · exact absurd (.called .index) (h _)
  · exact absurd (.called .pc) (h _)
  · next digits =>
    have hrefusal : refusal name ('v' :: digits) = invalidRegister name := if_pos rfl
    rw [hrefusal]
    split
    · next n hread =>
      have hn : ¬ n < 16 := fun hn => h (.v ⟨n, hn⟩) (named_v_iff.mpr ⟨_, rfl, hread⟩)
      rw [dif_neg hn]
    · rfl
  · next hv =>
    have hhead : ¬ lower.head? = some 'v' := fun hhead => by
      obtain ⟨digits, rfl⟩ := List.head?_eq_some_iff.mp hhead
      exact hv digits rfl
    rw [refusal, if_neg hhead]

theorem resolve_eq_ok_iff : resolve name lower = .ok target ↔ Named target lower := by
  refine ⟨fun h => ?_, resolve_of_named⟩
  by_contra hnot
  have hnone : ∀ target, ¬ Named target lower := fun target' h' => by
    rw [resolve_of_named h'] at h
    exact hnot (Except.ok.inj h ▸ h')
  rw [resolve_of_not_named hnone] at h
  cases h

end Resolve

/-! ## Reading step by step -/

/-- Reads what is behind the v; none if a byte above fifteen is made a digit. -/
def readRegister? (name : Token) (digits : List Char) : Option (Except String Target) :=
  match readByte digits with
  | .ok b => if b < 16 then (Nibble.ofByte? b).map fun x => .ok (.v x) else some (.error (invalidRegister name))
  | .error _ => some (.error (invalidRegister name))

/-- Only bytes below sixteen are made digits. -/
theorem readRegister?_eq (name : Token) (digits : List Char) :
    readRegister? name digits = some (resolve name ('v' :: digits)) := by
  rw [readRegister?, resolve]
  cases hread : Numeral.read 16 255 digits with
  | error e => simp only [readByte, hread, Except.map]
  | ok n =>
    obtain ⟨b, hbyte, rfl⟩ := readByte_of_read hread
    simp only [hbyte]
    by_cases hb : b.toNat < 16
    · have hless : b < 16 := UInt8.lt_iff_toNat_lt.mpr hb
      rw [if_pos hless, dif_pos hb, Nibble.ofByte?, dif_pos hb]
      rfl
    · have hless : ¬ b < 16 := fun h => hb (UInt8.lt_iff_toNat_lt.mp h)
      rw [if_neg hless, dif_neg hb]

section Stepwise

variable (endsWord : List Char → List Char → Bool)

/-- Reads a name by its small letters; none if a step breaks off. -/
def readStepwise? (name : Token) : Option (Except String Target) :=
  match LowerCase.ofText endsWord name with
  | ['i', 'n', 'd', 'e', 'x'] | ['i'] => some (.ok .i)
  | ['p', 'c'] => some (.ok .pc)
  | lower =>
    if lower.head? = some 'v' then (dropBytes? 1 lower).bind (readRegister? name)
    else some (.error (unknownTarget name))

/-- No step breaks off. -/
theorem readStepwise?_eq (name : Token) :
    readStepwise? endsWord name = some (resolve name (LowerCase.ofText endsWord name)) := by
  unfold readStepwise?
  generalize LowerCase.ofText endsWord name = lower
  split
  · rfl
  · rfl
  · rfl
  · next hindex hi hpc =>
    split
    · next hhead =>
      -- the first character is a v, which is one byte long
      obtain ⟨digits, rfl⟩ := List.head?_eq_some_iff.mp hhead
      rw [dropBytes?_one (by decide), Option.bind_some, readRegister?_eq]
    · next hhead =>
      unfold resolve
      split
      · exact absurd rfl hi
      · exact absurd rfl hindex
      · exact absurd rfl hpc
      · exact absurd rfl hhead
      · rfl

theorem not_named_ofText {target : Target} {name : Token} {c : Char} (hmem : c ∈ name) (hc : 128 ≤ c.toNat) :
    ¬ Named target (LowerCase.ofText endsWord name) := by
  obtain ⟨d, hd, hforeign⟩ := LowerCase.exists_mem_ofText hmem hc
  exact not_named_of_mem hd hforeign

/-- Outside ASCII there are no names, so the small letters of ASCII are enough. -/
theorem resolve_ofText (name : Token) : resolve name (LowerCase.ofText endsWord name) = Target.read name := by
  rw [read_eq_resolve]
  by_cases hascii : ∀ c ∈ name, c.toNat < 128
  · rw [LowerCase.ofText_ascii hascii]
  · simp only [not_forall, Nat.not_lt] at hascii
    obtain ⟨c, hmem, hc⟩ := hascii
    have hkept : 128 ≤ c.toLower.toNat := (LowerCase.toLower_foreign hc).symm ▸ hc
    -- both are refused, in the same words
    rw [resolve_of_not_named fun _ => not_named_ofText endsWord hmem hc,
      resolve_of_not_named fun _ => not_named_of_mem (List.mem_map_of_mem hmem) (.inr hkept), refusal, refusal]
    simp only [LowerCase.head?_ofText (d := 'v') (by decide) (by decide) (by decide)]

end Stepwise

end Target

/-- **The names of registers are read exactly**, whichever sigmas end a word. No step of the reading breaks off, and a
text is read as a register if and only if its small letters are a name of this register. All others are refused, also
those that come close to a name and those with a character outside ASCII. -/
theorem names_exact (endsWord : List Char → List Char → Bool) (name : Token) :
    Target.readStepwise? endsWord name = some (Target.read name) ∧
      (∀ target, Target.read name = .ok target ↔ target.Named (LowerCase.ofText endsWord name)) ∧
      ((∀ target : Target, ¬ target.Named (LowerCase.ofText endsWord name)) →
        Target.read name = .error (Target.refusal name (LowerCase.ofText endsWord name))) ∧
      (Target.Misnamed (LowerCase.ofText endsWord name) ∨ (∃ c ∈ name, 128 ≤ c.toNat) →
        ∃ reason, Target.read name = .error reason) := by
  have hread := Target.resolve_ofText endsWord name
  have hrefused : (∀ target : Target, ¬ target.Named (LowerCase.ofText endsWord name)) →
      Target.read name = .error (Target.refusal name (LowerCase.ofText endsWord name)) := fun hnone => by
    rw [← hread, Target.resolve_of_not_named hnone]
  refine ⟨?_, fun target => ?_, hrefused, ?_⟩
  · rw [Target.readStepwise?_eq, hread]
  · rw [← hread, Target.resolve_eq_ok_iff]
  · rintro (hclose | ⟨c, hmem, hc⟩)
    · exact ⟨_, hrefused fun _ => hclose.not_named⟩
    · exact ⟨_, hrefused fun _ => Target.not_named_ofText endsWord hmem hc⟩

/-- A number with a plus sign and a zero in front, one above fifteen, and a k that is the Kelvin sign. -/
theorem names_exact_plusSign :
    Target.read "V+0f".toList = .ok (.v 15) ∧
      Target.read "v010".toList = .error "Invalid register: 'v010'" ∧
      ∃ reason, Target.read ['v', '\u212A'] = .error reason := by
  have hdigits : Digits 16 15 ['0', 'f'] := ⟨1, by decide⟩
  have hnamed : Target.Named (.v 15) (LowerCase.ofText (fun _ _ => false) "V+0f".toList) := .signed hdigits
  have hsixteen : Digits 16 16 ['0', '1', '0'] := ⟨1, by decide⟩
  have hlarge : Target.Misnamed (LowerCase.ofText (fun _ _ => false) "v010".toList) := .large (by decide) hsixteen
  refine ⟨((names_exact _ _).2.1 _).mpr hnamed, (names_exact _ _).2.2.1 fun _ => hlarge.not_named, ?_⟩
  exact (names_exact (fun _ _ => false) _).2.2.2 (.inr ⟨'\u212A', by decide, by decide⟩)

end Chip8.Debugger
