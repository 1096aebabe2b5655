import Chip8.Debugger.Command
import Chip8.Proofs.Tokens
import Mathlib.Data.List.Forall2

/-!
# Lines of the debugger

A command is written with any of its names (`Form`), its arguments in any spelling (`Spelled`), and any white space
around them (`Writes`). Reading the line gives the command back, and a line in which one number is too large is an error
(`parse_writes`). Only a listing from the program counter with another length than the default cannot be written, since
the length stands behind the start.
-/

namespace Chip8.Debugger

open Grammar (Token ValueError Slot isUnbroken Plain Holds plain_of_ordinary)
open Numeral (isOrdinary)

/-! ## Arguments -/

/-- The names of a register, in small letters. -/
inductive Target.Called : Target → List Char → Prop
  | i : Called .i ['i']
  | index : Called .i ['i', 'n', 'd', 'e', 'x']
  | pc : Called .pc ['p', 'c']
  | v {x : Nibble} {digits : List Char} : Numeral.Digits 16 x.val digits → Called (.v x) ('v' :: digits)

/-- An argument as it may be written. -/
inductive Spelled : Value → Token → Prop
  | number {n : UInt16} {t : Token} : Numeral.Written n.toNat t → Spelled (.number n) t
  | target {target : Target} {t : Token} : target.Called (t.map Char.toLower) → Spelled (.target target) t

/-- How arguments of this kind are read. -/
def Value.reader : Value → Token → Except ValueError Value
  | .number _ => readNumber
  | .target _ => readTarget

theorem readNumber_written {n : Nat} {t : Token} (h : Numeral.Written n t) :
    readNumber t = if n ≤ 65535 then .ok (.number (UInt16.ofNat n))
      else .error (.invalid Numeral.ReadError.tooLarge.message) := by
  rw [readNumber, Numeral.readPrefixed_written h]
  by_cases hn : n ≤ 65535
  · simp only [if_pos hn]
  · simp only [if_neg hn]

theorem Target.read_called {target : Target} {name : Token} (h : target.Called (name.map Char.toLower)) :
    Target.read name = .ok target := by
  unfold Target.read
  generalize name.map Char.toLower = lower at h ⊢
  cases h with
  | i | index | pc => rfl
  | @v x digits h =>
    have hx : x.val ≤ 255 := by omega
    simp only [h.read (by omega) (by omega) 255, if_pos hx, dif_pos x.isLt]

theorem Target.Called.ordinary {target : Target} {name : List Char} (h : target.Called name) :
    name.all isOrdinary = true := by
  cases h with
  | i | index | pc => rfl
  | v h => exact h.ordinary (by omega) (by omega)

namespace Spelled

variable {v : Value} {t : Token}

/-- A spelled argument is read back. -/
theorem read (h : Spelled v t) : v.reader t = .ok v := by
  cases h with
  | @number n t h =>
    have hn : n.toNat ≤ 65535 := Nat.le_of_lt_succ n.toNat_lt
    rw [Value.reader, readNumber_written h, if_pos hn, UInt16.ofNat_toNat]
  | target h => rw [Value.reader, readTarget, Target.read_called h]

theorem exists_token : ∀ v : Value, ∃ t, Spelled v t
  | .number _ => ⟨_, .number (.decimal (.toDigits (by omega) (by omega) _))⟩
  | .target .i => ⟨['i'], .target .i⟩
  | .target .pc => ⟨['p', 'c'], .target .pc⟩
  | .target (.v x) => by
    have hdigits : Numeral.Digits 16 x.val ((Nat.toDigits 16 x.val).map Char.toLower) := by
      rw [Numeral.map_toLower_toDigits (by omega) (by omega)]
      exact .toDigits (by omega) (by omega) _
    exact ⟨'v' :: Nat.toDigits 16 x.val, .target (.v hdigits)⟩

theorem ordinary (h : Spelled v t) : t.all isOrdinary = true := by
  cases h with
  | number h => exact h.ordinary
  | target h =>
    refine List.all_eq_true.mpr fun c hc => ?_
    have hlower : isOrdinary c.toLower = true := List.all_eq_true.mp h.ordinary _ (List.mem_map_of_mem hc)
    have hcase := Numeral.toNat_toLower c
    rw [Numeral.isOrdinary_iff] at hlower ⊢
    split at hcase <;> omega

theorem ne_nil (h : Spelled v t) : t ≠ [] := by
  cases h with
  | number h => exact h.ne_nil
  | target h =>
    rintro rfl
    cases h

end Spelled

/-! ## Names -/

/-- A command with the words that call it and its arguments. Arguments that have their defaults may be left off from the
right. -/
inductive Form : Command → List String → List Value → Prop
  | run {w : String} : w = "run" ∨ w = "r" → Form .run [w] []
  | pause {w : String} : w = "pause" ∨ w = "p" → Form .pause [w] []
  | step {w : String} : w = "step" ∨ w = "s" → Form .step [w] []
  | setBreakpoint {w u : String} (a : UInt16) : w = "breakpoint" ∨ w = "b" → u = "set" ∨ u = "s" →
      Form (.setBreakpoint a) [w, u] [.number a]
  | clearBreakpoint {w u : String} (a : UInt16) : w = "breakpoint" ∨ w = "b" → u = "clear" ∨ u = "c" →
      Form (.clearBreakpoint a) [w, u] [.number a]
  | listBreakpoints {w u : String} : w = "breakpoint" ∨ w = "b" → u = "list" ∨ u = "l" →
      Form .listBreakpoints [w, u] []
  | clearBreakpoints {w u : String} : w = "breakpoint" ∨ w = "b" → u = "clear-all" ∨ u = "ca" →
      Form .clearBreakpoints [w, u] []
  | set (target : Target) (n : UInt16) : Form (.set target n) ["set"] [.target target, .number n]
  | mem {w : String} (start len : UInt16) : w = "mem" ∨ w = "m" → Form (.mem start len) [w] [.number start, .number len]
  | memFrom {w : String} (start : UInt16) : w = "mem" ∨ w = "m" → Form (.mem start 64) [w] [.number start]
  | memDefault {w : String} : w = "mem" ∨ w = "m" → Form (.mem 0x200 64) [w] []
  | disasm {w : String} (start count : UInt16) : w = "disasm" ∨ w = "d" →
      Form (.disasm (some start) count) [w] [.number start, .number count]
  | disasmFrom {w : String} (start : UInt16) : w = "disasm" ∨ w = "d" →
      Form (.disasm (some start) 8) [w] [.number start]
  | disasmDefault {w : String} : w = "disasm" ∨ w = "d" → Form (.disasm none 8) [w] []
  | quit {w : String} : w = "quit" ∨ w = "q" → Form .quit [w] []

/-- What the grammar has for a form. -/
structure Leaf (leaf : Grammar.Command Value Command) (c : Command) (words : List Token) (args : List Value) :
    Prop where
  called : grammar.follow? words = some leaf
  /-- The first word is not changed by being taken for the path of a program. -/
  kept : ∀ rest, commandTokens (words ++ rest) = words ++ rest
  unbroken : words.all isUnbroken = true
  bare : leaf.subcommands = []
  slots : (leaf.slots.take args.length).map Slot.read = args.map Value.reader
  required : leaf.required ≤ args.length
  make : leaf.make ⟨args, [], []⟩ = some c

theorem Form.exists_leaf {c : Command} {words : List String} {args : List Value} (h : Form c words args) :
    ∃ leaf, Leaf leaf c (words.map String.toList) args := by
  cases h with
  | run h | pause h | step h | memDefault h | disasmDefault h | quit h | memFrom _ h | disasmFrom _ h | mem _ _ h
  | disasm _ _ h =>
    rcases h with rfl | rfl
    all_goals exact ⟨_, rfl, fun _ => rfl, rfl, rfl, rfl, Nat.zero_le _, rfl⟩
  | set => exact ⟨_, rfl, fun _ => rfl, rfl, rfl, rfl, Nat.le_refl _, rfl⟩
  | listBreakpoints h h' | clearBreakpoints h h' | setBreakpoint _ h h' | clearBreakpoint _ h h' =>
    rcases h with rfl | rfl
    all_goals rcases h' with rfl | rfl
    all_goals exact ⟨_, rfl, fun _ => rfl, rfl, rfl, rfl, Nat.le_refl _, rfl⟩

/-! ## Lines -/

/-- A command with the words that call it and the tokens of its arguments. -/
structure Calls (c : Command) (words : List String) (args : List Value) (tokens : List Token) : Prop where
  form : Form c words args
  spelled : List.Forall₂ Spelled args tokens

/-- The line calls the command. -/
def Writes (c : Command) (line : List Char) : Prop :=
  ∃ words args tokens, Calls c words args tokens ∧ Holds (words.map String.toList ++ tokens) line

/-- The line would call the command if one number in it were not too large. -/
def Overflows (c : Command) (line : List Char) : Prop :=
  ∃ words args tokens, Calls c words args tokens ∧ ∃ k m n t, args[k]? = some (.number m) ∧ 65535 < n ∧
    Numeral.Written n t ∧ Holds (words.map String.toList ++ tokens.set k t) line

/-- Spelled arguments are the values of the slots that read them. -/
theorem values_spelled {args : List Value} {tokens : List Token} (h : List.Forall₂ Spelled args tokens) :
    ∀ {slots : List (Slot Value)}, (slots.take args.length).map Slot.read = args.map Value.reader →
      Grammar.values slots tokens = .ok args := by
  induction h with
  | nil => exact fun _ => Grammar.values_nil _
  | @cons v t args tokens hv _ ih =>
    intro slots hslots
    cases slots with
    | nil => cases hslots
    | cons slot slots =>
      obtain ⟨hslot, hrest⟩ := List.cons.inj hslots
      have hread : slot.read t = .ok v := by rw [hslot, hv.read]
      have hvalue : slot.value t = .ok v := by rw [Slot.value, hread]
      rw [Grammar.values, hvalue, Except.bind, ih hrest]
      rfl

/-- A number that is too large leaves no values. -/
theorem values_overflow {slots : List (Slot Value)} {args : List Value} {tokens : List Token} {k n : Nat} {m : UInt16}
    {t : Token} (hslots : (slots.take args.length).map Slot.read = args.map Value.reader)
    (hm : args[k]? = some (.number m)) (hn : 65535 < n) (ht : Numeral.Written n t) (hk : tokens[k]? = some t) :
    ∃ e, Grammar.values slots tokens = .error e := by
  have hread : (slots[k]?).map Slot.read = some readNumber := by
    obtain ⟨hlength, -⟩ := List.getElem?_eq_some_iff.mp hm
    have hkth := congrArg (·[k]?) hslots
    simp only [List.getElem?_map, List.getElem?_take_of_lt hlength, hm] at hkth
    exact hkth
  obtain ⟨slot, hslot, hread⟩ := Option.map_eq_some_iff.mp hread
  have herror : slot.read t = .error (.invalid Numeral.ReadError.tooLarge.message) := by
    rw [hread, readNumber_written ht, if_neg (by omega)]
  exact Grammar.values_error herror hslot hk

/-- A line is read by its leaf. -/
theorem parse_of_leaf {leaf : Grammar.Command Value Command} {c : Command} {words tokens : List Token}
    {args : List Value} {line : List Char} (h : Leaf leaf c words args) (length : tokens.length = args.length)
    (plain : ∀ t ∈ tokens, isUnbroken t = true ∧ Plain t) (holds : Holds (words ++ tokens) line) :
    Command.parse line = (Grammar.values leaf.slots tokens).bind fun vs =>
      if vs.length < leaf.required then .error .missingArguments
      else (leaf.make ⟨vs, [], []⟩).elim (.error .missingArguments) .ok := by
  have hsplit : Grammar.split line = words ++ tokens := by
    refine Grammar.split_of_holds holds fun t ht => ?_
    rcases List.mem_append.mp ht with hw | ht
    · exact List.all_eq_true.mp h.unbroken t hw
    · exact (plain t ht).1
  have hroom : tokens.length ≤ leaf.slots.length := by
    have hlength := congrArg List.length h.slots
    rw [List.length_map, List.length_map, List.length_take] at hlength
    omega
  have hread := Grammar.Command.read_values h.called h.bare (fun t ht => (plain t ht).2) hroom
  rw [Command.parse, hsplit, h.kept, hread]

section Calls

variable {c : Command} {words : List String} {args : List Value} {tokens : List Token}

theorem Calls.plain (h : Calls c words args tokens) : ∀ t ∈ tokens, isUnbroken t = true ∧ Plain t := by
  obtain ⟨-, spelled⟩ := h
  induction spelled with
  | nil => simp
  | cons hv _ ih => exact List.forall_mem_cons.mpr ⟨plain_of_ordinary hv.ne_nil hv.ordinary, ih⟩

theorem parse_of_writes {line : List Char} (h : Writes c line) : Command.parse line = .ok c := by
  obtain ⟨words, args, tokens, calls, holds⟩ := h
  obtain ⟨leaf, hleaf⟩ := calls.form.exists_leaf
  have hfull : ¬ args.length < leaf.required := Nat.not_lt.mpr hleaf.required
  rw [parse_of_leaf hleaf calls.spelled.length_eq.symm calls.plain holds, values_spelled calls.spelled hleaf.slots,
    Except.bind, if_neg hfull, hleaf.make]
  rfl

theorem parse_of_overflows {line : List Char} (h : Overflows c line) : ∃ e, Command.parse line = .error e := by
  obtain ⟨words, args, tokens, calls, k, m, n, t, hm, hn, ht, holds⟩ := h
  obtain ⟨leaf, hleaf⟩ := calls.form.exists_leaf
  have hlength : (tokens.set k t).length = args.length := by
    rw [List.length_set, calls.spelled.length_eq]
  have hk : (tokens.set k t)[k]? = some t := by
    obtain ⟨hk, -⟩ := List.getElem?_eq_some_iff.mp hm
    exact List.getElem?_set_self (by rw [← calls.spelled.length_eq]; exact hk)
  have hplain : ∀ s ∈ tokens.set k t, isUnbroken s = true ∧ Plain s := by
    intro s hs
    rcases List.mem_or_eq_of_mem_set hs with hs | rfl
    · exact calls.plain s hs
    · exact plain_of_ordinary ht.ne_nil ht.ordinary
  obtain ⟨e, herror⟩ := values_overflow hleaf.slots hm hn ht hk
  exact ⟨e, by rw [parse_of_leaf hleaf hlength hplain holds, herror]; rfl⟩

end Calls

/-- All commands have a form, but for a listing of another length from the program counter. -/
theorem exists_form_iff {c : Command} :
    (∃ words args, Form c words args) ↔ ∀ count, c = .disasm none count → count = 8 := by
  constructor
  · rintro ⟨words, args, h⟩ count rfl
    cases h
    rfl
  · intro h
    cases c with
    | run => exact ⟨_, _, .run (.inl rfl)⟩
    | pause => exact ⟨_, _, .pause (.inl rfl)⟩
    | step => exact ⟨_, _, .step (.inl rfl)⟩
    | setBreakpoint a => exact ⟨_, _, .setBreakpoint a (.inl rfl) (.inl rfl)⟩
    | clearBreakpoint a => exact ⟨_, _, .clearBreakpoint a (.inl rfl) (.inl rfl)⟩
    | listBreakpoints => exact ⟨_, _, .listBreakpoints (.inl rfl) (.inl rfl)⟩
    | clearBreakpoints => exact ⟨_, _, .clearBreakpoints (.inl rfl) (.inl rfl)⟩
    | set target n => exact ⟨_, _, .set target n⟩
    | mem start len => exact ⟨_, _, .mem start len (.inl rfl)⟩
    | disasm start? count =>
      cases start? with
      | some start => exact ⟨_, _, .disasm start count (.inl rfl)⟩
      | none =>
        obtain rfl := h count rfl
        exact ⟨_, _, .disasmDefault (.inl rfl)⟩
    | quit => exact ⟨_, _, .quit (.inl rfl)⟩

theorem exists_spelled : ∀ args : List Value, ∃ tokens, List.Forall₂ Spelled args tokens
  | [] => ⟨[], .nil⟩
  | v :: args => by
    obtain ⟨t, ht⟩ := Spelled.exists_token v
    obtain ⟨tokens, h⟩ := exists_spelled args
    exact ⟨t :: tokens, .cons ht h⟩

/-- **Commands are read back from their lines**, whatever the spelling. All can be written, but for a listing of another
length from the program counter; a line with a number that is too large is no command. -/
theorem parse_writes (c : Command) :
    ((∃ line, Writes c line) ↔ ∀ count, c = .disasm none count → count = 8) ∧
      (∀ line, Writes c line → Command.parse line = .ok c) ∧
      ∀ line, Overflows c line → ∃ e, Command.parse line = .error e := by
  refine ⟨?_, fun line => parse_of_writes, fun line => parse_of_overflows⟩
  rw [← exists_form_iff]
  constructor
  · rintro ⟨line, words, args, tokens, calls, -⟩
    exact ⟨words, args, calls.form⟩
  · rintro ⟨words, args, form⟩
    obtain ⟨tokens, spelled⟩ := exists_spelled args
    obtain ⟨line, holds⟩ := Grammar.exists_holds (words.map String.toList ++ tokens)
    exact ⟨line, words, args, tokens, ⟨form, spelled⟩, holds⟩

/-- An address with a capital mark and a zero in front, and a value with a plus sign that is too large. -/
theorem parse_writes_setBreakpoint :
    Command.parse "  b\ts 0X020a ".toList = .ok (.setBreakpoint 0x20A) ∧
      ∃ e, Command.parse "set VA +070000".toList = .error e := by
  have hspelled : Spelled (.number 0x20A) "0X020a".toList := .number (.capitalHex ⟨1, by decide⟩)
  have hwrites : Writes (.setBreakpoint 0x20A) "  b\ts 0X020a ".toList := by
    refine ⟨["b", "s"], _, _, ⟨.setBreakpoint _ (.inr rfl) (.inr rfl), .cons hspelled .nil⟩, ?_⟩
    change Holds _ ([' ', ' '] ++ ['b'] ++ '\t' :: ([] ++ ['s'] ++ ' ' :: ([] ++ "0X020a".toList ++ ' ' :: [])))
    exact .more rfl rfl (.more rfl rfl (.more rfl rfl (.none rfl)))
  have htarget : Spelled (.target (.v 0xA)) "VA".toList := .target (@Target.Called.v 0xA ['a'] ⟨0, by decide⟩)
  have hvalue : Spelled (.number 5) "5".toList := .number (.decimal ⟨0, by decide⟩)
  have hlarge : Numeral.Written 70000 "+070000".toList := .signed ⟨1, by decide⟩
  have hoverflows : Overflows (.set (.v 0xA) 5) "set VA +070000".toList := by
    refine ⟨_, _, _, ⟨.set _ _, .cons htarget (.cons hvalue .nil)⟩, 1, 5, 70000, _, rfl, by omega, hlarge, ?_⟩
    change Holds _ ([] ++ "set".toList ++ ' ' :: ([] ++ "VA".toList ++ ' ' :: ([] ++ "+070000".toList)))
    exact .more rfl rfl (.more rfl rfl (.last rfl))
  exact ⟨(parse_writes _).2.1 _ hwrites, (parse_writes _).2.2 _ hoverflows⟩

end Chip8.Debugger
