import Chip8.Grammar.Blank
import Chip8.Proofs.Numerals

/-!
# Reading plain tokens

Tokens stand in a line with white space between them and possibly around them (`Holds`), and splitting the line finds
them again (`split_of_holds`). Tokens that do not begin with a hyphen are values: behind the names of its sub-commands,
a command puts them into its slots in order (`values`), and reads them like that or fails (`Command.read_values`).
-/

namespace Chip8.Grammar

/-! ## Lines -/

/-- White space of any length. -/
def Blank (gap : List Char) : Prop := gap.all isBlank = true

theorem blank_nil : Blank [] := rfl

/-- The tokens stand in the line one after the other. -/
inductive Holds : List Token → List Char → Prop
  | none {gap : List Char} : Blank gap → Holds [] gap
  | last {gap : List Char} {t : Token} : Blank gap → Holds [t] (gap ++ t)
  | more {gap : List Char} {t : Token} {sep : Char} {rest : List Token} {line : List Char} :
      Blank gap → isBlank sep = true → Holds rest line → Holds (t :: rest) (gap ++ t ++ sep :: line)

/-- A token is not empty, and white space does not break it. -/
def isUnbroken (t : Token) : Bool := !t.isEmpty && t.all fun c => !isBlank c

theorem isUnbroken_iff {t : Token} : isUnbroken t = true ↔ t ≠ [] ∧ ∀ c ∈ t, isBlank c = false := by
  simp [isUnbroken]

theorem splitFrom_cons (current : Token) (c : Char) (rest : List Char) :
    splitFrom current (c :: rest) =
      if isBlank c then
        if current.isEmpty then splitFrom [] rest else current.reverse :: splitFrom [] rest
      else splitFrom (c :: current) rest := by
  cases current <;> rfl

theorem splitFrom_nil {current : Token} (h : current ≠ []) : splitFrom current [] = [current.reverse] := by
  cases current with
  | nil => exact absurd rfl h
  | cons => rfl

theorem splitFrom_blank {gap : List Char} (h : Blank gap) (rest : List Char) :
    splitFrom [] (gap ++ rest) = splitFrom [] rest := by
  induction gap with
  | nil => rfl
  | cons c gap ih =>
    obtain ⟨hc, hgap⟩ := Bool.and_eq_true_iff.mp h
    rw [List.cons_append, splitFrom_cons, if_pos hc]
    exact ih hgap

theorem splitFrom_append {t : Token} (h : ∀ c ∈ t, isBlank c = false) (current : Token) (rest : List Char) :
    splitFrom current (t ++ rest) = splitFrom (t.reverse ++ current) rest := by
  induction t generalizing current with
  | nil => rfl
  | cons c t ih =>
    have hc : ¬ isBlank c = true := by simp [h c List.mem_cons_self]
    rw [List.cons_append, splitFrom_cons, if_neg hc, ih fun d hd => h d (List.mem_cons_of_mem _ hd)]
    simp

/-- Splitting a line finds its tokens. -/
theorem split_of_holds {tokens : List Token} {line : List Char} (h : Holds tokens line)
    (unbroken : ∀ t ∈ tokens, isUnbroken t = true) : split line = tokens := by
  induction h with
  | none hgap =>
    have := splitFrom_blank hgap []
    rwa [List.append_nil] at this
  | @last gap t hgap =>
    obtain ⟨hne, hblank⟩ := isUnbroken_iff.mp (unbroken t List.mem_cons_self)
    have hend := splitFrom_append hblank [] []
    rw [List.append_nil, List.append_nil] at hend
    rw [split, splitFrom_blank hgap, hend, splitFrom_nil (by simpa using hne), List.reverse_reverse]
  | @more gap t sep rest line hgap hsep _ ih =>
    obtain ⟨hne, hblank⟩ := isUnbroken_iff.mp (unbroken t List.mem_cons_self)
    have hfull : (t.reverse ++ []).isEmpty = false := by simp [hne]
    rw [split, List.append_assoc, splitFrom_blank hgap, splitFrom_append hblank, splitFrom_cons, if_pos hsep, hfull,
      ← split, ih fun s hs => unbroken s (List.mem_cons_of_mem _ hs)]
    simp

/-- Any tokens can be written in one line. -/
theorem exists_holds : ∀ tokens : List Token, ∃ line, Holds tokens line
  | [] => ⟨[], .none rfl⟩
  | t :: rest => by
    obtain ⟨line, h⟩ := exists_holds rest
    exact ⟨[] ++ t ++ ' ' :: line, .more rfl rfl h⟩

/-! ## Values -/

variable {α β : Type}

/-- The value of a token in a slot, with what is said if there is none. -/
def Slot.value (slot : Slot α) (t : Token) : Except Error α :=
  match slot.read t with
  | .error .missing => .error (.missingValue slot.label)
  | .error (.invalid reason) => .error (.invalidValue t slot.label reason)
  | .ok v => .ok v

/-- The values of tokens in their slots, as far as there are slots. -/
def values : List (Slot α) → List Token → Except Error (List α)
  | slot :: slots, t :: rest => (slot.value t).bind fun v => (values slots rest).map (v :: ·)
  | _, _ => .ok []

theorem values_nil (slots : List (Slot α)) : values slots [] = .ok [] := by
  cases slots <;> rfl

/-- A token that its slot does not read leaves no values. -/
theorem values_error {slot : Slot α} {t : Token} {e : ValueError} (h : slot.read t = .error e) :
    ∀ {slots : List (Slot α)} {tokens : List Token} {k : Nat}, slots[k]? = some slot → tokens[k]? = some t →
      ∃ e, values slots tokens = .error e
  | [], _, _, hslot, _ => by simp at hslot
  | _ :: _, [], _, _, ht => by simp at ht
  | slot' :: slots, t' :: tokens, 0, hslot, ht => by
    simp only [List.getElem?_cons_zero, Option.some.injEq] at hslot ht
    subst hslot ht
    cases e with
    | missing => exact ⟨_, by rw [values, Slot.value, h]; rfl⟩
    | invalid reason => exact ⟨_, by rw [values, Slot.value, h]; rfl⟩
  | slot' :: slots, t' :: tokens, k + 1, hslot, ht => by
    rw [values]
    cases hv : slot'.value t' with
    | error e => exact ⟨e, rfl⟩
    | ok v =>
      obtain ⟨e, hrest⟩ := values_error h (k := k) hslot ht
      exact ⟨e, by rw [hrest]; rfl⟩

/-! ## Reading -/

/-- A token that does not begin with a hyphen. -/
def Plain (t : Token) : Prop := t.head? ≠ some '-'

theorem isBlank_of_isOrdinary {c : Char} (h : Numeral.isOrdinary c = true) : isBlank c = false := by
  rw [Numeral.isOrdinary_iff] at h
  simp only [isBlank, Bool.or_eq_false_iff, Bool.and_eq_false_iff, decide_eq_false_iff_not, beq_eq_false_iff_ne]
  omega

/-- A token of the characters that numerals have is a plain value. -/
theorem plain_of_ordinary {t : Token} (hne : t ≠ []) (h : t.all Numeral.isOrdinary = true) :
    isUnbroken t = true ∧ Plain t := by
  rw [List.all_eq_true] at h
  refine ⟨isUnbroken_iff.mpr ⟨hne, fun c hc => isBlank_of_isOrdinary (h c hc)⟩, fun hhead => ?_⟩
  cases h '-' (List.mem_of_mem_head? hhead)

namespace Found

/-- More arguments are found. -/
def add (f : Found α) (vs : List α) : Found α := { f with arguments := f.arguments ++ vs }

theorem add_nil (f : Found α) : f.add [] = f := by
  rw [add, List.append_nil]

theorem add_add (f : Found α) (vs ws : List α) : (f.add vs).add ws = f.add (vs ++ ws) := by
  simp only [add, List.append_assoc]

end Found

namespace Progress

/-- Checking what is pending moves to no other slot. -/
theorem settle_keeps {p p' : Progress α} (h : p.settle = .ok p') (hwants : p.wantsValue = false) :
    p'.filled = p.filled ∧ p'.literal = p.literal ∧ p'.wantsValue = false := by
  unfold settle at h
  split at h
  · cases h
    exact ⟨rfl, rfl, hwants⟩
  · unfold check at h
    simp only at h
    split at h
    · cases h
    · split at h
      · cases h
      · split at h
        · cases h
        · cases h
        · cases h
          exact ⟨rfl, rfl, rfl⟩

/-- A token for a slot, to be checked later. -/
def put (p : Progress α) (slot : Slot α) (t : Token) : Progress α :=
  { p with filled := p.filled + 1, pending := some ⟨slot, false, some t⟩ }

/-- Its value is found when it is checked. -/
theorem settle_put (p : Progress α) (slot : Slot α) (t : Token) :
    (p.put slot t).settle = (slot.value t).map fun v =>
      { p.put slot t with pending := none, wantsValue := false, found := p.found.add [v] } := by
  simp only [settle, put, check, Slot.value, Bool.false_and, Bool.false_eq_true, if_false]
  cases slot.read t with
  | error e => cases e <;> rfl
  | ok v => rfl

end Progress

namespace Command

variable {c : Command α β}

theorem take_of_plain {p : Progress α} {t : Token} (hp : p.literal = false) (ht : Plain t) :
    c.take p t = c.takeValue p t := by
  unfold take
  rw [hp]
  cases t with
  | nil => rfl
  | cons d rest =>
    have hd : d ≠ '-' := fun e => ht (congrArg some e)
    simp [hd]

/-- A plain token goes into the next slot. -/
theorem take_slot {p : Progress α} {t : Token} {slot : Slot α} (ht : Plain t) (hliteral : p.literal = false)
    (hwants : p.wantsValue = false) (hslot : c.slots[p.filled]? = some slot) :
    c.take p t = p.settle.map fun p => p.put slot t := by
  rw [take_of_plain hliteral ht, takeValue, hwants, hslot]
  rfl

/-- What was found is complete, or something is missing. -/
def finish (c : Command α β) (f : Found α) : Except Error (Command α β × Found α) :=
  match c.missing? f with
  | some e => .error e
  | none => .ok (c, f)

/-- From any progress without switches, plain tokens are read into the next slots. -/
theorem readFrom_values (leaf : c.subcommands = []) {tokens : List Token} (plain : ∀ t ∈ tokens, Plain t)
    {p : Progress α} (hliteral : p.literal = false) (hwants : p.wantsValue = false)
    (hroom : p.filled + tokens.length ≤ c.slots.length) :
    c.readFrom p tokens = p.settle.bind fun p' => (values (c.slots.drop p.filled) tokens).bind fun vs =>
      c.finish (p'.found.add vs) := by
  -- a token is pending until the next one begins, so the progress differs from step to step
  induction tokens generalizing p with
  | nil =>
    rw [readFrom, values_nil]
    cases p.settle with
    | error e => rfl
    | ok p' =>
      simp only [Except.bind, Found.add_nil]
      rfl
  | cons t rest ih =>
    rw [List.length_cons] at hroom
    obtain ⟨slot, hslot⟩ : ∃ slot, c.slots[p.filled]? = some slot :=
      ⟨_, List.getElem?_eq_getElem (by omega)⟩
    have hslots : c.slots.drop p.filled = slot :: c.slots.drop (p.filled + 1) := by
      obtain ⟨hfree, rfl⟩ := List.getElem?_eq_some_iff.mp hslot
      exact List.drop_eq_getElem_cons hfree
    have hnames : c.names t = false := by simp [names, sub?, leaf]
    have htake := take_slot (plain t List.mem_cons_self) hliteral hwants hslot
    rw [readFrom, hnames, htake, hslots, values]
    simp only [Bool.and_false, Bool.false_eq_true, if_false]
    cases hp : p.settle with
    | error e => rfl
    | ok p' =>
      obtain ⟨hfilled, hliteral', hwants'⟩ := Progress.settle_keeps hp hwants
      have hrest := ih (fun s hs => plain s (List.mem_cons_of_mem _ hs))
        (p := p'.put slot t) (hliteral'.trans hliteral) hwants' (by simp only [Progress.put, hfilled]; omega)
      have hfilled' : (p'.put slot t).filled = p.filled + 1 := congrArg (· + 1) hfilled
      rw [Progress.settle_put, hfilled'] at hrest
      simp only [Except.map]
      rw [hrest]
      cases slot.value t with
      | error e => rfl
      | ok v =>
        simp only [Except.map, Except.bind]
        cases values (c.slots.drop (p.filled + 1)) rest with
        | error e => rfl
        | ok vs => simp only [Found.add_add, List.singleton_append]

/-- The command that the names lead to, each below the one before. -/
def follow? (c : Command α β) : List Token → Option (Command α β)
  | [] => some c
  | t :: rest => (c.sub? t).bind fun s => s.follow? rest

theorem readFrom_sub {s : Command α β} {t : Token} (h : c.sub? t = some s) (rest : List Token) :
    c.readFrom .start (t :: rest) = s.readFrom .start rest := by
  have hnames : c.names t = true := by simp [names, h]
  rw [readFrom, hnames, h]
  simp only [Progress.start, Progress.settle, Bool.not_false, Bool.and_true, if_true]
  cases s.readFrom ⟨0, none, false, false, .empty⟩ rest with
  | error e => rfl
  | ok result => simp [Found.inside, Found.empty]

theorem readFrom_follow : ∀ {path : List Token} {c leaf : Command α β}, c.follow? path = some leaf →
    ∀ tokens, c.readFrom .start (path ++ tokens) = leaf.readFrom .start tokens
  | [], _, _, h, tokens => by
    cases h
    rfl
  | t :: path, c, leaf, h, tokens => by
    obtain ⟨s, hs, hrest⟩ := Option.bind_eq_some_iff.mp h
    rw [List.cons_append, readFrom_sub hs]
    exact readFrom_follow hrest tokens

/-- **Behind the names that lead to it, a command reads the values of its slots.** -/
theorem read_values {leaf : Command α β} {path tokens : List Token} (hpath : c.follow? path = some leaf)
    (hleaf : leaf.subcommands = []) (plain : ∀ t ∈ tokens, Plain t) (hroom : tokens.length ≤ leaf.slots.length) :
    c.read (path ++ tokens) = (values leaf.slots tokens).bind fun vs =>
      if vs.length < leaf.required then .error .missingArguments
      else (leaf.make ⟨vs, [], []⟩).elim (.error .missingArguments) .ok := by
  have hread := readFrom_values hleaf plain (p := .start) rfl rfl (by simpa [Progress.start] using hroom)
  rw [read, readFrom_follow hpath, hread]
  simp only [Progress.start, Progress.settle, Except.bind, List.drop_zero]
  cases values leaf.slots tokens with
  | error e => rfl
  | ok vs =>
    simp only [finish, missing?, hleaf, Found.add, Found.empty, List.nil_append, List.isEmpty_nil]
    by_cases hfew : vs.length < leaf.required
    · simp [hfew]
    · simp only [hfew, Bool.not_true, Bool.false_eq_true, if_false]
      cases leaf.make ⟨vs, [], []⟩ <;> rfl

end Command

end Chip8.Grammar
