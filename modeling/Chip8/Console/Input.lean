import Chip8.Console

/-!
# Key events from a terminal

A terminal sends a key as a character or as a sequence of characters that begins with `Esc` (`Reading.ofChars`). The
characters come one after the other, and those of an unfinished sequence wait for the next ones (`KeyEvent.read`). What
turns out to be no sequence is forgotten with the character that shows it. An `Esc` with nothing behind it is the key
itself; in front of another key it stands for `Alt`, which has no meaning here. Main statement: text without control
characters is read as the presses of its characters (`KeyEvent.read_text`).
-/

namespace Chip8.Console

/-- What the characters that have come are. -/
inductive Reading
  | unfinished
  | key (e : KeyEvent)
  /-- A report of the terminal, a key without a meaning here, or no sequence. -/
  | nothing
  deriving DecidableEq, Repr

/-! ## Characters -/

/-- The press of a character together with `Ctrl`. -/
def KeyEvent.withControl (c : Char) : KeyEvent := ⟨.character c, true, .press⟩

/-- The event of a character outside a sequence; a control character that is no key stands for a character typed with
`Ctrl`. -/
def KeyEvent.ofChar (c : Char) : KeyEvent :=
  let n := c.toNat
  if c = '\r' then press .enter
  else if c = '\x7f' then press .backspace
  else if c = '\t' then press .other
  else if n = 0 then withControl ' '
  else if n ≤ 26 then withControl (Char.ofNat (n + 96))
  else if 0x1C ≤ n ∧ n ≤ 0x1F then withControl (Char.ofNat (n + 24))
  else press (.character c)

/-! ## Codes of keys -/

/-- A number in a sequence. -/
def number? (limit : Nat) (digits : List Char) : Option Nat := (Numeral.read 10 limit digits).toOption

/-- The character of a code point in a sequence. -/
def character? (digits : List Char) : Option Char :=
  (number? 0xFFFFFFFF digits).bind fun n => if n.isValidChar then some (Char.ofNat n) else none

/-- The keys of the number pad in the order of their codes. -/
def numberPad : List Key := "0123456789./*-+".toList.map .character ++ [.enter, .character '=', .character ',']

/-- The code of the first key of the number pad. -/
def numberPadCode : Nat := 57399

/-- Whether a code belongs to a key without a character: a function key, an arrow, a modifier. -/
def isSilent (code : Nat) : Bool :=
  (57358 ≤ code && code ≤ 57363) || (57376 ≤ code && code ≤ 57398) || (57417 ≤ code && code ≤ 57454)

def Key.ofChar : Char → Key
  | '\x1b' => .escape
  | '\r' => .enter
  | '\t' => .other
  | '\x7f' => .backspace
  | c => .character c

/-- The key of a code: one of the number pad, one without a character, or that of a code point. -/
def Key.ofCode? (code : Nat) : Option Key :=
  if isSilent code then some .other
  else
    match if code < numberPadCode then none else numberPad[code - numberPadCode]? with
    | some k => some k
    | none => if code.isValidChar then some (.ofChar (Char.ofNat code)) else none

/-- The modifiers that have a meaning here. -/
structure Modifiers where
  shift : Bool
  control : Bool
  deriving DecidableEq, Repr

/-- The modifiers of a mask, which is counted from one. -/
def Modifiers.ofMask (mask : Nat) : Modifiers := ⟨(mask - 1).testBit 0, (mask - 1).testBit 2⟩

/-- Modifiers together with a key that may be one itself. -/
def Modifiers.withCode (m : Modifiers) (code : Nat) : Modifiers :=
  ⟨m.shift || code == 57441 || code == 57447, m.control || code == 57442 || code == 57448⟩

def Stroke.ofCode : Nat → Stroke
  | 2 => .held
  | 3 => .release
  | _ => .press

/-- The modifiers and the stroke of a key; without a mask, a press without modifiers. -/
def modifiersAndStroke (fields : List (List Char)) : Modifiers × Stroke :=
  match fields.head?.bind (number? 0xFF) with
  | some mask => (.ofMask mask, .ofCode ((fields[1]?.bind (number? 0xFF)).getD 1))
  | none => (⟨false, false⟩, .press)

/-- The key of a sequence that gives its code, behind it the character that it has with `Shift`, and then modifiers and
stroke. -/
def Reading.ofCodes (parameters : List Char) : Reading :=
  let parts := (parameters.splitOn ';').map (·.splitOn ':')
  let codes := parts.headD []
  let (modifiers, stroke) := modifiersAndStroke (parts[1]?.getD [])
  match codes.head?.bind (number? 0xFFFFFFFF) with
  | none => .nothing
  | some code =>
    let modifiers := modifiers.withCode code
    match Key.ofCode? code, if modifiers.shift then codes[1]?.bind character? else none with
    | none, _ => .nothing
    | some _, some c => .key ⟨.character c, modifiers.control, stroke⟩
    | some k, none => .key ⟨k, modifiers.control, stroke⟩

/-! ## Sequences -/

/-- What ends text that is pasted. -/
def pasteEnd : List Char := "\x1b[201~".toList

/-- Whether a character ends a sequence that begins with a number. -/
def isFinal (c : Char) : Bool := '@' ≤ c && c ≤ '~'

/-- What a sequence that begins with a number is. -/
def Reading.ofParameters (cs : List Char) : Reading :=
  match cs.getLast? with
  | none => .unfinished
  | some last =>
    if cs.length = 1 || !isFinal last then .unfinished
    else if "200~".toList.isPrefixOf cs then if pasteEnd.isSuffixOf cs then .nothing else .unfinished
    else if last = 'u' then .ofCodes cs.dropLast
    else .nothing

/-- What is behind `Esc` and a bracket. -/
def Reading.ofBracket : List Char → Reading
  | [] | ['['] => .unfinished
  | 'M' :: position => if (String.ofList position).utf8ByteSize < 3 then .unfinished else .nothing
  | '<' :: mouse => if mouse.getLast?.any fun c => c = 'm' || c = 'M' then .nothing else .unfinished
  | '?' :: report =>
    if report.getLast? = some 'c' || report.getLast? = some 'u' && 2 ≤ report.length then .nothing else .unfinished
  | c :: rest => if c.isDigit then .ofParameters (c :: rest) else .nothing

/-- What some characters are; `more` tells whether there are others behind them already. -/
def Reading.ofChars (more : Bool) : List Char → Reading
  | [] => .unfinished
  | ['\x1b'] => if more then .unfinished else .key (.press .escape)
  | '\x1b' :: '\x1b' :: _ => .key (.press .escape)
  | '\x1b' :: '[' :: rest => .ofBracket rest
  | ['\x1b', 'O'] => .unfinished
  | '\x1b' :: 'O' :: _ => .nothing
  | '\x1b' :: c :: _ | c :: _ => .key (.ofChar c)

/-- The key events of characters behind those of an unfinished sequence, and the characters of the last sequence if it
is unfinished. -/
def KeyEvent.read (pending : List Char) : List Char → List KeyEvent × List Char
  | [] => ([], pending)
  | c :: rest =>
    let soFar := pending ++ [c]
    match Reading.ofChars (!rest.isEmpty) soFar with
    | .unfinished => read soFar rest
    | .nothing => read [] rest
    | .key e =>
      let (events, left) := read [] rest
      (e :: events, left)

/-- Whether a character is no control character. -/
def isText (c : Char) : Bool := 0x20 ≤ c.toNat && c.toNat != 0x7F

theorem KeyEvent.ofChar_of_isText {c : Char} (h : isText c = true) : ofChar c = press (.character c) := by
  simp only [isText, Bool.and_eq_true, decide_eq_true_eq, bne_iff_ne] at h
  have hr : c ≠ '\r' := by rintro rfl; exact absurd h.1 (by decide)
  have hd : c ≠ '\x7f' := by rintro rfl; exact h.2 rfl
  have ht : c ≠ '\t' := by rintro rfl; exact absurd h.1 (by decide)
  simp only [ofChar, hr, hd, ht, if_false]
  rw [if_neg (by omega), if_neg (by omega), if_neg (by omega)]

theorem Reading.ofChars_of_isText {more : Bool} {c : Char} (h : isText c = true) :
    ofChars more [c] = .key (.press (.character c)) := by
  have he : c ≠ '\x1b' := by rintro rfl; exact absurd h (by decide)
  rw [ofChars, KeyEvent.ofChar_of_isText h]
  all_goals simp_all

theorem KeyEvent.read_text {cs : List Char} (h : ∀ c ∈ cs, isText c = true) :
    read [] cs = (cs.map fun c => press (.character c), []) := by
  induction cs with
  | nil => rfl
  | cons c rest ih =>
    rw [read, List.nil_append, Reading.ofChars_of_isText (h c List.mem_cons_self)]
    simp [ih fun c hc => h c (List.mem_cons_of_mem _ hc)]

end Chip8.Console
