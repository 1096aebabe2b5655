/-!
# Visible text

What is left of a text when its control sequences and control characters are taken out (`visible`). A control sequence
begins with `Escape`; its end depends on the character after that. White space stays, and it breaks off a sequence that
is no string. Main statement: a text of letters, digits, blanks and other visible characters is left as it is
(`visible_eq_self`).
-/

namespace Chip8.Grammar

/-- Where in a control sequence a text is. -/
inductive Region
  /-- Outside of all sequences. -/
  | ground
  /-- Behind `Escape`. -/
  | escape
  /-- Behind `Escape` and a character that announces another one. -/
  | announced
  /-- Behind `Escape [`, up to a letter. -/
  | parameters
  /-- Behind `Escape ]`, up to `Bell`. -/
  | title
  /-- Behind `Escape P`. -/
  | device
  | deviceParameters
  | deviceAnnounced
  /-- In a string that only the byte 9C ends. -/
  | string
  deriving DecidableEq, Repr

namespace Region

/-- Whether a character is in a range of code points. -/
def between (first last : Nat) (c : Char) : Bool := first ≤ c.toNat && c.toNat ≤ last

/-- Whether a control character is white space, which is printed. -/
def isSpace (c : Char) : Bool := c == '\t' || c == '\n' || c == '\x0c' || c == '\r'

/-- Whether white space is passed over. -/
def hidesSpace : Region → Bool
  | title | device | deviceParameters | deviceAnnounced | string => true
  | _ => false

/-- Whether the byte 9C is in the encoding of a character. -/
def hasStringEnd (c : Char) : Bool := (String.utf8EncodeChar c).contains 0x9C

/-- The region after `Escape` and a character. -/
def afterEscape (c : Char) : Region :=
  if between 0x20 0x2F c then announced
  else if c == '[' then parameters
  else if c == ']' then title
  else if c == 'P' then device
  else if c == 'X' || c == '^' || c == '_' then string
  else if between 0x30 0x7E c then ground
  else escape

/-- The region after a character that is not printed. -/
def next (r : Region) (c : Char) : Region :=
  if c == '\x18' || c == '\x1a' then ground
  else if c == '\x1b' then escape
  else
    match r with
    | ground => ground
    | escape => afterEscape c
    | announced => if between 0x30 0x7E c then ground else announced
    | parameters => if between 0x40 0x7E c then ground else parameters
    | title => if c == '\x07' then ground else title
    | device =>
      if between 0x20 0x2F c then deviceAnnounced
      else if between 0x30 0x3F c then deviceParameters
      else if between 0x40 0x7E c then string
      else device
    | deviceParameters =>
      if between 0x20 0x2F c then deviceAnnounced
      else if between 0x3C 0x7E c then string
      else deviceParameters
    | deviceAnnounced => if between 0x30 0x7E c then string else deviceAnnounced
    | string => if hasStringEnd c then ground else string

end Region

/-- Whether a character is visible outside of control sequences. -/
def isVisible (c : Char) : Bool := Region.isSpace c || 0x20 ≤ c.toNat && c.toNat != 0x7F

/-- The visible part of a text that begins in a region. -/
def visibleFrom : Region → List Char → List Char
  | _, [] => []
  | r, c :: rest =>
    if Region.isSpace c && !r.hidesSpace then c :: visibleFrom .ground rest
    else if r == .ground && isVisible c then c :: visibleFrom .ground rest
    else visibleFrom (r.next c) rest

/-- The visible part of a text. -/
def visible (text : List Char) : List Char := visibleFrom .ground text

theorem visible_eq_self {text : List Char} (h : ∀ c ∈ text, isVisible c = true) : visible text = text := by
  unfold visible
  induction text with
  | nil => rfl
  | cons c rest ih =>
    have hc := h c (by simp)
    have hr := ih fun d hd => h d (by simp [hd])
    by_cases hs : Region.isSpace c = true <;> simp [visibleFrom, Region.hidesSpace, hs, hc, hr]

end Chip8.Grammar
