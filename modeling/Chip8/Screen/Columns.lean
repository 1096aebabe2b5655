import Chip8.Screen.Cluster
import Chip8.Screen.Columns.Emoji

/-!
# Columns of a cluster

How many columns of a screen a cluster takes (`columns`). Most characters take one column, the wide characters of East
Asian scripts and pictures take two, marks that stand over or under another character none. In some clusters the whole
differs from the sum: in pictures made of several, emoji with a selector, Khmer letters under others, and vowels of
Kirat Rai written in parts. A cluster is read from its end, so that what is behind a character is known
(`Following.measure`).
-/

namespace Chip8.Screen

/-! ## Characters -/

/-- Wide characters that are no pictures. -/
def wideRanges : Ranges := [
  (0x1100, 0x115F), (0x17A4, 0x17A4), (0x2329, 0x232A), (0x2630, 0x2637), (0x268A, 0x268F), (0x2E80, 0x2E99),
  (0x2E9B, 0x2EF3), (0x2F00, 0x2FD5), (0x2FF0, 0x3029), (0x3030, 0x303E), (0x3041, 0x3096), (0x309B, 0x30FF),
  (0x3105, 0x312F), (0x3131, 0x3163), (0x3165, 0x318E), (0x3190, 0x31E5), (0x31EF, 0x321E), (0x3220, 0x3247),
  (0x3250, 0xA48C), (0xA490, 0xA4C6), (0xA960, 0xA97C), (0xAC00, 0xD7A3), (0xF900, 0xFAFF), (0xFE10, 0xFE19),
  (0xFE30, 0xFE52), (0xFE54, 0xFE66), (0xFE68, 0xFE6B), (0xFF01, 0xFF60), (0xFFE0, 0xFFE6), (0x16FE0, 0x16FE3),
  (0x16FF2, 0x16FF6), (0x17000, 0x18D20), (0x18D80, 0x18DF2), (0x18E00, 0x19191), (0x191A0, 0x191D2),
  (0x1AFF0, 0x1AFF3), (0x1AFF5, 0x1AFFB), (0x1AFFD, 0x1AFFE), (0x1B000, 0x1B128), (0x1B132, 0x1B132),
  (0x1B150, 0x1B152), (0x1B155, 0x1B155), (0x1B164, 0x1B168), (0x1B170, 0x1B2FB), (0x1D300, 0x1D356),
  (0x1D360, 0x1D376), (0x1F1AE, 0x1F1AE), (0x1F200, 0x1F200), (0x1F202, 0x1F202), (0x1F210, 0x1F219),
  (0x1F21B, 0x1F22E), (0x1F230, 0x1F231), (0x1F237, 0x1F237), (0x1F23B, 0x1F23B), (0x1F240, 0x1F248),
  (0x1F260, 0x1F265), (0x1F7DA, 0x1F7DA), (0x20000, 0x2FFFD), (0x30000, 0x3FFFD)]

/-- Formats and other characters that take no column, marks and parts of Hangul syllables left out. -/
def hiddenRanges : Ranges := [
  (0xAD, 0xAD), (0x5C8, 0x5C9), (0x605, 0x605), (0x61C, 0x61C), (0x70F, 0x70F), (0x890, 0x891), (0x8E2, 0x8E2),
  (0xB53, 0xB54), (0xD4E, 0xD4E), (0x180E, 0x180E), (0x1ADE, 0x1ADF), (0x1AEC, 0x1AF0), (0x200B, 0x200B),
  (0x200E, 0x200F), (0x202A, 0x202E), (0x2060, 0x206F), (0x3164, 0x3164), (0xA8FA, 0xA8FA), (0xFEFF, 0xFEFF),
  (0xFFA0, 0xFFA0), (0xFFF0, 0xFFF8), (0x10ECB, 0x10ECF), (0x10EF0, 0x10EF9), (0x111C2, 0x111C3),
  (0x113D1, 0x113D1), (0x1193F, 0x1193F), (0x11941, 0x11941), (0x11A84, 0x11A89), (0x11D46, 0x11D46),
  (0x11DF0, 0x11DFF), (0x11F02, 0x11F02), (0x1BCA0, 0x1BCA3), (0x1D127, 0x1D128), (0x1D173, 0x1D17A),
  (0x1D250, 0x1D259), (0x1D25B, 0x1D25C), (0x1D25F, 0x1D25F), (0xE0000, 0xE001F), (0xE0080, 0xE00FF),
  (0xE01F0, 0xE0FFF)]

/-- Whether a character is never shown. -/
def isControl (c : Char) : Bool := c.toNat < 0x20 || (0x7F ≤ c.toNat && c.toNat < 0xA0)

/-- The sound marks of halfwidth Katakana. -/
def isSoundMark (c : Char) : Bool := c.toNat == 0xFF9E || c.toNat == 0xFF9F

/-- Whether a character takes no column. -/
def isZeroWidth (c : Char) : Bool :=
  let n := c.toNat
  match breakClass c with
  | .extend => !(isSkinModifier c || isSoundMark c || n == 0x2D7F)
  | .joiner => true
  | .vowel | .trailing => !(0x16D63 ≤ n && n ≤ 0x16D6A)
  | _ => hiddenRanges.contains n

/-- The columns of a character that stands alone. -/
def charColumns (c : Char) : Nat :=
  if c.toNat == 0x17D8 then 3
  else if isZeroWidth c then 0
  else if isSkinModifier c || isPicture c || wideRanges.contains c.toNat then 2
  else 1

/-! ## What is behind a character -/

/-- What is behind a character, as far as it bears on the columns of that character. -/
inductive Following
  | plain
  /-- A selector of text style. -/
  | textStyle
  /-- A selector of picture style. -/
  | pictureStyle
  /-- A selector of the wide form of a quotation mark. -/
  | wideQuote
  | skin
  | picture
  /-- A picture linked by a joiner; `selected` behind a selector of picture style. -/
  | linked (selected : Bool)
  /-- An enclosing keycap and a linked picture. -/
  | keycap (selected : Bool)
  /-- The letters and the digits behind them that spell the name of a flag, and a linked picture. -/
  | flagName (letters digits : Nat)
  /-- The second letter of a flag and a linked picture. -/
  | flag
  /-- A Khmer letter that can stand under another one. -/
  | subscript
  /-- The vowel sign E of Kirat Rai. -/
  | vowelE
  /-- The vowel sign AI of Kirat Rai. -/
  | vowelAI
  deriving DecidableEq, Repr

namespace Following

/-- What a character that stands alone is to the one before it. -/
def ofChar (c : Char) : Following :=
  let n := c.toNat
  if n == 0xFE0E then textStyle
  else if n == 0xFE0F then pictureStyle
  else if n == 0xFE01 then wideQuote
  else if isSkinModifier c then skin
  else if isPicture c then picture
  else if Ranges.contains [(0x1780, 0x1782), (0x1784, 0x1787), (0x1789, 0x178C), (0x178E, 0x1793), (0x1795, 0x1798),
    (0x179B, 0x179D), (0x17A0, 0x17A0), (0x17A2, 0x17A2), (0x17A7, 0x17A7), (0x17AB, 0x17AC), (0x17AF, 0x17AF)] n
    then subscript
  else if n == 0x16D67 then vowelE
  else if n == 0x16D68 then vowelAI
  else plain

/-- Marks that a Khmer letter under another one passes over. -/
def passesOver (n : Nat) : Bool :=
  Ranges.contains [(0x34F, 0x34F), (0x17B4, 0x17B5), (0x180B, 0x180D), (0x180F, 0x180F), (0x200D, 0x200D),
    (0xFE00, 0xFE0F), (0xE0100, 0xE01EF)] n

/-- Whether the name of a flag is complete: three digits and at most four letters, or three to six letters. -/
def isName (letters digits : Nat) : Bool := digits == 3 || digits == 0 && 3 ≤ letters && letters ≤ 6

/-- Behind a selector of picture style. -/
def select : Following → Following
  | linked _ => linked true
  | keycap _ => keycap true
  | subscript => subscript
  | _ => pictureStyle

/-- The columns of an emoji in front, if a selector of picture style is behind it. -/
def selected? : Following → Option Nat
  | pictureStyle => some 2
  | linked true | keycap true => some 0
  | _ => none

/-- The columns of a character in front of a linked picture, and what it is to the one before it. -/
def beforeLinked (c : Char) : Int × Following :=
  let n := c.toNat
  if n == 0x20E3 then (0, keycap false)
  else if 0x1F1E6 ≤ n && n ≤ 0x1F1FF then (1, flag)
  else if isSkinModifier c then (0, skin)
  else if n == 0xE007F then (0, flagName 0 0)
  else if isPicture c then (0, picture)
  else (charColumns c, ofChar c)

/-- The columns of a character in front of the letters and digits of the name of a flag. -/
def beforeName (letters digits : Nat) (c : Char) : Int × Following :=
  let n := c.toNat
  if 0xE0061 ≤ n && n ≤ 0xE007A && digits == 0 && letters < 6 then (0, flagName (letters + 1) 0)
  else if 0xE0030 ≤ n && n ≤ 0xE0039 && digits < 3 && (0 < digits || letters ≤ 4) then
    (0, flagName letters (digits + 1))
  else if n == 0x1F3F4 && isName letters digits then (0, picture)
  else (charColumns c, ofChar c)

/-- The columns of a character in front of something that no selector of picture style belongs to. -/
def measureUnselected (f : Following) (c : Char) : Int × Following :=
  let n := c.toNat
  let alone : Int × Following := (charColumns c, ofChar c)
  if n ≤ 0xA0 then (1, plain)
  else if n == 0xFE0F then (0, f.select)
  else if n == 0xFE0E then (0, if f = subscript then subscript else textStyle)
  else
    match f with
    | textStyle => if takesTextStyle c then (1, plain) else alone
    | wideQuote => if n == 0x2018 || n == 0x2019 || n == 0x201C || n == 0x201D then (2, plain) else alone
    | subscript =>
      if passesOver n then (0, subscript) else if n == 0x17D2 then (-1, plain) else alone
    | vowelE =>
      if n == 0x16D63 || n == 0x16D69 then (0, plain)
      else if n == 0x16D67 then (0, vowelAI)
      else if n == 0x16D68 then (1, vowelE)
      else alone
    | vowelAI => if n == 0x16D63 then (0, plain) else alone
    | skin => if isModifiable c then (0, picture) else if n == 0x200D then (0, linked false) else alone
    | picture => if n == 0x200D then (0, linked false) else alone
    | linked _ => beforeLinked c
    | flagName letters digits => beforeName letters digits c
    | flag => if 0x1F1E6 ≤ n && n ≤ 0x1F1FF then (-1, plain) else alone
    | _ => alone

/-- The columns of a character, and what it is to the one before it. -/
def measure (f : Following) (c : Char) : Int × Following :=
  match f.selected? with
  | some width => if takesPictureStyle c then (width, picture) else measureUnselected plain c
  | none => f.measureUnselected c

end Following

/-! ## Clusters -/

/-- The columns of the end of a cluster, and what it is to the character before it. -/
def measureEnd : List Char → Int × Following
  | [] => (0, .plain)
  | c :: rest =>
    let (width, f) := measureEnd rest
    let (more, f) := f.measure c
    (width + more, f)

/-- The columns of a cluster. A terminal gives each sound mark a column of its own, so one more is counted for it. -/
def columns (cluster : List Char) : Nat := (measureEnd cluster).1.toNat + cluster.countP isSoundMark

end Chip8.Screen
