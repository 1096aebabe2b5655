/-!
# Numerals

Writing numbers in a base with leading zeros (`Numeral.write`), and reading them back digit by digit under an upper
limit (`Numeral.read`). A reader stops at the first fault: a character that is no digit, or a digit that takes the value
past the limit. One plus sign may come first. `Numeral.readPrefixed` takes `0x` or `0X` as the mark of base sixteen.
-/

namespace Chip8.Numeral

/-! ## Writing -/

/-- The digits of `n` in `base`, capital letters above nine, filled with zeros on the left to `width` characters. -/
def chars (base width n : Nat) : List Char :=
  let digits := (Nat.toDigits base n).map Char.toUpper
  List.replicate (width - digits.length) '0' ++ digits

/-- `chars` as text. -/
def write (base width n : Nat) : String := String.ofList (chars base width n)

/-- Base sixteen in capitals. -/
def hex (width n : Nat) : String := write 16 width n

/-- Base ten. -/
def decimal (width n : Nat) : String := write 10 width n

/-- Base two. -/
def binary (width n : Nat) : String := write 2 width n

/-! ## Reading -/

/-- Why a text is no numeral. -/
inductive ReadError
  | empty
  | invalidDigit
  | tooLarge
  deriving DecidableEq, Repr

/-- The wording of a read error. -/
def ReadError.message : ReadError → String
  | .empty => "cannot parse integer from empty string"
  | .invalidDigit => "invalid digit found in string"
  | .tooLarge => "number too large to fit in target type"

/-- The value of a digit in a base up to sixteen, letters in either case. -/
def digitValue? (base : Nat) (c : Char) : Option Nat :=
  let value? :=
    if '0' ≤ c ∧ c ≤ '9' then some (c.toNat - '0'.toNat)
    else if 'a' ≤ c ∧ c ≤ 'f' then some (c.toNat - 'a'.toNat + 10)
    else if 'A' ≤ c ∧ c ≤ 'F' then some (c.toNat - 'A'.toNat + 10)
    else none
  value?.filter (· < base)

/-- Reads digits after a part worth `value`. -/
def readDigits (base limit : Nat) : Nat → List Char → Except ReadError Nat
  | value, [] => .ok value
  | value, c :: rest =>
    match digitValue? base c with
    | none => .error .invalidDigit
    | some d =>
      if limit < value * base + d then .error .tooLarge
      else readDigits base limit (value * base + d) rest

/-- Reads a whole text as a number up to `limit`: digits, after at most one plus sign. -/
def read (base limit : Nat) : List Char → Except ReadError Nat
  | [] => .error .empty
  | ['+'] => .error .invalidDigit
  | '+' :: digits => readDigits base limit 0 digits
  | digits => readDigits base limit 0 digits

/-- Reads base sixteen after `0x` or `0X`, base ten otherwise. -/
def readPrefixed (limit : Nat) : List Char → Except ReadError Nat
  | '0' :: 'x' :: digits => read 16 limit digits
  | '0' :: 'X' :: digits => read 16 limit digits
  | digits => read 10 limit digits

end Chip8.Numeral
