import Chip8.Numeral

/-!
# Reading decimal fractions

A decimal fraction has digits, a point among them if there is one, and after `e` an exponent; the words for infinity and
for what is no number are read in either case. The result is the nearest binary64 number (`Numeral.readFloat`). It is
kept by its bits, because what is no number has a sign too, which `Float` does not tell.
-/

namespace Chip8.Numeral

/-- Why a text is no decimal fraction. -/
inductive FloatError
  | empty
  | invalid
  deriving DecidableEq, Repr

def FloatError.message : FloatError → String
  | .empty => "cannot parse float from empty string"
  | .invalid => "invalid float literal"

/-- A binary64 number by its bits. -/
structure Binary64 where
  bits : UInt64
  deriving DecidableEq, Repr

namespace Binary64

def ofFloat (x : Float) : Binary64 := ⟨x.toBits⟩

def toFloat (x : Binary64) : Float := .ofBits x.bits

/-- The bit that is set in negative numbers. -/
def signBit : UInt64 := 0x8000000000000000

/-- The number with the other sign. -/
def negate (x : Binary64) : Binary64 := ⟨x.bits ^^^ signBit⟩

def infinity : Binary64 := ⟨0x7FF0000000000000⟩

def notANumber : Binary64 := ⟨0x7FF8000000000000⟩

end Binary64

/-- The value of decimal digits. -/
def digitsValue (digits : List Char) : Nat := digits.foldl (fun n c => 10 * n + (c.toNat - '0'.toNat)) 0

/-- A sign and what comes after it. -/
def readSign : List Char → Bool × List Char
  | '-' :: rest => (true, rest)
  | '+' :: rest => (false, rest)
  | rest => (false, rest)

/-- The exponent behind the digits; none if it is malformed. -/
def readExponent? : List Char → Option Int
  | [] => some 0
  | e :: rest =>
    if e = 'e' ∨ e = 'E' then
      let (negative, digits) := readSign rest
      if digits.isEmpty || !digits.all Char.isDigit then none
      else
        let n : Int := digitsValue digits
        some (if negative then -n else n)
    else none

/-- The binary64 number nearest to `mantissa * 10 ^ exponent`, where the mantissa has at most `digits` digits. -/
def nearestFloat (mantissa digits : Nat) (exponent : Int) : Float :=
  if mantissa = 0 then 0.0
  else if 400 < exponent + digits then 1.0 / 0.0
  else if exponent + digits < -400 then 0.0
  else Float.ofScientific mantissa (decide (exponent < 0)) exponent.natAbs

/-- Reads digits with at most one point, and an exponent. -/
def readFraction? (cs : List Char) : Option Float :=
  let whole := cs.takeWhile Char.isDigit
  let rest := cs.dropWhile Char.isDigit
  let (fraction, rest) :=
    match rest with
    | '.' :: rest => (rest.takeWhile Char.isDigit, rest.dropWhile Char.isDigit)
    | rest => ([], rest)
  let digits := whole ++ fraction
  if digits.isEmpty then none
  else (readExponent? rest).map fun e =>
    let significant := digits.dropWhile (· == '0')
    nearestFloat (digitsValue significant) significant.length (e - fraction.length)

/-- Reads a whole text. -/
def readFloat (cs : List Char) : Except FloatError Binary64 :=
  if cs.isEmpty then .error .empty
  else
    let (negative, rest) := readSign cs
    let magnitude? : Option Binary64 :=
      match String.ofList (rest.map Char.toLower) with
      | "inf" | "infinity" => some .infinity
      | "nan" => some .notANumber
      | _ => (readFraction? rest).map .ofFloat
    match magnitude? with
    | some x => .ok (if negative then x.negate else x)
    | none => .error .invalid

end Chip8.Numeral
