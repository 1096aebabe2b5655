import Chip8.Numeral

/-!
# Durations

A duration is a whole number of nanoseconds. The period of a frequency is the quotient of one and the frequency as a
floating-point number, rounded to the nearest nanosecond, a half going to the even neighbour (`Duration.ofFrequency?`);
a duration has less than 2 ^ 64 seconds.
-/

namespace Chip8

structure Duration where
  nanoseconds : Nat
  deriving DecidableEq, Repr

namespace Duration

def zero : Duration := ⟨0⟩

def nanosecondsPerSecond : Nat := 1000000000

/-- Whole seconds and the nanoseconds after them. -/
def ofParts (seconds nanoseconds : Nat) : Duration := ⟨seconds * nanosecondsPerSecond + nanoseconds⟩

def ofMilliseconds (ms : Nat) : Duration := ⟨ms * 1000000⟩

def seconds (d : Duration) : Nat := d.nanoseconds / nanosecondsPerSecond

def subsecond (d : Duration) : Nat := d.nanoseconds % nanosecondsPerSecond

instance : LE Duration := ⟨fun d e => d.nanoseconds ≤ e.nanoseconds⟩

instance (d e : Duration) : Decidable (d ≤ e) := inferInstanceAs (Decidable (d.nanoseconds ≤ e.nanoseconds))

/-- The moment some periods after another one. -/
def later (moment : Duration) (periods : Nat) (period : Duration) : Duration :=
  ⟨moment.nanoseconds + periods * period.nanoseconds⟩

/-! ## Rounding -/

/-- The whole number nearest to `num / den`, the even one of two. -/
def roundHalfEven (num den : Nat) : Nat :=
  let q := num / den
  let twice := 2 * (num % den)
  if twice < den ∨ twice = den ∧ q % 2 = 0 then q else q + 1

/-- The whole number nearest to `factor * mantissa * 2 ^ exponent`, the even one of two. -/
def roundScaled (factor mantissa : Nat) (exponent : Int) : Nat :=
  if 0 ≤ exponent then (factor * mantissa) <<< exponent.toNat
  else roundHalfEven (factor * mantissa) (1 <<< (-exponent).toNat)

/-- The number of fractions that a binary64 number can have between two powers of two. -/
def fractions : Nat := 0x10000000000000

/-- Mantissa and exponent of a finite binary64 number that is not negative. -/
def decode? (value : Float) : Option (Nat × Int) :=
  let bits : Nat := value.toBits.toNat
  let exponent : Nat := bits / fractions
  let fraction : Nat := bits % fractions
  if exponent = 0 then some (fraction, -1074)
  else if exponent < 2047 then some (fractions + fraction, (exponent : Int) - 1075)
  else none

/-- The duration nearest to a number of seconds; none for a negative number, infinity, NaN and 2 ^ 64 seconds or
more. -/
def ofSeconds? (value : Float) : Option Duration :=
  match decode? value with
  | none => none
  | some (mantissa, exponent) =>
    if exponent ≤ 11 then some ⟨roundScaled nanosecondsPerSecond mantissa exponent⟩ else none

/-- Why a number of seconds has no duration. -/
def rangeMessage : String :=
  "cannot convert float seconds to Duration: value is either too big or NaN"

/-- The period of a frequency: zero if the frequency is not finite and positive, none if the period is too long. -/
def ofFrequency? (hz : Float) : Option Duration :=
  match decode? hz with
  | some (0, _) | none => some zero
  | some _ => ofSeconds? (1.0 / hz)

/-! ## Text -/

/-- A fraction below one with `places` digits, its last zeros and then an empty fraction left out. -/
def fractionText (places numerator : Nat) : String :=
  let digits := ((Numeral.chars 10 places numerator).reverse.dropWhile (· == '0')).reverse
  if digits.isEmpty then "" else "." ++ String.ofList digits

/-- The largest of the units second, millisecond, microsecond and nanosecond that gives a whole part, as few digits as
are exact. -/
def text (d : Duration) : String :=
  let scaled (unit places : Nat) (name : String) : String :=
    Numeral.decimal 1 (d.nanoseconds / unit) ++ fractionText places (d.nanoseconds % unit) ++ name
  if nanosecondsPerSecond ≤ d.nanoseconds then scaled nanosecondsPerSecond 9 "s"
  else if 1000000 ≤ d.nanoseconds then scaled 1000000 6 "ms"
  else if 1000 ≤ d.nanoseconds then scaled 1000 3 "µs"
  else scaled 1 0 "ns"

end Duration

end Chip8
