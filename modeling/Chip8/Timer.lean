/-!
# Timers

A timer holds a byte and loses one at each tick until it is zero. The tick that takes it from one to zero makes a call
due; the call starts afterwards, when the timer may already have been read or set again (`Timer.ring`).
-/

namespace Chip8

structure Timer where
  value : UInt8
  /-- Expiries whose call has not started. -/
  due : Nat
  /-- Calls started. -/
  rung : Nat
  deriving DecidableEq, Repr

namespace Timer

def zero : Timer := ⟨0, 0, 0⟩

/-- Replaces the value. -/
def set (t : Timer) (value : UInt8) : Timer := { t with value := value }

/-- One period of decay. -/
def decay (t : Timer) : Timer :=
  if t.value = 0 then t
  else { t with value := t.value - 1, due := if t.value = 1 then t.due + 1 else t.due }

/-- Starts a call that is due. -/
def ring (t : Timer) : Timer :=
  if t.due = 0 then t else { t with due := t.due - 1, rung := t.rung + 1 }

/-- One period of decay and the call it makes due. -/
def tick (t : Timer) : Timer := t.decay.ring

/-- Several ticks; those after the value has reached zero change nothing. -/
def ticks (n : Nat) (t : Timer) : Timer := Nat.repeat tick (min n t.value.toNat) t

/-- The timer once it has run down. -/
def settle (t : Timer) : Timer := t.ticks t.value.toNat

end Timer

end Chip8
