import Chip8.Word

/-!
# The keypad

Sixteen keys, bit `k` of the mask set while key `k` is held. The host replaces the whole mask at once. A program that
waits for a key looks at the keypad again and again (`Keypad.look`): a cancelled wait ends without a key, and a held key
ends it with the lowest one.
-/

namespace Chip8

structure Keypad where
  mask : UInt16
  deriving DecidableEq, Repr

namespace Keypad

def released : Keypad := ⟨0⟩

def isHeld (p : Keypad) (key : UInt8) : Bool := decide (key < 16) && p.mask.toNat.testBit key.toNat

/-- The held key of the lowest number. -/
def lowest? (p : Keypad) : Option Nibble := (List.finRange 16).find? fun k => p.mask.toNat.testBit k.val

/-- What stands for the lowest held key while none is held. -/
def noKey : UInt8 := 0xFF

/-- The lowest held key as a byte. -/
def lowest (p : Keypad) : UInt8 :=
  match p.lowest? with
  | some k => UInt8.ofNat k.val
  | none => noKey

/-! ## Keys held one by one -/

/-- The number with the given bits, the lowest first. -/
def ofBits : List Bool → Nat
  | [] => 0
  | b :: rest => b.toNat + 2 * ofBits rest

theorem testBit_ofBits (bits : List Bool) (k : Nat) : (ofBits bits).testBit k = bits.getD k false := by
  induction bits generalizing k with
  | nil => simp [ofBits]
  | cons b rest ih =>
    cases k with
    | zero => cases b <;> simp [ofBits, Nat.testBit_zero, Nat.add_mod]
    | succ k =>
      have hb := b.toNat_lt
      have h : (b.toNat + 2 * ofBits rest) / 2 = ofBits rest := by omega
      simp [ofBits, Nat.testBit_succ, h, ih]

theorem ofBits_lt (bits : List Bool) : ofBits bits < 1 <<< bits.length := by
  induction bits with
  | nil => simp [ofBits]
  | cons b rest ih =>
    have h := b.toNat_lt
    simp only [ofBits, List.length_cons, Nat.shiftLeft_succ]
    omega

/-- The keypad on which exactly the given keys are held. -/
def ofHeld (held : Vector Bool 16) : Keypad := ⟨UInt16.ofNat (ofBits held.toList)⟩

theorem testBit_ofHeld (held : Vector Bool 16) (k : Nat) :
    (ofHeld held).mask.toNat.testBit k = held.toList.getD k false := by
  have h := ofBits_lt held.toList
  rw [Vector.length_toList] at h
  rw [ofHeld, UInt16.toNat_ofNat_of_lt' h, testBit_ofBits]

/-! ## Waiting for a key -/

/-- How a wait for a key ended. -/
inductive Wait
  | pressed (key : Nibble)
  | cancelled
  deriving DecidableEq, Repr

/-- One look of a waiting program: a cancelled wait is over whatever is held. -/
def look (cancel : Bool) (p : Keypad) : Option Wait :=
  if cancel then some .cancelled else p.lowest?.map .pressed

/-- The first of several looks that ends the wait. -/
def await (looks : List (Bool × Keypad)) : Option Wait := looks.findSome? fun (cancel, p) => p.look cancel

end Keypad

end Chip8
