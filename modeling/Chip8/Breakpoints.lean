/-!
# Breakpoints

A finite set of addresses, kept as a strictly increasing list. Membership after an insertion, an erasure or neither is
`mem_insert` and `mem_erase`.
-/

namespace Chip8

structure Breakpoints where
  addresses : List UInt16
  increasing : addresses.Pairwise (· < ·)
  deriving DecidableEq

namespace Breakpoints

def empty : Breakpoints := ⟨[], .nil⟩

def contains (b : Breakpoints) (a : UInt16) : Bool := b.addresses.contains a

/-! ## Insertion -/

/-- Puts `a` in front of the first larger address, unless it is there. -/
def insertOrdered (a : UInt16) : List UInt16 → List UInt16
  | [] => [a]
  | b :: rest => if a < b then a :: b :: rest else if a = b then b :: rest else b :: insertOrdered a rest

theorem mem_insertOrdered {a c : UInt16} {l : List UInt16} : c ∈ insertOrdered a l ↔ c = a ∨ c ∈ l := by
  induction l with
  | nil => simp [insertOrdered]
  | cons b rest ih =>
    unfold insertOrdered
    split
    · simp
    · split
      · next h => simp [h]
      · simp only [List.mem_cons, ih]
        exact ⟨fun h => by rcases h with h | h | h <;> simp [h], fun h => by rcases h with h | h | h <;> simp [h]⟩

theorem insertOrdered_increasing (a : UInt16) {l : List UInt16} (h : l.Pairwise (· < ·)) :
    (insertOrdered a l).Pairwise (· < ·) := by
  induction l with
  | nil => simp [insertOrdered]
  | cons b rest ih =>
    have hb : ∀ c ∈ rest, b < c := fun c hc => List.rel_of_pairwise_cons h hc
    unfold insertOrdered
    split
    · next hab =>
      refine .cons (fun c hc => ?_) h
      rcases List.mem_cons.mp hc with rfl | hc
      · exact hab
      · exact UInt16.lt_trans hab (hb c hc)
    · split
      · exact h
      · next hab hne =>
        refine .cons (fun c hc => ?_) (ih h.of_cons)
        rcases mem_insertOrdered.mp hc with rfl | hc
        · exact UInt16.lt_of_le_of_ne (UInt16.not_lt.mp hab) (Ne.symm hne)
        · exact hb c hc

def insert (b : Breakpoints) (a : UInt16) : Breakpoints :=
  ⟨insertOrdered a b.addresses, insertOrdered_increasing a b.increasing⟩

def erase (b : Breakpoints) (a : UInt16) : Breakpoints :=
  ⟨b.addresses.filter (· != a), b.increasing.filter _⟩

/-- The addresses as they are collected, put in rising order. -/
def sorted (b : Breakpoints) : List UInt16 := b.addresses.mergeSort fun x y => decide (x ≤ y)

theorem mem_insert {b : Breakpoints} {a c : UInt16} : c ∈ (b.insert a).addresses ↔ c = a ∨ c ∈ b.addresses :=
  mem_insertOrdered

theorem mem_erase {b : Breakpoints} {a c : UInt16} : c ∈ (b.erase a).addresses ↔ c ≠ a ∧ c ∈ b.addresses := by
  simp [erase, and_comm]

end Breakpoints

end Chip8
