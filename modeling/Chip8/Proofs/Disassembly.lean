import Chip8.Proofs.Congruence
import Chip8.Proofs.Listing
import Chip8.Proofs.RunMode

/-!
# The debugger lists what would be executed

Line `k` of a listing that starts at `start` holds the word at `start + 2 * k` and its instruction, as a step at that
address would fetch and decode them (`Machine.Foretells`): the listing reads bytes modulo the size of memory, and so
does fetching. So if steps from `start` on go through memory in a row and change nothing there (`Machine.InARow`), step
`k` performs the instruction on line `k` (`InARow.performs`). Main statement: `Debugger.disasm_foretells`.
-/

namespace Chip8

open Listing (Line)

namespace Memory

theorem eq_read_of_getElem?_readMany {mem : Memory} {a len k : Nat} {b : UInt8}
    (h : (mem.readMany a len)[k]? = some b) :
    b = mem.read (a + k) := by
  rw [readMany, List.getElem?_map] at h
  rcases Nat.lt_or_ge k len with hk | hk
  · rw [List.getElem?_range hk] at h
    exact (Option.some.inj h).symm
  · rw [List.getElem?_eq_none (by simpa using hk)] at h
    cases h

end Memory

namespace Machine

/-! ## Words in memory -/

/-- The word at an address. -/
def wordAt (m : Machine) (a : Nat) : UInt16 := Word.ofBytes (m.memory.read a) (m.memory.read (a + 1))

theorem fetch_eq_wordAt (m : Machine) : m.fetch = m.wordAt m.pc.toNat := by
  have hnext : (m.pc + 1).toNat ≡ m.pc.toNat + 1 [MOD 0x1000] := by
    rw [UInt16.toNat_add]
    exact Nat.mod_mod_of_dvd _ (by decide)
  rw [fetch, wordAt, m.memory.read_congr hnext]

theorem wordAt_congr {m m' : Machine} (same : m'.memory = m.memory) {a b : Nat} (h : a ≡ b [MOD 0x1000]) :
    m'.wordAt a = m.wordAt b := by
  rw [wordAt, wordAt, same, m.memory.read_congr h, m.memory.read_congr (h.add_right 1)]

/-! ## Lines and steps -/

/-- Line `k` holds what a step at its address would fetch and decode. -/
structure Foretells (m : Machine) (start : UInt16) (k : Nat) (l : Line) : Prop where
  address : l.address.toNat = (start.toNat + 2 * k) % 65536
  word : l.word = ({ m with pc := l.address } : Machine).fetch
  instruction : l.instruction = .decode l.word

theorem Foretells.word_eq {m : Machine} {start : UInt16} {k : Nat} {l : Line} (h : Foretells m start k l) :
    l.word = m.wordAt (start.toNat + 2 * k) := by
  have haddress : l.address.toNat ≡ start.toNat + 2 * k [MOD 0x1000] := by
    rw [h.address]
    exact Nat.mod_mod_of_dvd _ (by decide)
  rw [h.word, fetch_eq_wordAt]
  exact wordAt_congr rfl haddress

/-- Machines before the first `n` steps from `start` on, in the memory of `m`: each step is executed, moves on by one
word and leaves memory alone. Between two steps anything may happen that leaves the program counter and memory alone. -/
structure InARow (m : Machine) (start : UInt16) (run : Nat → Machine) (n : Nat) : Prop where
  memory : (run 0).memory = m.memory
  pc : (run 0).pc = start
  executed : ∀ k < n, (run k).step.1 = .executed
  advances : ∀ k < n, (run k).step.2.pc.toNat = ((run k).pc.toNat + 2) % 0x1000
  keeps : ∀ k < n, (run k).step.2.memory = (run k).memory
  next : ∀ k, k + 1 < n → (run (k + 1)).pc = (run k).step.2.pc ∧ (run (k + 1)).memory = (run k).step.2.memory

namespace InARow

variable {m : Machine} {start : UInt16} {run : Nat → Machine} {n : Nat}

/-- Where step `k` is, and in which memory. -/
theorem place (h : InARow m start run n) {k : Nat} (hk : k < n) :
    (run k).memory = m.memory ∧ (run k).pc.toNat ≡ start.toNat + 2 * k [MOD 0x1000] := by
  induction k with
  | zero => exact ⟨h.memory, by rw [h.pc]; rfl⟩
  | succ k ih =>
    obtain ⟨hmemory, hpc⟩ := ih (by omega)
    obtain ⟨hnext, hkept⟩ := h.next k hk
    refine ⟨?_, ?_⟩
    · rw [hkept, h.keeps k (by omega), hmemory]
    · rw [hnext, h.advances k (by omega)]
      exact (Nat.mod_modEq _ _).trans (hpc.add_right 2)

/-- Step `k` performs what the line foretells. -/
theorem performs (h : InARow m start run n) {k : Nat} (hk : k < n) {l : Line} (hl : Foretells m start k l) :
    (run k).pc.toNat ≡ l.address.toNat [MOD 0x1000] ∧
      (run k).step = (run k).advance.perform (run k).pc l.word l.instruction := by
  obtain ⟨hmemory, hpc⟩ := h.place hk
  have hword : (run k).fetch = l.word := by
    rw [fetch_eq_wordAt, hl.word_eq]
    exact wordAt_congr hmemory hpc
  have hexecuted := h.executed k hk
  refine ⟨?_, ?_⟩
  · rw [hl.address]
    exact hpc.trans (Nat.mod_mod_of_dvd _ (by decide)).symm
  · rw [hl.instruction, ← hword]
    rw [step_fst] at hexecuted
    exact (step_of_executed (Prod.ext hexecuted rfl)).trans (Prod.ext hexecuted.symm rfl)

end InARow

end Machine

namespace Debugger

open Machine

theorem foretells_of_lists {m : Machine} {start : UInt16} {len : Nat} {lines : List Line}
    (h : Listing.Lists (m.memory.readMany start.toNat len) start lines) {k : Nat} {l : Line} (hl : lines[k]? = some l) :
    Foretells m start k l := by
  obtain ⟨high, low, hhigh, hlow, haddress, hword, hinstruction⟩ := h.line k l hl
  obtain rfl := Memory.eq_read_of_getElem?_readMany hhigh
  obtain rfl := Memory.eq_read_of_getElem?_readMany hlow
  have hbytes : l.word = m.wordAt (start.toNat + 2 * k) := by
    apply UInt16.toNat_inj.mp
    rw [hword, wordAt, Word.toNat_ofBytes, Nat.mul_comm]
    rfl
  have hplace : start.toNat + 2 * k ≡ l.address.toNat [MOD 0x1000] := by
    rw [haddress]
    exact (Nat.mod_mod_of_dvd _ (by decide)).symm
  refine ⟨haddress, ?_, hinstruction⟩
  rw [hbytes, fetch_eq_wordAt]
  exact wordAt_congr rfl hplace

theorem exists_listing (m : Machine) (start : UInt16) {count : UInt16} (h : count.toNat ≤ 32768) :
    ∃ lines, listing m start count = .ok (.listing lines) ∧ lines.length = count.toNat ∧
      ∀ k l, lines[k]? = some l → Foretells m start k l := by
  have hlists := Listing.lists_linesFrom (m.memory.readMany start.toNat (2 * count.toNat)) start
  refine ⟨_, Listing.debugger_listing_of_fits m start h, ?_, fun k l => foretells_of_lists hlists⟩
  rw [hlists.length, Listing.length_readMany]
  omega

/-- **The debugger lists what would be executed.** For every start, also beyond the end of memory and odd, each line is
the word and the instruction of a step at its address; and if steps from the start on are made in a row, step `k`
performs the instruction on line `k`. -/
theorem disasm_foretells (r : Runner) (start : Option UInt16) {count : UInt16} (h : count.toNat ≤ 32768) :
    ∃ lines, execute r (.disasm start count) = (.ok (.listing lines), r) ∧ lines.length = count.toNat ∧
      (∀ k l, lines[k]? = some l → Foretells r.machine (start.getD r.machine.pc) k l) ∧
      ∀ (run : Nat → Machine) (n : Nat), n ≤ count.toNat → InARow r.machine (start.getD r.machine.pc) run n →
        ∀ k < n, ∃ l, lines[k]? = some l ∧ (run k).pc.toNat ≡ l.address.toNat [MOD 0x1000] ∧
          (run k).step = (run k).advance.perform (run k).pc l.word l.instruction := by
  obtain ⟨lines, hlisted, hlength, hlines⟩ := exists_listing r.machine (start.getD r.machine.pc) h
  refine ⟨lines, by rw [execute, hlisted], hlength, hlines, fun run n hn hrow k hk => ?_⟩
  have hline : lines[k]? = some lines[k] := List.getElem?_eq_getElem (by omega)
  exact ⟨_, hline, hrow.performs hk (hlines k _ hline)⟩

theorem memory_of_setByte {m : Machine} {x : Nibble} {nn : UInt8} (h : Instruction.decode m.fetch = .setByte x nn) :
    m.step.2.memory = m.memory := by
  have ha : m.attempt = (.executed, m.advance.setReg x nn) := by rw [attempt, h]; rfl
  rw [step_of_executed ha]
  rfl

/-- A machine at the last byte of memory, counted beyond its end, with two instructions from there on. -/
def aroundEnd : Machine :=
  { initial Config.standard (.scripted []) with
    memory := Memory.initial.writeMany 0xFFF [0x60, 0x05, 0x61, 0x07]
    pc := 0xFFFF }

/-- Two steps in a row around the end of memory, and the lines that were listed for them. -/
theorem disasm_foretells_aroundEnd :
    (3 : UInt16).toNat ≤ 32768 ∧ InARow aroundEnd 0xFFFF aroundEnd.stepped 2 ∧
      ∃ lines, execute (.ofMachine aroundEnd) (.disasm none 3) = (.ok (.listing lines), .ofMachine aroundEnd) ∧
        lines.length = 3 ∧ ∀ k < 2, ∃ l, lines[k]? = some l ∧ l.address.toNat = (0xFFFF + 2 * k) % 65536 ∧
          (aroundEnd.stepped k).step =
            (aroundEnd.stepped k).advance.perform (aroundEnd.stepped k).pc l.word l.instruction := by
  have hcount : (3 : UInt16).toNat ≤ 32768 := by decide
  have hfirst : Instruction.decode (aroundEnd.stepped 0).fetch = .setByte 0 5 := by decide +kernel
  have hsecond : Instruction.decode (aroundEnd.stepped 1).fetch = .setByte 1 7 := by decide +kernel
  have hkeeps : ∀ k < 2, (aroundEnd.stepped k).step.2.memory = (aroundEnd.stepped k).memory := by
    intro k hk
    obtain rfl | rfl : k = 0 ∨ k = 1 := by omega
    · exact memory_of_setByte hfirst
    · exact memory_of_setByte hsecond
  have hrow : InARow aroundEnd 0xFFFF aroundEnd.stepped 2 :=
    ⟨rfl, rfl, by decide +kernel, by decide +kernel, hkeeps, fun k _ => ⟨rfl, rfl⟩⟩
  obtain ⟨lines, hlisted, hlength, hlines, hsteps⟩ := disasm_foretells (.ofMachine aroundEnd) none hcount
  refine ⟨hcount, hrow, lines, hlisted, hlength, fun k hk => ?_⟩
  obtain ⟨l, hl, -, hperforms⟩ := hsteps aroundEnd.stepped 2 (by decide) hrow k hk
  exact ⟨l, hl, (hlines k l hl).address, hperforms⟩

end Debugger

end Chip8
