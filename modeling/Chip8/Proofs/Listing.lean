import Chip8.Debugger
import Chip8.Program.Job
import Chip8.Proofs.RoundTrip

/-!
# What a listing holds

A listing has one line for every two bytes of its image, with the address, the word and the instruction of each
(`Listing.Lists`). The distance of a word from the base is twice its number in checked sixteen-bit arithmetic
(`Listing.checkedLines`), so the word number 32768 has none, although its address would go round like all others: the
images that can be listed are just those of less than 65538 bytes (`Listing.listing_limit`).
-/

namespace Chip8.Listing

/-! ## Words and lines -/

theorem length_words : ∀ bytes : List UInt8, (words bytes).length = bytes.length / 2
  | [] => rfl
  | [_] => by simp [words]
  | high :: low :: rest => by
    simp only [words, List.length_cons, length_words rest]
    omega

/-- Word `k` is made of the bytes `2 * k` and `2 * k + 1`. -/
theorem exists_of_getElem?_words : ∀ (bytes : List UInt8) {k : Nat} {w : UInt16}, (words bytes)[k]? = some w →
    ∃ high low, bytes[2 * k]? = some high ∧ bytes[2 * k + 1]? = some low ∧ w = Word.ofBytes high low
  | [], _, _, h => by simp [words] at h
  | [_], _, _, h => by simp [words] at h
  | high :: low :: _, 0, _, h => ⟨high, low, rfl, rfl, (Option.some.inj h).symm⟩
  | _ :: _ :: rest, k + 1, w, h => by
    rw [words, List.getElem?_cons_succ] at h
    exact exists_of_getElem?_words rest h

theorem length_linesFrom (base : UInt16) (index : Nat) (ws : List UInt16) :
    (linesFrom base index ws).length = ws.length := by
  induction ws generalizing index with
  | nil => rfl
  | cons w rest ih => simp [linesFrom, ih]

theorem getElem?_linesFrom (base : UInt16) (index k : Nat) (ws : List UInt16) :
    (linesFrom base index ws)[k]? =
      ws[k]?.map fun w => ⟨base + UInt16.ofNat (2 * (index + k)), w, .decode w⟩ := by
  induction ws generalizing index k with
  | nil => simp [linesFrom]
  | cons w rest ih =>
    cases k with
    | zero => simp [linesFrom]
    | succ k =>
      simp only [linesFrom, List.getElem?_cons_succ, ih]
      have hk : index + 1 + k = index + (k + 1) := by omega
      rw [hk]

/-- One line for every two bytes, each with its address modulo 2 ^ 16, its word and the instruction of the word. -/
structure Lists (bytes : List UInt8) (base : UInt16) (lines : List Line) : Prop where
  length : lines.length = bytes.length / 2
  line : ∀ k l, lines[k]? = some l → ∃ high low, bytes[2 * k]? = some high ∧ bytes[2 * k + 1]? = some low ∧
    l.address.toNat = (base.toNat + 2 * k) % 65536 ∧ l.word.toNat = 256 * high.toNat + low.toNat ∧
      l.instruction = .decode l.word

theorem lists_linesFrom (bytes : List UInt8) (base : UInt16) : Lists bytes base (linesFrom base 0 (words bytes)) where
  length := by rw [length_linesFrom, length_words]
  line k l hl := by
    rw [getElem?_linesFrom, Nat.zero_add] at hl
    obtain ⟨w, hw, rfl⟩ := Option.map_eq_some_iff.mp hl
    obtain ⟨high, low, hhigh, hlow, rfl⟩ := exists_of_getElem?_words bytes hw
    refine ⟨high, low, hhigh, hlow, ?_, ?_, rfl⟩
    · simp only [UInt16.toNat_add, UInt16.toNat_ofNat']
      omega
    · rw [Word.toNat_ofBytes]
      omega

/-! ## Checked arithmetic -/

/-- The line of word `index`. The index is cut to sixteen bits, and twice that has to fit into sixteen bits. -/
def checkedLine (base : UInt16) (index : Nat) (w : UInt16) : Except Overflow Line :=
  let distance := 2 * (UInt16.ofNat index).toNat
  if distance < 65536 then .ok ⟨base + UInt16.ofNat distance, w, .decode w⟩ else .error {}

/-- Lines made one after the other, up to the first that cannot be made. -/
def checkedLines (base : UInt16) : Nat → List UInt16 → Except Overflow (List Line)
  | _, [] => .ok []
  | index, w :: rest => do
    let line ← checkedLine base index w
    let lines ← checkedLines base (index + 1) rest
    return line :: lines

theorem checkedLine_of_lt (base : UInt16) {index : Nat} (h : index < maxWords) (w : UInt16) :
    checkedLine base index w = .ok ⟨base + UInt16.ofNat (2 * index), w, .decode w⟩ := by
  unfold maxWords at h
  have hindex : (UInt16.ofNat index).toNat = index := by
    rw [UInt16.toNat_ofNat']
    omega
  have hfits : 2 * index < 65536 := by omega
  simp only [checkedLine, hindex, if_pos hfits]

theorem checkedLine_maxWords (base w : UInt16) : checkedLine base maxWords w = .error {} := rfl

/-- No line can be made behind the last one whose distance fits. -/
theorem checkedLines_eq (base : UInt16) {index : Nat} (h : index ≤ maxWords) (ws : List UInt16) :
    checkedLines base index ws =
      if index + ws.length ≤ maxWords then .ok (linesFrom base index ws) else .error {} := by
  induction ws generalizing index with
  | nil => simp [checkedLines, linesFrom, h]
  | cons w rest ih =>
    rcases Nat.lt_or_eq_of_le h with hlt | rfl
    · have hlength : index + 1 + rest.length = index + (w :: rest).length := by
        simp only [List.length_cons]
        omega
      rw [checkedLines, checkedLine_of_lt base hlt, ih hlt, hlength]
      split <;> rfl
    · have hmore : ¬ maxWords + (w :: rest).length ≤ maxWords := by simp
      rw [checkedLines, checkedLine_maxWords, if_neg hmore]
      rfl

theorem ofImage_eq_checkedLines (bytes : List UInt8) (base : UInt16) :
    ofImage bytes base = checkedLines base 0 (words bytes) := by
  rw [checkedLines_eq base (Nat.zero_le _), Nat.zero_add, length_words]
  rfl

/-! ## The limit -/

theorem ofImage_of_fits {bytes : List UInt8} (base : UInt16) (h : bytes.length < 65538) :
    ofImage bytes base = .ok (linesFrom base 0 (words bytes)) := by
  have hfits : bytes.length / 2 ≤ maxWords := by
    rw [maxWords]
    omega
  exact if_pos hfits

theorem ofImage_of_not {bytes : List UInt8} (base : UInt16) (h : ¬ bytes.length < 65538) :
    ofImage bytes base = .error {} := by
  have hmore : ¬ bytes.length / 2 ≤ maxWords := by
    rw [maxWords]
    omega
  exact if_neg hmore

theorem length_readMany (mem : Memory) (a len : Nat) : (mem.readMany a len).length = len := by simp [Memory.readMany]

/-- What the debugger lists, for as many lines as have a distance. -/
theorem debugger_listing_of_fits (m : Machine) (start : UInt16) {count : UInt16} (h : count.toNat ≤ 32768) :
    Debugger.listing m start count =
      .ok (.listing (linesFrom start 0 (words (m.memory.readMany start.toNat (2 * count.toNat))))) := by
  have hlength : (m.memory.readMany start.toNat (2 * count.toNat)).length < 65538 := by
    rw [length_readMany]
    omega
  rw [Debugger.listing, ofImage_of_fits start hlength]

theorem debugger_listing_of_not (m : Machine) (start : UInt16) {count : UInt16} (h : ¬ count.toNat ≤ 32768) :
    Debugger.listing m start count = .error (.crashed (Overflow.message {})) := by
  have hlength : ¬ (m.memory.readMany start.toNat (2 * count.toNat)).length < 65538 := by
    rw [length_readMany]
    omega
  rw [Debugger.listing, ofImage_of_not start hlength]

/-- **Listings of all images up to 65537 bytes, and of no larger one.** A listing of the debugger ends there, too. -/
theorem listing_limit (bytes : List UInt8) (base : UInt16) (r : Runner) (start : Option UInt16) (count : UInt16) :
    (ofImage bytes base = checkedLines base 0 (words bytes) ∧
      if bytes.length < 65538 then ∃ lines, ofImage bytes base = .ok lines ∧ Lists bytes base lines ∧
        Program.listingText bytes base = .ok (text lines)
      else ofImage bytes base = .error {} ∧
        Program.listingText bytes base = .error (.crashed (Overflow.message {}))) ∧
    if count.toNat ≤ 32768 then
      ∃ lines, Debugger.execute r (.disasm start count) = (.ok (.listing lines), r) ∧ lines.length = count.toNat
    else Debugger.execute r (.disasm start count) = (.error (.crashed (Overflow.message {})), r) := by
  refine ⟨⟨ofImage_eq_checkedLines bytes base, ?_⟩, ?_⟩
  · split
    · next h =>
      have hlisted := ofImage_of_fits base h
      exact ⟨_, hlisted, lists_linesFrom bytes base, by rw [Program.listingText, hlisted]⟩
    · next h =>
      have hfails := ofImage_of_not base h
      exact ⟨hfails, by rw [Program.listingText, hfails]⟩
  · rw [Debugger.execute]
    split
    · next h =>
      refine ⟨_, by rw [debugger_listing_of_fits _ _ h], ?_⟩
      rw [length_linesFrom, length_words, length_readMany]
      omega
    · next h => rw [debugger_listing_of_not _ _ h]

/-- The runner of a new machine with standard settings. -/
def freshRunner : Runner := .ofMachine (Machine.initial Config.standard (.scripted []))

/-- An image with one word too many, and a command that asks for as many words, are not listed at all. -/
theorem listing_fails :
    ofImage (List.replicate 65538 0) 0 = .error {} ∧
      Debugger.execute freshRunner (.disasm (some 0) 32769) =
        (.error (.crashed "attempt to multiply with overflow"), freshRunner) ∧
      ¬ ∀ (bytes : List UInt8) (base : UInt16), ∃ lines, ofImage bytes base = .ok lines ∧ Lists bytes base lines := by
  have hfails : ofImage (List.replicate 65538 0) 0 = .error {} := ofImage_of_not 0 (by
    rw [List.length_replicate]
    exact Nat.lt_irrefl _)
  refine ⟨hfails, ?_, fun h => ?_⟩
  · rw [Debugger.execute, debugger_listing_of_not _ _ (by decide)]
    rfl
  · obtain ⟨lines, hlisted, -⟩ := h (List.replicate 65538 0) 0
    rw [hfails] at hlisted
    cases hlisted

end Chip8.Listing
