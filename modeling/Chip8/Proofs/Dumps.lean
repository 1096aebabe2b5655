import Chip8.Console
import Chip8.Proofs.Lines

/-!
# Dumps of memory

A dump has a row for every sixteen bytes, the last row being shorter, with the address of the first byte in front
(`Dump.rows`). The console writes the bytes one after the other and begins a row where the number of bytes before is a
multiple of sixteen (`Console.dumpFrom`); that comes to the same text (`Dump.toList_dumpFrom`). The rows, and so the
bytes, are read back from the text (`Dump.read?_text`). Main statement: `Dump.dump_faithful`.
-/

namespace Chip8.Dump

open Console (dumpFrom)
open Debugger (Command)

/-! ## Rows -/

structure Row where
  /-- The address of the first byte, not taken modulo anything. -/
  address : Nat
  bytes : List UInt8
  deriving DecidableEq, Repr

/-- The digits of an address. -/
def label (address : Nat) : List Char := Numeral.chars 16 3 address

/-- The digits of a byte. -/
def group (b : UInt8) : List Char := Numeral.chars 16 2 b.toNat

/-- A row as it is written: the address behind a colon and a blank, and a blank behind each byte. -/
def Row.text (r : Row) : List Char := label r.address ++ ':' :: ' ' :: ended ' ' (r.bytes.map group)

/-- Bytes in rows of sixteen. -/
def rows (start : Nat) (bytes : List UInt8) : List Row :=
  (List.range ((bytes.length + 15) / 16)).map fun k => ⟨start + 16 * k, (bytes.drop (16 * k)).take 16⟩

/-- The rows as a text, each on a new line. -/
def text (rows : List Row) : List Char := begun '\n' (rows.map Row.text)

/-- At least three digits. -/
theorem digits_label (address : Nat) : 3 ≤ (label address).length ∧ ∀ c ∈ label address, c ∈ Numeral.capitals := by
  refine ⟨?_, fun c hc => Numeral.mem_capitals (by omega) (by omega) hc⟩
  rw [label, Numeral.length_chars]
  omega

/-- Two digits. -/
theorem digits_group (b : UInt8) : (group b).length = 2 ∧ ∀ c ∈ group b, c ∈ Numeral.capitals :=
  ⟨Numeral.length_chars_of_lt (by omega) (by omega) b.toNat_lt,
    fun _ hc => Numeral.mem_capitals (by omega) (by omega) hc⟩

/-- The first row, and the rows of the other bytes. -/
theorem rows_of_ne_nil (start : Nat) {bytes : List UInt8} (h : bytes ≠ []) :
    rows start bytes = ⟨start, bytes.take 16⟩ :: rows (start + 16) (bytes.drop 16) := by
  have hpos := List.length_pos_iff.mpr h
  have hcount : (bytes.length + 15) / 16 = ((bytes.drop 16).length + 15) / 16 + 1 := by
    rw [List.length_drop]
    omega
  rw [rows, hcount, List.range_succ_eq_map, List.map_cons, List.map_map]
  refine congrArg (_ :: ·) (List.map_congr_left fun k _ => ?_)
  have hplace : 16 * (k + 1) = 16 + 16 * k := by omega
  show Row.mk (start + 16 * (k + 1)) ((bytes.drop (16 * (k + 1))).take 16) = _
  rw [hplace, List.drop_drop, ← Nat.add_assoc]

/-! ## Writing -/

theorem dumpFrom_append (start index : Nat) (bs cs : List UInt8) :
    dumpFrom start index (bs ++ cs) = dumpFrom start index bs ++ dumpFrom start (index + bs.length) cs := by
  induction bs generalizing index with
  | nil => simp [dumpFrom]
  | cons b rest ih =>
    have hindex : index + (b :: rest).length = index + 1 + rest.length := by
      rw [List.length_cons]
      omega
    rw [List.cons_append, dumpFrom, dumpFrom, ih, hindex]
    simp only [String.append_assoc]

/-- Bytes none of which begins a row. -/
theorem toList_dumpFrom_within (start : Nat) {index : Nat} {bytes : List UInt8}
    (h : ∀ j < bytes.length, (index + j) % 16 ≠ 0) :
    (dumpFrom start index bytes).toList = ended ' ' (bytes.map group) := by
  induction bytes generalizing index with
  | nil => rfl
  | cons b rest ih =>
    have hfirst : index % 16 ≠ 0 := h 0 (by simp)
    have hrest : ∀ j < rest.length, (index + 1 + j) % 16 ≠ 0 := by
      intro j hj
      have hnext := h (j + 1) (by simpa using hj)
      rwa [Nat.add_assoc, Nat.add_comm 1]
    rw [dumpFrom, if_neg hfirst]
    simp [ended, ih hrest, group, Numeral.toList_hex]

/-- The bytes of one row. -/
theorem toList_dumpFrom_row (start k : Nat) {bytes : List UInt8} (hne : bytes ≠ []) (h : bytes.length ≤ 16) :
    (dumpFrom start (16 * k) bytes).toList = '\n' :: Row.text ⟨start + 16 * k, bytes⟩ := by
  cases bytes with
  | nil => exact absurd rfl hne
  | cons b rest =>
    have hrest : ∀ j < rest.length, (16 * k + 1 + j) % 16 ≠ 0 := by
      intro j hj
      rw [List.length_cons] at h
      omega
    rw [dumpFrom, if_pos (by omega)]
    simp [toList_dumpFrom_within start hrest, Row.text, ended, label, group, Numeral.toList_hex]

/-- Bytes from the beginning of a row on. -/
theorem toList_dumpFrom (start k : Nat) (bytes : List UInt8) :
    (dumpFrom start (16 * k) bytes).toList = text (rows (start + 16 * k) bytes) := by
  generalize hn : bytes.length = n
  induction n using Nat.strongRecOn generalizing k bytes with
  | ind n ih =>
    by_cases hne : bytes = []
    · subst hne
      rfl
    · have hpos := List.length_pos_iff.mpr hne
      have hfirst : bytes.take 16 ≠ [] := by simpa using hne
      have hlength : (bytes.take 16).length ≤ 16 := List.length_take_le 16 bytes
      -- if the row is not full, there are no bytes behind it
      have hrest : (dumpFrom start (16 * k + (bytes.take 16).length) (bytes.drop 16)).toList =
          text (rows (start + 16 * k + 16) (bytes.drop 16)) := by
        by_cases hlast : bytes.length ≤ 16
        · rw [List.drop_of_length_le hlast]
          rfl
        · have hnext : 16 * k + (bytes.take 16).length = 16 * (k + 1) := by
            rw [List.length_take]
            omega
          rw [hnext]
          exact ih (bytes.drop 16).length (by rw [List.length_drop]; omega) (k + 1) (bytes.drop 16) rfl
      calc (dumpFrom start (16 * k) bytes).toList
          = (dumpFrom start (16 * k) (bytes.take 16 ++ bytes.drop 16)).toList := by rw [List.take_append_drop]
        _ = '\n' :: Row.text ⟨start + 16 * k, bytes.take 16⟩ ++ text (rows (start + 16 * k + 16) (bytes.drop 16)) := by
          rw [dumpFrom_append, String.toList_append, toList_dumpFrom_row start k hfirst hlength, hrest]
        _ = text (rows (start + 16 * k) bytes) := by
          rw [rows_of_ne_nil _ hne]
          rfl

/-! ## Reading -/

def readByte? (digits : List Char) : Option UInt8 := (Numeral.value? 16 digits).map UInt8.ofNat

/-- The row of a line. -/
def readRow? (line : List Char) : Option Row :=
  match line.splitOn ':' with
  | [label, ' ' :: groups] => do
    let address ← Numeral.value? 16 label
    let bytes ← (groups.splitOn ' ').dropLast.mapM readByte?
    return ⟨address, bytes⟩
  | _ => none

/-- The rows of a text; there is nothing in front of the first one. -/
def read? (text : List Char) : Option (List Row) := (text.splitOn '\n').tail.mapM readRow?

theorem not_mem_group {c : Char} (hc : c ∉ Numeral.capitals) {bytes : List UInt8} :
    ∀ p ∈ bytes.map group, c ∉ p := by
  intro p hp
  obtain ⟨b, -, rfl⟩ := List.mem_map.mp hp
  exact Numeral.not_mem_chars (by omega) (by omega) hc 2 b.toNat

theorem readByte?_group (b : UInt8) : readByte? (group b) = some b := by
  rw [readByte?, group, Numeral.value?_chars (by omega) (by omega)]
  simp

theorem readRow?_text (r : Row) : readRow? r.text = some r := by
  have hlabel : ':' ∉ label r.address := Numeral.not_mem_chars (by omega) (by omega) (by decide) 3 r.address
  have hgroups : ':' ∉ ' ' :: ended ' ' (r.bytes.map group) :=
    List.not_mem_cons_of_ne_of_not_mem (by decide) (not_mem_ended (by decide) (not_mem_group (by decide)))
  have hsplit : r.text.splitOn ':' = [label r.address, ' ' :: ended ' ' (r.bytes.map group)] := by
    rw [Row.text, List.splitOn_append_cons_self_of_not_mem hlabel, List.splitOn_eq_singleton hgroups]
  have haddress : Numeral.value? 16 (label r.address) = some r.address :=
    Numeral.value?_chars (by omega) (by omega) 3 r.address
  have hbytes : ((ended ' ' (r.bytes.map group)).splitOn ' ').dropLast.mapM readByte? = some r.bytes := by
    rw [splitOn_ended (not_mem_group (by decide)), List.dropLast_concat, mapM_written readByte?_group, List.map_id']
  simp [readRow?, hsplit, haddress, hbytes]

theorem not_mem_text (r : Row) : '\n' ∉ r.text := by
  have hlabel : '\n' ∉ label r.address := Numeral.not_mem_chars (by omega) (by omega) (by decide) 3 r.address
  have hgroups : '\n' ∉ ended ' ' (r.bytes.map group) := not_mem_ended (by decide) (not_mem_group (by decide))
  simp [Row.text, hlabel, hgroups]

/-- The rows are read back. -/
theorem read?_text (rows : List Row) : read? (text rows) = some rows := by
  have hsplit : (text rows).splitOn '\n' = [] :: rows.map Row.text := by
    refine splitOn_begun fun p hp => ?_
    obtain ⟨r, -, rfl⟩ := List.mem_map.mp hp
    exact not_mem_text r
  rw [read?, hsplit, List.tail_cons, mapM_written readRow?_text, List.map_id']

/-- All bytes are in the rows. -/
theorem flatMap_bytes_rows (start : Nat) (bytes : List UInt8) : (rows start bytes).flatMap Row.bytes = bytes := by
  generalize hn : bytes.length = n
  induction n using Nat.strongRecOn generalizing start bytes with
  | ind n ih =>
    by_cases hne : bytes = []
    · subst hne
      rfl
    · have hpos := List.length_pos_iff.mpr hne
      rw [rows_of_ne_nil start hne, List.flatMap_cons,
        ih (bytes.drop 16).length (by rw [List.length_drop]; omega) (start + 16) (bytes.drop 16) rfl]
      exact List.take_append_drop 16 bytes

/-- The bytes of a text. -/
def data? (text : List Char) : Option (List UInt8) := (read? text).map fun rows => rows.flatMap Row.bytes

/-! ## The command -/

/-- Rows of `len` bytes of memory from an address on. The last row may be shorter. -/
structure Shows (mem : Memory) (start len : Nat) (rows : List Row) : Prop where
  length : rows.length = (len + 15) / 16
  row : ∀ k r, rows[k]? = some r → r.address = start + 16 * k ∧ r.bytes.length = min 16 (len - 16 * k) ∧
    ∀ j b, r.bytes[j]? = some b → b = mem.read ((start + 16 * k + j) % 4096)

theorem shows_rows (mem : Memory) (start len : Nat) : Shows mem start len (rows start (mem.readMany start len)) where
  length := by simp [rows, Memory.readMany]
  row k r hr := by
    obtain ⟨hk, hrow⟩ := List.getElem?_eq_some_iff.mp hr
    simp only [rows, List.getElem_map, List.getElem_range] at hrow
    subst hrow
    refine ⟨rfl, by simp [Memory.readMany], fun j b hb => ?_⟩
    obtain ⟨hj, rfl⟩ := List.getElem?_eq_some_iff.mp hb
    simp [Memory.readMany, Memory.read, Nat.add_assoc]

theorem carryOut_mem (c : Console) (start len : UInt16) : c.carryOut (.mem start len) =
    { c with output := dumpFrom start.toNat 0 (c.runner.machine.memory.readMany start.toNat len.toNat) } := by
  -- a dump does not end the application
  rw [← Bool.or_false c.done]
  rfl

/-- What is shown of bytes from an address on. -/
theorem toList_output (c : Console) (start len : UInt16) : (c.carryOut (.mem start len)).output.toList =
    text (rows start.toNat (c.runner.machine.memory.readMany start.toNat len.toNat)) := by
  rw [carryOut_mem]
  exact toList_dumpFrom start.toNat 0 _

theorem data?_output (c : Console) (start len : UInt16) : data? (c.carryOut (.mem start len)).output.toList =
    some (c.runner.machine.memory.readMany start.toNat len.toNat) := by
  rw [toList_output, data?, read?_text, Option.map_some, flatMap_bytes_rows]

/-- Equal texts are those of equal bytes. -/
theorem output_eq_iff (c c' : Console) (start len : UInt16) :
    (c.carryOut (.mem start len)).output = (c'.carryOut (.mem start len)).output ↔
      ∀ j < len.toNat, c.runner.machine.memory.read ((start.toNat + j) % 4096) =
        c'.runner.machine.memory.read ((start.toNat + j) % 4096) := by
  have hmod (mem : Memory) (a : Nat) : mem.read (a % 4096) = mem.read a := by simp [Memory.read]
  have hbytes : c.runner.machine.memory.readMany start.toNat len.toNat =
      c'.runner.machine.memory.readMany start.toNat len.toNat ↔
        ∀ j < len.toNat, c.runner.machine.memory.read (start.toNat + j) =
          c'.runner.machine.memory.read (start.toNat + j) := by
    simp [Memory.readMany]
  simp only [hmod]
  rw [← hbytes]
  constructor
  · intro h
    have hdata := data?_output c start len
    rw [h, data?_output c' start len] at hdata
    exact (Option.some.inj hdata).symm
  · intro h
    rw [carryOut_mem, carryOut_mem, h]

/-- **A dump shows the right bytes at the right places.** It answers with the bytes of memory from the start on, counted
modulo the size of memory, and shows nothing but rows of at most sixteen of them, each byte as two digits and each row
with its address in front. The bytes are read back from the text, so texts differ if the bytes do. -/
theorem dump_faithful :
    (∀ (c : Console) (start len : UInt16), ∃ data rows output,
      Debugger.execute c.runner (.mem start len) = (.ok (.memory start data), c.runner) ∧
        c.carryOut (.mem start len) = { c with output := output } ∧ output.toList = text rows ∧
        Shows c.runner.machine.memory start.toNat len.toNat rows ∧
        read? output.toList = some rows ∧ data? output.toList = some data) ∧
      (∀ address, 3 ≤ (label address).length ∧ ∀ c ∈ label address, c ∈ Numeral.capitals) ∧
      (∀ b, (group b).length = 2 ∧ ∀ c ∈ group b, c ∈ Numeral.capitals) ∧
      ∀ (c c' : Console) (start len : UInt16),
        (c.carryOut (.mem start len)).output = (c'.carryOut (.mem start len)).output ↔
          ∀ j < len.toNat, c.runner.machine.memory.read ((start.toNat + j) % 4096) =
            c'.runner.machine.memory.read ((start.toNat + j) % 4096) := by
  refine ⟨fun c start len => ?_, digits_label, digits_group, output_eq_iff⟩
  have houtput := toList_output c start len
  refine ⟨_, _, (c.carryOut (.mem start len)).output, rfl, ?_, houtput, shows_rows _ _ _, ?_, data?_output c start len⟩
  · rw [carryOut_mem]
  · rw [houtput, read?_text]

/-- Eighteen bytes around the end of memory: two rows, the label of the second one beyond the end. -/
theorem dump_faithful_aroundEnd :
    ((Console.ofMachine (.initial Config.standard (.scripted []))).carryOut (.mem 0xFFE 18)).output =
        "\nFFE: 00 00 F0 90 90 90 F0 20 60 20 20 70 F0 10 F0 80 \n100E: F0 F0 " ∧
      ∃ rows, Shows Memory.initial 0xFFE 18 rows ∧
        read? "\nFFE: 00 00 F0 90 90 90 F0 20 60 20 20 70 F0 10 F0 80 \n100E: F0 F0 ".toList = some rows := by
  have houtput : ((Console.ofMachine (.initial Config.standard (.scripted []))).carryOut (.mem 0xFFE 18)).output =
      "\nFFE: 00 00 F0 90 90 90 F0 20 60 20 20 70 F0 10 F0 80 \n100E: F0 F0 " := by decide +kernel
  obtain ⟨data, rows, output, -, hcarry, -, hshows, hread, -⟩ :=
    dump_faithful.1 (Console.ofMachine (.initial Config.standard (.scripted []))) 0xFFE 18
  rw [hcarry] at houtput
  dsimp only at houtput
  subst houtput
  exact ⟨by rw [hcarry], rows, hshows, hread⟩

end Chip8.Dump
