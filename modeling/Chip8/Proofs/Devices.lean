import Chip8.Proofs.Expiry

/-!
# The program sees its devices only through their instructions

The display, the keypad and the two timers are devices (`Device`): others than the program may change them between two
steps. Few instructions hang on the state of one (`Instruction.reads?`), and none on the sound timer.

- `Machine.Agree seen lead m m'`: the machines `m` and `m'` agree on all that is no device and on the devices in `seen`,
  and their random sources go on with the same answers, `m'` having asked for `lead` more of them so far.
- A step of an instruction that reads no device outside `seen` keeps this, with the same outcome (`Agree.step`).
- Two histories that differ only in what happens to devices outside `seen` keep it, as long as no instruction that reads
  one of those is stepped (`Agree.after`). `Machine.devices_unseen` states this with no device seen, and with all but
  the sound timer.
-/

namespace Chip8

/-- A part of the machine that others than the program may change. -/
inductive Device
  | display
  | keypad
  | delay
  | sound
  deriving DecidableEq

/-- The device whose state decides what the instruction does. -/
def Instruction.reads? : Instruction → Option Device
  | .draw .. => some .display
  | .skipHeld _ | .skipNotHeld _ | .waitKey _ => some .keypad
  | .readDelay _ => some .delay
  | _ => none

/-- No instruction reads the sound timer. -/
theorem Instruction.reads?_ne_sound (i : Instruction) : i.reads? ≠ some .sound := by
  cases i <;> simp [reads?]

/-! ## Random sources -/

namespace RandomSource

/-- From now on the sources give the same answers; the second one has given `lead` more of them so far. -/
structure Agree (lead : Int) (s s' : RandomSource) : Prop where
  answers (k : Nat) : s'.answers (s'.asked + k) = s.answers (s.asked + k)
  asked : (s'.asked : Int) = s.asked + lead

theorem Agree.symm {lead : Int} {s s' : RandomSource} (h : Agree lead s s') : Agree (-lead) s' s where
  answers k := (h.answers k).symm
  asked := by
    have ha := h.asked
    omega

theorem Agree.next {lead : Int} {s s' : RandomSource} (h : Agree lead s s') :
    s'.next.1 = s.next.1 ∧ Agree lead s.next.2 s'.next.2 := by
  refine ⟨h.answers 0, fun k => ?_, ?_⟩
  · have hk := h.answers (1 + k)
    rwa [← Nat.add_assoc, ← Nat.add_assoc] at hk
  · have ha := h.asked
    simp only [RandomSource.next]
    omega

end RandomSource

namespace Machine

/-! ## Histories -/

/-- The instructions stepped in a history, each with how its step ended. -/
def record : Machine → List Happening → List (Instruction × Outcome)
  | _, [] => []
  | m, .change .step :: rest => (.decode m.fetch, m.step.1) :: (m.happen (.change .step)).record rest
  | m, e :: rest => (m.happen e).record rest

theorem record_step (m : Machine) (rest : List Happening) :
    m.record (.change .step :: rest) = (.decode m.fetch, m.step.1) :: m.step.2.record rest := rfl

theorem record_of_ne (m : Machine) {e : Happening} (he : e ≠ .change .step) (rest : List Happening) :
    m.record (e :: rest) = (m.happen e).record rest := by
  cases e with
  | delay e => rfl
  | sound e => rfl
  | change c =>
    cases c with
    | step => exact absurd rfl he
    | _ => rfl

theorem after_append (m : Machine) (h h' : List Happening) : m.after (h ++ h') = (m.after h).after h' :=
  List.foldl_append

namespace Happening

/-- The devices that the happening may change; none for a step or an edit of the rest. -/
def devices : Happening → List Device
  | .change (.draw ..) | .change .clear => [.display]
  | .change (.setKeys _) => [.keypad]
  | .change (.setDelay _) | .delay _ => [.delay]
  | .change (.setSound _) | .sound _ => [.sound]
  | .change .tick => [.delay, .sound]
  | _ => []

/-- The happening is a step or an edit, or it changes a device that is seen. -/
def isSeen (seen : Device → Bool) (e : Happening) : Bool := e.devices.isEmpty || e.devices.any seen

theorem ne_step_of_not_isSeen {seen : Device → Bool} {e : Happening} (h : e.isSeen seen = false) :
    e ≠ .change .step := by
  rintro rfl
  cases h

end Happening

/-! ## Agreement -/

/-- The machines agree on all but the devices that are not seen. -/
structure Agree (seen : Device → Bool) (lead : Int) (m m' : Machine) : Prop where
  config : m'.config = m.config
  memory : m'.memory = m.memory
  pc : m'.pc = m.pc
  index : m'.i = m.i
  registers : m'.v = m.v
  stack : m'.stack = m.stack
  random : m.random.Agree lead m'.random
  display : seen .display = true → m'.display = m.display
  keypad : seen .keypad = true → m'.keypad = m.keypad
  delay : seen .delay = true → m'.delay = m.delay
  sound : seen .sound = true → m'.sound = m.sound

namespace Agree

variable {seen : Device → Bool} {lead : Int} {m m' : Machine}

theorem fetch (h : Agree seen lead m m') : m'.fetch = m.fetch := by
  simp only [Machine.fetch, h.memory, h.pc]

theorem reg (h : Agree seen lead m m') (x : Nibble) : m'.reg x = m.reg x := by
  simp only [Machine.reg, h.registers]

theorem setReg (h : Agree seen lead m m') (x : Nibble) (b : UInt8) :
    Agree seen lead (m.setReg x b) (m'.setReg x b) :=
  { h with registers := by simp only [Machine.setReg, h.registers] }

theorem setPc (h : Agree seen lead m m') (a : UInt16) : Agree seen lead { m with pc := a } { m' with pc := a } :=
  { h with pc := rfl }

theorem setIndex (h : Agree seen lead m m') (a : UInt16) : Agree seen lead { m with i := a } { m' with i := a } :=
  { h with index := rfl }

theorem advance (h : Agree seen lead m m') : Agree seen lead m.advance m'.advance :=
  { h with pc := by simp only [Machine.advance, h.pc] }

theorem load (h : Agree seen lead m m') (program : List UInt8) :
    Agree seen lead (m.change (.load program)) (m'.change (.load program)) := by
  have hfit : (m'.config.programOffset.toNat + program.length ≤ Memory.size) =
      (m.config.programOffset.toNat + program.length ≤ Memory.size) := by rw [h.config]
  by_cases hs : m.config.programOffset.toNat + program.length ≤ Memory.size
  · simp only [change_load, hfit, hs, if_true]
    exact { h with memory := by simp only [h.config, h.memory], pc := by simp only [h.config] }
  · simp only [change_load, hfit, hs, if_false]
    exact h

theorem skipIf (h : Agree seen lead m m') (condition : Bool) :
    Agree seen lead (m.skipIf condition) (m'.skipIf condition) := by
  cases condition with
  | true => exact h.advance
  | false => exact h

theorem arith (h : Agree seen lead m m') (op : Arith) (x y : Nibble) :
    Agree seen lead (m.arith op x y) (m'.arith op x y) := by
  cases op <;> simp only [Machine.arith, h.reg]
  case copy | or | and | xor => exact h.setReg _ _
  case add | sub | subFrom | shiftRight | shiftLeft => exact (h.setReg _ _).setReg _ _

theorem indexedBytes (h : Agree seen lead m m') (n : Nat) : m'.indexedBytes n = m.indexedBytes n := by
  simp only [Machine.indexedBytes, indexed, h.memory, h.index]

theorem storeFrom (h : Agree seen lead m m') (k : Nat) (bytes : List UInt8) :
    Agree seen lead (m.storeFrom k bytes) (m'.storeFrom k bytes) := by
  induction bytes generalizing m m' k with
  | nil => exact h
  | cons b rest ih =>
    have hfirst : Agree seen lead { m with memory := m.memory.write (m.indexed k) b }
        { m' with memory := m'.memory.write (m'.indexed k) b } :=
      { h with memory := by simp only [indexed, h.memory, h.index] }
    exact ih hfirst (k + 1)

theorem setRegsFrom (h : Agree seen lead m m') (k : Nat) (bytes : List UInt8) :
    Agree seen lead (m.setRegsFrom k bytes) (m'.setRegsFrom k bytes) := by
  induction bytes generalizing m m' k with
  | nil => exact h
  | cons b rest ih => exact ih (h.setReg _ b) (k + 1)

/-! ### Instructions that may fail to execute, and the draw -/

/-- An instruction done on two machines ends in the same way and leaves machines that agree. -/
def Both (seen : Device → Bool) (lead : Int) (r r' : Outcome × Machine) : Prop :=
  r'.1 = r.1 ∧ Agree seen lead r.2 r'.2

variable (address word : UInt16)

theorem ret (h : Agree seen lead m m') : Both seen lead (m.ret address word) (m'.ret address word) := by
  simp only [Machine.ret, h.stack]
  cases m.stack with
  | nil => exact ⟨rfl, h⟩
  | cons top rest => exact ⟨rfl, { h with pc := rfl, stack := rfl }⟩

theorem call (h : Agree seen lead m m') (target : UInt16) :
    Both seen lead (m.call address word target) (m'.call address word target) := by
  have pushed : Agree seen lead { m with stack := m.pc :: m.stack, pc := target }
      { m' with stack := m'.pc :: m'.stack, pc := target } :=
    { h with pc := rfl, stack := by simp only [h.pc, h.stack] }
  have hlimit : m'.config.stackLimit = m.config.stackLimit := by rw [h.config]
  have hdepth : m'.stack.length = m.stack.length := by rw [h.stack]
  unfold Machine.call
  rw [hlimit, hdepth]
  cases m.config.stackLimit with
  | none => exact ⟨rfl, pushed⟩
  | some limit =>
    by_cases hfull : limit ≤ m.stack.length
    · simp only [hfull, if_true]
      exact ⟨rfl, h⟩
    · simp only [hfull, if_false]
      exact ⟨rfl, pushed⟩

theorem randomByte (h : Agree seen lead m m') (x : Nibble) (mask : UInt8) :
    Both seen lead (m.randomByte address word x mask) (m'.randomByte address word x mask) := by
  obtain ⟨hanswer, hrest⟩ := h.random.next
  have asked : Agree seen lead { m with random := m.random.next.2 } { m' with random := m'.random.next.2 } :=
    { h with random := hrest }
  simp only [Machine.randomByte, hanswer]
  cases m.random.next.1 with
  | byte b => exact ⟨rfl, asked.setReg _ _⟩
  | failure cause => exact ⟨rfl, asked⟩
  | crash message => exact ⟨rfl, asked⟩

theorem waitKey (h : Agree seen lead m m') (x : Nibble) (hk : seen .keypad = true) :
    Both seen lead (m.waitKey x) (m'.waitKey x) := by
  simp only [Machine.waitKey, h.keypad hk]
  cases m.keypad.lowest? with
  | none => exact ⟨rfl, h⟩
  | some key => exact ⟨rfl, h.setReg _ _⟩

theorem drawIndexed (h : Agree seen lead m m') (x y n : Nibble) (hd : seen .display = true) :
    Agree seen lead (m.drawIndexed x y n) (m'.drawIndexed x y n) := by
  have drawn (d : Display) : Agree seen lead { m with display := d } { m' with display := d } :=
    { h with display := fun _ => rfl }
  have hdraw (b c : UInt8) (sprite : List UInt8) : m'.display.draw b c sprite = m.display.draw b c sprite := by
    rw [h.display hd]
  simp only [Machine.drawIndexed, drawSprite, h.reg, h.indexedBytes, hdraw]
  exact (drawn _).setReg _ _

/-! ### One step -/

/-- An instruction that reads no device but those seen. -/
theorem perform (h : Agree seen lead m m') {i : Instruction} (readable : ∀ d, i.reads? = some d → seen d = true) :
    Both seen lead (m.perform address word i) (m'.perform address word i) := by
  cases i with
  | ret => exact h.ret address word
  | call nnn => exact h.call address word nnn
  | random x nn => exact h.randomByte address word x nn
  | waitKey x => exact h.waitKey x (readable _ rfl)
  | unknown w => exact ⟨rfl, h⟩
  | jump nnn => exact ⟨rfl, h.setPc nnn⟩
  | jumpPlus nnn =>
    simp only [Machine.perform, h.reg]
    exact ⟨rfl, h.setPc _⟩
  | skipEqByte x nn | skipNeByte x nn | skipEq x y | skipNe x y =>
    simp only [Machine.perform, h.reg]
    exact ⟨rfl, h.skipIf _⟩
  | skipHeld x | skipNotHeld x =>
    simp only [Machine.perform, h.reg, h.keypad (readable _ rfl)]
    exact ⟨rfl, h.skipIf _⟩
  | setByte x nn => exact ⟨rfl, h.setReg x nn⟩
  | addByte x nn =>
    simp only [Machine.perform, h.reg]
    exact ⟨rfl, h.setReg x _⟩
  | readDelay x =>
    simp only [Machine.perform, h.delay (readable _ rfl)]
    exact ⟨rfl, h.setReg x _⟩
  | arith op x y => exact ⟨rfl, h.arith op x y⟩
  | setIndex nnn => exact ⟨rfl, h.setIndex nnn⟩
  | addIndex x =>
    simp only [Machine.perform, h.reg, h.index]
    exact ⟨rfl, h.setIndex _⟩
  | glyph x =>
    simp only [Machine.perform, h.reg]
    exact ⟨rfl, h.setIndex _⟩
  | clear => exact ⟨rfl, { h with display := fun _ => rfl }⟩
  | draw x y n => exact ⟨rfl, h.drawIndexed x y n (readable _ rfl)⟩
  | setDelay x =>
    simp only [Machine.perform, h.reg]
    exact ⟨rfl, { h with delay := fun hd => by simp only [h.delay hd] }⟩
  | setSound x =>
    simp only [Machine.perform, h.reg]
    exact ⟨rfl, { h with sound := fun hs => by simp only [h.sound hs] }⟩
  | decimal x =>
    simp only [Machine.perform, h.reg]
    exact ⟨rfl, h.storeFrom 0 _⟩
  | save x =>
    simp only [Machine.perform, firstRegs, h.registers]
    exact ⟨rfl, h.storeFrom 0 _⟩
  | restore x =>
    simp only [Machine.perform, h.indexedBytes]
    exact ⟨rfl, h.setRegsFrom 0 _⟩

theorem step (h : Agree seen lead m m')
    (readable : ∀ d, (Instruction.decode m.fetch).reads? = some d → seen d = true) :
    Both seen lead m.step m'.step := by
  have hattempt : Both seen lead m.attempt m'.attempt := by
    have hp := h.advance.perform m.pc m.fetch readable
    simpa only [attempt, h.fetch, h.pc] using hp
  obtain ⟨houtcome, hagree⟩ := hattempt
  rw [step_eq m, step_eq m', houtcome, h.pc]
  cases m.attempt.1.movesOn with
  | true => exact ⟨rfl, hagree⟩
  | false => exact ⟨rfl, hagree.setPc m.pc⟩

/-! ### Histories -/

theorem symm (h : Agree seen lead m m') : Agree seen (-lead) m' m where
  config := h.config.symm
  memory := h.memory.symm
  pc := h.pc.symm
  index := h.index.symm
  registers := h.registers.symm
  stack := h.stack.symm
  random := h.random.symm
  display hs := (h.display hs).symm
  keypad hs := (h.keypad hs).symm
  delay hs := (h.delay hs).symm
  sound hs := (h.sound hs).symm

/-- Both machines go through the same step, edit or change of a device. -/
theorem happen (h : Agree seen lead m m') {e : Happening} (he : e ≠ .change .step) :
    Agree seen lead (m.happen e) (m'.happen e) := by
  cases e with
  | delay e => exact { h with delay := fun hs => by simp only [Machine.happen, h.delay hs] }
  | sound e => exact { h with sound := fun hs => by simp only [Machine.happen, h.sound hs] }
  | change c =>
    cases c with
    | step => exact absurd rfl he
    | setPc a => exact h.setPc a
    | setIndex a => exact h.setIndex a
    | setReg x b => exact h.setReg x b
    | load program => exact h.load program
    | draw x y sprite =>
      exact { h with display := fun hs => by simp only [Machine.happen, change, drawSprite, h.display hs] }
    | clear => exact { h with display := fun _ => rfl }
    | setKeys mask => exact { h with keypad := fun _ => rfl }
    | setDelay b => exact { h with delay := fun hs => by simp only [Machine.happen, change, h.delay hs] }
    | setSound b => exact { h with sound := fun hs => by simp only [Machine.happen, change, h.sound hs] }
    | tick =>
      exact { h with
        delay := fun hs => by simp only [Machine.happen, change, Machine.tick, h.delay hs]
        sound := fun hs => by simp only [Machine.happen, change, Machine.tick, h.sound hs] }

/-- A change of devices that are not seen, on the second machine alone. -/
theorem happen_unseen (h : Agree seen lead m m') {e : Happening} (he : e.isSeen seen = false) :
    Agree seen lead m (m'.happen e) := by
  have hide : ∀ d ∈ e.devices, seen d ≠ true := by
    intro d hd hs
    have hany : e.devices.any seen = true := List.any_eq_true.mpr ⟨d, hd, hs⟩
    simp [Happening.isSeen, hany] at he
  cases e with
  | delay e => exact { h with delay := fun hs => absurd hs (hide _ (.head _)) }
  | sound e => exact { h with sound := fun hs => absurd hs (hide _ (.head _)) }
  | change c =>
    cases c with
    | step | setPc | setIndex | setReg | load => cases he
    | draw | clear => exact { h with display := fun hs => absurd hs (hide _ (.head _)) }
    | setKeys mask => exact { h with keypad := fun hs => absurd hs (hide _ (.head _)) }
    | setDelay b => exact { h with delay := fun hs => absurd hs (hide _ (.head _)) }
    | setSound b => exact { h with sound := fun hs => absurd hs (hide _ (.head _)) }
    | tick =>
      exact { h with
        delay := fun hs => absurd hs (hide _ (.head _))
        sound := fun hs => absurd hs (hide _ (.tail _ (.head _))) }

/-- The same on the first machine alone. -/
theorem unseen_happen (h : Agree seen lead m m') {e : Happening} (he : e.isSeen seen = false) :
    Agree seen lead (m.happen e) m' := by
  have hs := (h.symm.happen_unseen he).symm
  rwa [Int.neg_neg] at hs

/-- Any number of such changes; none of them is a step. -/
theorem after_unseen (h : Agree seen lead m m') {history : List Happening}
    (hidden : ∀ e ∈ history, ¬ e.isSeen seen = true) (rest : List Happening) :
    Agree seen lead m (m'.after history) ∧ m'.record (history ++ rest) = (m'.after history).record rest := by
  induction history generalizing m' with
  | nil => exact ⟨h, rfl⟩
  | cons e tail ih =>
    have he : e.isSeen seen = false := Bool.eq_false_iff.mpr (hidden e (.head tail))
    obtain ⟨hagree, hrecord⟩ := ih (h.happen_unseen he) fun e' he' => hidden e' (.tail e he')
    refine ⟨hagree, ?_⟩
    rw [List.cons_append, m'.record_of_ne (Happening.ne_step_of_not_isSeen he), hrecord, after_cons]

/-- Histories that differ only in changes of devices that are not seen, as long as no instruction that reads one of
those is stepped. -/
theorem after (h : Agree seen lead m m') {history history' : List Happening}
    (same : history'.filter (·.isSeen seen) = history.filter (·.isSeen seen))
    (readable : ∀ s ∈ m.record history, ∀ d, s.1.reads? = some d → seen d = true) :
    m'.record history' = m.record history ∧ Agree seen lead (m.after history) (m'.after history') := by
  induction history generalizing m m' history' with
  | nil =>
    obtain ⟨hagree, hrecord⟩ := h.after_unseen (List.filter_eq_nil_iff.mp same) []
    rw [List.append_nil] at hrecord
    exact ⟨hrecord, hagree⟩
  | cons e rest ih =>
    cases hseen : e.isSeen seen with
    | false =>
      rw [List.filter_cons_of_neg (Bool.eq_false_iff.mp hseen)] at same
      rw [m.record_of_ne (Happening.ne_step_of_not_isSeen hseen)] at readable ⊢
      exact ih (h.unseen_happen hseen) same readable
    | true =>
      -- the second history comes to the same event behind changes that are not seen
      rw [List.filter_cons_of_pos hseen] at same
      obtain ⟨before, later, rfl, hidden, -, same'⟩ := List.filter_eq_cons_iff.mp same
      obtain ⟨hbefore, hrecord⟩ := h.after_unseen hidden (e :: later)
      rw [hrecord, after_append, after_cons, after_cons]
      by_cases he : e = .change .step
      · subst he
        rw [record_step] at readable ⊢
        rw [record_step, hbefore.fetch]
        obtain ⟨houtcome, hstep⟩ := hbefore.step (readable _ (.head _))
        obtain ⟨htail, hafter⟩ := ih hstep same' fun s hs => readable s (.tail _ hs)
        exact ⟨by rw [houtcome, htail], hafter⟩
      · rw [m.record_of_ne he] at readable ⊢
        rw [record_of_ne _ he]
        exact ih (hbefore.happen he) same' readable

end Agree

/-! ## Two histories of two machines -/

/-- The histories step the same instructions with the same outcomes and ask for equally many random bytes, and leave
machines that agree again. -/
structure RunAlike (seen : Device → Bool) (lead : Int) (m m' : Machine) (history history' : List Happening) :
    Prop where
  record : m'.record history' = m.record history
  asked : ((m'.after history').random.asked : Int) - m'.random.asked =
    (m.after history).random.asked - m.random.asked
  agree : Agree seen lead (m.after history) (m'.after history')

theorem Agree.runAlike {seen : Device → Bool} {lead : Int} {m m' : Machine} {history history' : List Happening}
    (h : Agree seen lead m m') (same : history'.filter (·.isSeen seen) = history.filter (·.isSeen seen))
    (readable : ∀ s ∈ m.record history, ∀ d, s.1.reads? = some d → seen d = true) :
    RunAlike seen lead m m' history history' := by
  obtain ⟨hrecord, hagree⟩ := h.after same readable
  refine ⟨hrecord, ?_, hagree⟩
  have hbefore := h.random.asked
  have hafter := hagree.random.asked
  omega

/-- **The program sees its devices only through their instructions.** Two machines that differ in their devices only,
and in what happens to these, run alike as long as no instruction that reads a device is stepped; and two machines that
differ in the sound timer only run alike for ever. -/
theorem devices_unseen :
    (∀ (lead : Int) (m m' : Machine) (history history' : List Happening), m.Agree (fun _ => false) lead m' →
      history'.filter (·.isSeen fun _ => false) = history.filter (·.isSeen fun _ => false) →
      (∀ s ∈ m.record history, s.1.reads? = none) → RunAlike (fun _ => false) lead m m' history history') ∧
    ∀ (lead : Int) (m m' : Machine) (history history' : List Happening), m.Agree (· != .sound) lead m' →
      history'.filter (·.isSeen (· != .sound)) = history.filter (·.isSeen (· != .sound)) →
      RunAlike (· != .sound) lead m m' history history' := by
  refine ⟨fun lead m m' history history' h same unread => ?_, fun lead m m' history history' h same => ?_⟩
  · refine h.runAlike same fun s hs d hd => ?_
    rw [unread s hs] at hd
    cases hd
  · refine h.runAlike same fun s _ d hd => ?_
    have hne : d ≠ .sound := fun hsound => s.1.reads?_ne_sound (hsound ▸ hd)
    exact bne_iff_ne.mpr hne

/-- A program that calls a subroutine, in which it asks for a random byte and sets the sound timer. -/
def asksForByte : Machine :=
  { initial Config.standard (.scripted [.byte 9]) with
    memory := Memory.initial.writeMany 0x200 [0x22, 0x04, 0x00, 0x00, 0xC1, 0xFF, 0xF1, 0x18, 0x00, 0xEE] }

/-- The same program beside other devices, with a source that has given a byte before. -/
def asksForByteToo : Machine :=
  { asksForByte with
    display := ⟨Vector.replicate 32 1⟩
    keypad := ⟨0x8421⟩
    delay := ⟨7, 0, 0⟩
    sound := ⟨1, 0, 0⟩
    random := ⟨(RandomSource.scripted [.byte 4, .byte 9]).answers, 1⟩ }

/-- A program that waits for a key, draws its glyph and reads the delay timer. -/
def readsDevices : Machine :=
  { initial Config.standard (.scripted []) with
    memory := Memory.initial.writeMany 0x200 [0xF0, 0x0A, 0xF0, 0x29, 0xD0, 0x05, 0xF2, 0x07]
    delay := ⟨3, 0, 0⟩ }

/-- Four steps among which the timers tick and keys are pressed. -/
def stepsAmongTicks : List Happening :=
  [.change .step, .change .tick, .change .step, .change (.setKeys 3), .change .step, .change .step]

/-- Four steps among which each timer ticks by itself. -/
def stepsAmongDecays : List Happening :=
  [.sound .decay, .sound .ring, .change .step, .change .step, .change .step, .delay .decay, .change .step]

/-- A key is pressed and the delay timer ticks. -/
def stepsUnderKey : List Happening :=
  [.change (.setKeys 4), .change .step, .change .step, .delay .decay, .change .step, .change .step]

/-- The same while the sound timer runs. -/
def stepsUnderKeyAndSound : List Happening :=
  [.sound .decay, .change (.setKeys 4), .change .step, .sound (.set 2), .change .step, .delay .decay, .change .step,
    .sound .decay, .change .step]

theorem devices_unseen_twice :
    (asksForByte.Agree (fun _ => false) 1 asksForByteToo ∧
      RunAlike (fun _ => false) 1 asksForByte asksForByteToo stepsAmongTicks stepsAmongDecays) ∧
    (readsDevices.Agree (· != .sound) 0 { readsDevices with sound := ⟨9, 0, 0⟩ } ∧
      RunAlike (· != .sound) 0 readsDevices { readsDevices with sound := ⟨9, 0, 0⟩ } stepsUnderKey
        stepsUnderKeyAndSound) ∧
    (asksForByteToo.after stepsAmongDecays).reg 1 = 9 ∧ (readsDevices.after stepsUnderKey).reg 2 = 2 := by
  have agree : asksForByte.Agree (fun _ => false) 1 asksForByteToo := by
    refine ⟨rfl, rfl, rfl, rfl, rfl, rfl, ⟨fun k => ?_, rfl⟩, nofun, nofun, nofun, nofun⟩
    show (RandomSource.scripted [.byte 4, .byte 9]).answers (1 + k) = (RandomSource.scripted [.byte 9]).answers (0 + k)
    rw [Nat.add_comm 1, Nat.zero_add]
    rfl
  have agree' : readsDevices.Agree (· != .sound) 0 { readsDevices with sound := ⟨9, 0, 0⟩ } :=
    ⟨rfl, rfl, rfl, rfl, rfl, rfl, ⟨fun _ => rfl, rfl⟩, fun _ => rfl, fun _ => rfl, fun _ => rfl, nofun⟩
  refine ⟨⟨agree, devices_unseen.1 _ _ _ _ _ agree (by decide +kernel) (by decide +kernel)⟩,
    ⟨agree', devices_unseen.2 _ _ _ _ _ agree' (by decide +kernel)⟩, by decide +kernel, by decide +kernel⟩

end Machine

end Chip8
