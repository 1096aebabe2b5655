import Chip8.Proofs.History

/-!
# Machines that differ in the keypad and the timers

Keys are pressed and timers tick at any moment, and neither is something that a program does. `Machine.Alike m m'` says
that `m'` is `m` with another keypad and other timers. Such machines meet the same word, and a step of one ends a run
just when a step of the other does, and in the same way (`Alike.failure?_eq`). An event that neither belongs to the loop
nor edits the machine leaves a runner with a live loop as it was, up to the keypad and the timers
(`Runner.happen_of_live`).
-/

namespace Chip8

namespace Machine

/-- The second machine is the first one with some keypad and some timers. -/
def Alike (m m' : Machine) : Prop :=
  ∃ keypad delay sound, m' = { m with keypad := keypad, delay := delay, sound := sound }

/-- How the step of a machine ends a run. -/
def failure? (m : Machine) : Option RunEnd :=
  match m.step.1 with
  | .faulted f => some (.faulted f)
  | .crashed _ => some .crashed
  | _ => none

theorem attempt_crashed {m : Machine} {message : String} (h : m.attempt.1 = .crashed message) :
    Word.kind m.fetch = 0xC ∧ m.random.next.1 = .crash message := by
  unfold attempt at h
  cases hi : Instruction.decode m.fetch with
  | random x nn =>
    rw [hi, perform] at h
    rcases m.advance.randomByte_cases m.pc m.fetch x nn with ⟨b, -, hr⟩ | ⟨cause, -, hr⟩ | ⟨message', hn, hr⟩ <;>
      rw [hr] at h <;> cases h
    exact ⟨(Instruction.decode_eq_random_iff.mp hi).1, hn⟩
  | ret =>
    rw [hi, perform] at h
    rcases m.advance.ret_cases m.pc m.fetch with ⟨-, hr⟩ | ⟨top, rest, -, hr⟩ <;> rw [hr] at h <;> cases h
  | call nnn =>
    rw [hi, perform] at h
    rcases m.advance.call_cases m.pc m.fetch nnn with ⟨limit, -, -, hc⟩ | ⟨-, hc⟩ <;> rw [hc] at h <;> cases h
  | waitKey x =>
    rw [hi, perform] at h
    rcases m.advance.waitKey_cases x with ⟨key, -, hw⟩ | ⟨-, hw⟩ <;> rw [hw] at h <;> cases h
  | _ =>
    rw [hi, perform] at h
    cases h

/-- A step breaks off just when it asks the random source and that breaks off. -/
theorem step_crashed_iff {m : Machine} {message : String} :
    m.step.1 = .crashed message ↔ Word.kind m.fetch = 0xC ∧ m.random.next.1 = .crash message := by
  constructor
  · intro h
    rw [step_fst] at h
    exact attempt_crashed h
  · rintro ⟨hk, hn⟩
    rw [step_fst, attempt, Instruction.decode_eq_random_iff.mpr ⟨hk, rfl, rfl⟩, perform]
    rcases m.advance.randomByte_cases m.pc m.fetch (Word.x m.fetch) (Word.nn m.fetch) with
      ⟨b, hb, -⟩ | ⟨cause, hc, -⟩ | ⟨message', hc, hr⟩
    · cases hn.symm.trans hb
    · cases hn.symm.trans hc
    · cases hn.symm.trans hc
      rw [hr]

namespace Alike

variable {m m' m'' : Machine}

theorem refl (m : Machine) : Alike m m := ⟨m.keypad, m.delay, m.sound, rfl⟩

theorem symm (h : Alike m m') : Alike m' m := by
  obtain ⟨keypad, delay, sound, rfl⟩ := h
  exact ⟨m.keypad, m.delay, m.sound, rfl⟩

theorem trans (h : Alike m m') (h' : Alike m' m'') : Alike m m'' := by
  obtain ⟨keypad, delay, sound, rfl⟩ := h
  obtain ⟨keypad', delay', sound', rfl⟩ := h'
  exact ⟨keypad', delay', sound', rfl⟩

theorem setKeys (m : Machine) (mask : UInt16) : Alike m (m.setKeys mask) := ⟨_, _, _, rfl⟩

theorem tick (m : Machine) : Alike m m.tick := ⟨_, _, _, rfl⟩

theorem pc_eq (h : Alike m m') : m'.pc = m.pc := by
  obtain ⟨keypad, delay, sound, rfl⟩ := h
  rfl

theorem fetch_eq (h : Alike m m') : m'.fetch = m.fetch := by
  obtain ⟨keypad, delay, sound, rfl⟩ := h
  rfl

theorem random_eq (h : Alike m m') : m'.random = m.random := by
  obtain ⟨keypad, delay, sound, rfl⟩ := h
  rfl

theorem config_eq (h : Alike m m') : m'.config = m.config := by
  obtain ⟨keypad, delay, sound, rfl⟩ := h
  rfl

theorem faults {f : Fault} (h : Alike m m') (hf : m.Faults f) : m'.Faults f := by
  obtain ⟨keypad, delay, sound, rfl⟩ := h
  cases hf with
  | unknown hd => exact .unknown hd
  | underflow hw hs => exact .underflow hw hs
  | overflow hk hl hd => exact .overflow hk hl hd
  | random hk hn => exact .random hk hn

theorem failure?_of_eq {result : RunEnd} (h : Alike m m') (hr : m.failure? = some result) :
    m'.failure? = some result := by
  unfold failure? at hr
  split at hr
  · rename_i f hf
    have hf' : m'.step.1 = .faulted f := step_faulted_iff.mpr (h.faults (step_faulted_iff.mp hf))
    rw [failure?, hf']
    exact hr
  · rename_i message hc
    have hc' : m'.step.1 = .crashed message := by
      rw [step_crashed_iff, h.fetch_eq, h.random_eq]
      exact step_crashed_iff.mp hc
    rw [failure?, hc']
    exact hr
  · cases hr

/-- Neither the keypad nor a timer decides whether a step ends a run, or how. -/
theorem failure?_eq (h : Alike m m') : m'.failure? = m.failure? := by
  apply Option.ext
  intro result
  exact ⟨h.symm.failure?_of_eq, h.failure?_of_eq⟩

end Alike

end Machine

/-! ## Events beside a live loop -/

/-- Whether the host asks a run to stop, and waits for it or not. -/
def Event.stops : Event → Bool
  | .requestStop | .stop | .command .pause => true
  | _ => false

namespace Runner

theorem result?_of_live {r : Runner} (live : r.isLive = true) : r.result? = none := by
  obtain ⟨m, stop, b, loop, journal, refusal⟩ := r
  cases loop with
  | none => cases live
  | some l => exact Option.isNone_iff_eq_none.mp live

theorem poll_of_live {r : Runner} (live : r.isLive = true) : r.poll = (none, r) := by
  rw [poll, result?_of_live live]

/-- Beside a live loop only its own actions, a stop and an edit do anything that is not the keypad or a timer. -/
theorem happen_of_live {r : Runner} {e : Event} (live : r.isLive = true) (ha : e.isAct = false)
    (hs : e.stops = false) (he : e.edits r.machine.config = false) :
    (r.happen e).loop = r.loop ∧ (r.happen e).stopRequested = r.stopRequested ∧
      r.machine.Alike (r.happen e).machine := by
  have same : (r.happen e) = r → (r.happen e).loop = r.loop ∧ (r.happen e).stopRequested = r.stopRequested ∧
      r.machine.Alike (r.happen e).machine := by
    intro h
    rw [h]
    exact ⟨rfl, rfl, .refl _⟩
  cases e with
  | act => cases ha
  | requestStop | stop => cases hs
  | start => exact same (by rw [happen, start_of_live live])
  | collect => exact same (if_pos live)
  | poll => exact same (by rw [happen, poll_of_live live])
  | step => exact same (by rw [happen, step_of_isLive live])
  | load program =>
    -- what does not fit is refused
    have hfit : ¬ r.machine.config.programOffset.toNat + program.length ≤ Memory.size := of_decide_eq_false he
    exact same (by simp only [happen, load, Machine.load, if_neg hfit])
  | setKeys mask => exact ⟨rfl, rfl, .setKeys _ _⟩
  | tick => exact ⟨rfl, rfl, .tick _⟩
  | refuse => exact ⟨rfl, rfl, .refl _⟩
  | command c =>
    cases c with
    | run => exact same (by rw [happen, Debugger.execute, debugger_run_snd, start_of_live live])
    | pause => cases hs
    | step => exact same (by rw [happen, Debugger.execute, debugger_step_snd, step_of_isLive live])
    | set target value =>
      have hv : target.limit < value.toNat := Nat.lt_of_not_le (of_decide_eq_false he)
      exact same (by simp only [happen, Debugger.execute, if_pos hv])
    | _ => exact ⟨rfl, rfl, .refl _⟩

end Runner

end Chip8
