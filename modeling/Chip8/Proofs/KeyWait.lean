import Chip8.Proofs.Alike
import Chip8.Proofs.Control
import Chip8.Proofs.RunMode

/-!
# Waiting for a key

A loop that meets `Fx0A` executes it again and again: without a key the step does nothing, the loop looks at the keypad
until a key is held, and then tries the instruction anew. The key that ended the looks may be up again by then, so only
the keypad of the last try counts.

- `Keypad.await_eq_some_iff`: which of several looks ends a wait, and with what.
- `Runner.AtKeyWait r x`: the loop of `r` is at an instruction that waits for a key, somewhere between two tries. It
  stays there, with the machine as it was up to the keypad and the timers, until a try sees a key (`AtKeyWait.happen`).
- `Runner.key_wait` puts this together for every history beside the loop.
-/

namespace Chip8

/-! ## Looking at the keypad -/

namespace Keypad

/-- The key is held, and none of a lower number is. -/
def IsLowest (p : Keypad) (key : Nibble) : Prop :=
  p.mask.toNat.testBit key.val = true ∧ ∀ k < key, p.mask.toNat.testBit k.val = false

theorem lowest?_eq_some_iff {p : Keypad} {key : Nibble} : p.lowest? = some key ↔ p.IsLowest key := by
  rw [lowest?, List.find?_eq_some_iff_getElem]
  constructor
  · rintro ⟨hk, i, hi, rfl, hlow⟩
    refine ⟨hk, fun k hlt => ?_⟩
    have hlt' : k.val < i := by simpa [Fin.lt_def] using hlt
    simpa using hlow k.val hlt'
  · rintro ⟨hk, hlow⟩
    refine ⟨hk, key.val, by simp, by simp, fun j hj => ?_⟩
    have hj' : (⟨j, Nat.lt_trans hj key.isLt⟩ : Nibble) < key := hj
    simpa using hlow _ hj'

/-- A look that does not end the wait. -/
theorem look_eq_none_iff {cancel : Bool} {p : Keypad} : p.look cancel = none ↔ cancel = false ∧ p.mask = 0 := by
  cases cancel with
  | true => simp [look]
  | false => simp [look, lowest?_eq_none_iff]

theorem look_eq_cancelled_iff {cancel : Bool} {p : Keypad} : p.look cancel = some .cancelled ↔ cancel = true := by
  cases cancel with
  | true => simp [look]
  | false => simp [look]

theorem look_eq_pressed_iff {cancel : Bool} {p : Keypad} {key : Nibble} :
    p.look cancel = some (.pressed key) ↔ cancel = false ∧ p.IsLowest key := by
  cases cancel with
  | true => simp [look]
  | false => simp [look, lowest?_eq_some_iff]

theorem IsLowest.mask_ne_zero {p : Keypad} {key : Nibble} (h : p.IsLowest key) : p.mask ≠ 0 := by
  intro h0
  have hl := lowest?_eq_some_iff.mpr h
  rw [lowest?_eq_none_iff.mpr h0] at hl
  cases hl

/-- Why a look ends the wait. -/
def Ends (cancel : Bool) (p : Keypad) : Wait → Prop
  | .cancelled => cancel = true
  | .pressed key => cancel = false ∧ p.mask ≠ 0 ∧ p.IsLowest key

theorem look_eq_some_iff {cancel : Bool} {p : Keypad} {w : Wait} : p.look cancel = some w ↔ Ends cancel p w := by
  cases w with
  | cancelled => exact look_eq_cancelled_iff
  | pressed key =>
    rw [look_eq_pressed_iff]
    exact ⟨fun h => ⟨h.1, h.2.mask_ne_zero, h.2⟩, fun h => ⟨h.1, h.2.2⟩⟩

/-- A wait ends in the first look that finds it cancelled or a key held, and tells which of the two. -/
theorem await_eq_some_iff {looks : List (Bool × Keypad)} {w : Wait} :
    await looks = some w ↔ ∃ before cancel p later, looks = before ++ (cancel, p) :: later ∧
      (∀ l ∈ before, l.1 = false ∧ l.2.mask = 0) ∧ Ends cancel p w := by
  rw [await, List.findSome?_eq_some_iff]
  constructor
  · rintro ⟨before, ⟨cancel, p⟩, later, hl, hw, hn⟩
    exact ⟨before, cancel, p, later, hl, fun l hm => look_eq_none_iff.mp (hn l hm), look_eq_some_iff.mp hw⟩
  · rintro ⟨before, cancel, p, later, hl, hn, hw⟩
    exact ⟨before, (cancel, p), later, hl, look_eq_some_iff.mpr hw, fun l hm => look_eq_none_iff.mpr (hn l hm)⟩

end Keypad

/-! ## The instruction -/

theorem Machine.step_of_waitKey {m : Machine} {x key : Nibble} (hd : Instruction.decode m.fetch = .waitKey x)
    (hk : m.keypad.lowest? = some key) : m.step = (.executed, m.advance.setReg x (UInt8.ofNat key.val)) := by
  apply step_of_executed
  rw [attempt, hd, perform]
  rcases m.advance.waitKey_cases x with ⟨key', hk', hw⟩ | ⟨hn, -⟩
  · cases hk.symm.trans hk'
    exact hw
  · cases hk.symm.trans hn

theorem Machine.waits_of_waitKey {m : Machine} {x : Nibble} (hd : Instruction.decode m.fetch = .waitKey x)
    (hk : m.keypad.mask = 0) : m.Waits :=
  ⟨(Instruction.decode_eq_waitKey_iff.mp hd).1, hk⟩

/-! ## Between two tries -/

/-- The loop is at the instruction at `pc`: it has yet to execute it, or to try it again. -/
def Phase.IsAt (pc : UInt16) : Phase → Prop
  | .ready | .execute => True
  | .keyWait a | .check a | .compare a => a = pc
  | .ended _ => False

/-- The actions up to the next try, if a key is held. -/
def Phase.untilTry : Phase → Nat
  | .execute | .ended _ => 0
  | .ready => 1
  | .compare _ => 2
  | .check _ => 3
  | .keyWait _ => 4

/-- Whether the host stops the run or edits a machine with these settings. -/
def Event.disturbs (c : Config) (e : Event) : Bool := e.stops || e.edits c

namespace Runner

/-- The loop, which nobody has asked to stop, is at an instruction that waits for a key and bears no breakpoint. -/
structure AtKeyWait (r : Runner) (x : Nibble) : Prop where
  stop : r.stopRequested = false
  loop : ∃ phase b, r.loop = some ⟨phase, b⟩ ∧ phase.IsAt r.machine.pc ∧ b.contains r.machine.pc = false
  decode : Instruction.decode r.machine.fetch = .waitKey x

/-- Whether the event makes the loop execute an instruction that is then done. -/
def completes (r : Runner) (e : Event) : Bool := r.executes e && decide (r.machine.step.1 = .executed)

theorem executes_iff {r : Runner} {e : Event} :
    r.executes e = true ↔ e = .act ∧ ∃ b, r.loop = some ⟨.execute, b⟩ := by
  obtain ⟨m, stop, b, loop, journal⟩ := r
  constructor
  · intro h
    obtain ⟨ha, hl⟩ := Bool.and_eq_true_iff.mp h
    refine ⟨Event.eq_act_of_isAct ha, ?_⟩
    cases loop with
    | none => cases hl
    | some l =>
      obtain ⟨phase, b'⟩ := l
      cases phase with
      | execute => exact ⟨b', rfl⟩
      | _ => cases hl
  · rintro ⟨rfl, b', hl⟩
    cases hl
    rfl

namespace AtKeyWait

variable {r : Runner} {x : Nibble} {e : Event}

theorem isLive (h : r.AtKeyWait x) : r.isLive = true := by
  obtain ⟨phase, b, hl, hat, -⟩ := h.loop
  rw [Runner.isLive, hl]
  cases phase with
  | ended => cases hat
  | _ => rfl

/-- A machine alike is at the same instruction. -/
theorem of_alike {r' : Runner} {phase : Phase} {b : Breakpoints} (h : r.AtKeyWait x)
    (hm : r.machine.Alike r'.machine) (hs : r'.stopRequested = r.stopRequested) (hl : r'.loop = some ⟨phase, b⟩)
    (hat : phase.IsAt r.machine.pc) (hb : b.contains r.machine.pc = false) : r'.AtKeyWait x where
  stop := hs.trans h.stop
  loop := ⟨phase, b, hl, by rw [hm.pc_eq]; exact hat, by rw [hm.pc_eq]; exact hb⟩
  decode := by rw [hm.fetch_eq]; exact h.decode

/-- A try that sees no key. -/
theorem act_of_released {b : Breakpoints} (h : r.AtKeyWait x) (hl : r.loop = some ⟨.execute, b⟩)
    (hk : r.machine.keypad.mask = 0) :
    r.act.machine = r.machine ∧ r.act.loop = some ⟨.keyWait r.machine.pc, b⟩ := by
  have hstep := Machine.step_of_waits (Machine.waits_of_waitKey h.decode hk)
  rw [act_machine_eq hl, act_loop hl]
  show (RunLoop.execute r.machine).2.1 = _ ∧ some (⟨(RunLoop.execute r.machine).1, b⟩ : RunLoop) = _
  rw [RunLoop.execute_machine, RunLoop.execute_phase, hstep]
  exact ⟨rfl, rfl⟩

/-- A try that sees a key. -/
theorem step_of_held (h : r.AtKeyWait x) (hk : r.machine.keypad.mask ≠ 0) :
    ∃ key, r.machine.keypad.IsLowest key ∧
      r.machine.step = (.executed, r.machine.advance.setReg x (UInt8.ofNat key.val)) := by
  cases hl : r.machine.keypad.lowest? with
  | none => exact absurd (Keypad.lowest?_eq_none_iff.mp hl) hk
  | some key => exact ⟨key, Keypad.lowest?_eq_some_iff.mp hl, Machine.step_of_waitKey h.decode hl⟩

theorem completes_iff (h : r.AtKeyWait x) :
    r.completes e = true ↔ r.executes e = true ∧ r.machine.keypad.mask ≠ 0 := by
  rw [completes, Bool.and_eq_true_iff, decide_eq_true_iff]
  refine and_congr_right fun _ => ⟨fun he hk => ?_, fun hk => ?_⟩
  · rw [Machine.step_of_waits (Machine.waits_of_waitKey h.decode hk)] at he
    cases he
  · obtain ⟨key, -, hs⟩ := h.step_of_held hk
    rw [hs]

theorem happen_of_executes (hx : r.executes e = true) : (r.happen e).machine = r.machine.step.2 := by
  obtain ⟨rfl, b, hl⟩ := executes_iff.mp hx
  show r.act.machine = _
  rw [act_machine_eq hl]
  exact RunLoop.execute_machine r.machine

/-- An action of the loop that does not complete the instruction. -/
theorem act (h : r.AtKeyWait x) (hc : r.completes .act = false) :
    r.act.AtKeyWait x ∧ r.machine.Alike r.act.machine := by
  obtain ⟨phase, b, hl, hat, hb⟩ := h.loop
  have hs := r.act_stopRequested
  have hloop := act_loop hl
  rw [h.stop] at hloop
  -- in all phases but one the machine stays as it is
  have stays : ∀ {phase' : Phase}, r.act.machine = r.machine → r.act.loop = some ⟨phase', b⟩ →
      phase'.IsAt r.machine.pc → r.act.AtKeyWait x ∧ r.machine.Alike r.act.machine := by
    intro phase' hm hl' hat'
    have ha : r.machine.Alike r.act.machine := hm ▸ .refl _
    exact ⟨h.of_alike ha hs hl' hat' hb, ha⟩
  cases phase with
  | ready => exact stays (act_machine_eq hl) hloop trivial
  | execute =>
    have hk : r.machine.keypad.mask = 0 := by
      refine Decidable.byContradiction fun hk => ?_
      have ht := h.completes_iff.mpr ⟨executes_iff.mpr ⟨rfl, b, hl⟩, hk⟩
      cases hc.symm.trans ht
    obtain ⟨hm, hl'⟩ := h.act_of_released hl hk
    exact stays hm hl' rfl
  | keyWait a =>
    cases hat
    refine stays (act_machine_eq hl) hloop ?_
    split <;> rfl
  | check a =>
    cases hat
    exact stays (act_machine_eq hl) hloop rfl
  | compare a =>
    cases hat
    have hcmp : RunLoop.compare b r.machine.pc = (.ready, none) := by rw [RunLoop.compare, hb]; rfl
    simp only [RunLoop.act, hcmp] at hloop
    exact stays (act_machine_eq hl) hloop trivial
  | ended result => cases hat

/-- Nothing but the try that completes the instruction moves a waiting loop on. -/
theorem happen (h : r.AtKeyWait x) (hc : r.completes e = false) (he : e.disturbs r.machine.config = false) :
    (r.happen e).AtKeyWait x ∧ r.machine.Alike (r.happen e).machine := by
  obtain ⟨hstops, hedits⟩ := Bool.or_eq_false_iff.mp he
  cases ha : e.isAct with
  | true =>
    obtain rfl := Event.eq_act_of_isAct ha
    exact h.act hc
  | false =>
    obtain ⟨hl, hs, hm⟩ := happen_of_live h.isLive ha hstops hedits
    obtain ⟨phase, b, hl', hat, hb⟩ := h.loop
    exact ⟨h.of_alike hm hs (hl.trans hl') hat hb, hm⟩

theorem after {history : List Event} (h : r.AtKeyWait x)
    (he : ∀ e ∈ history, e.disturbs r.machine.config = false)
    (hc : ∀ n (hn : n < history.length), (r.after (history.take n)).completes history[n] = false) :
    (r.after history).AtKeyWait x ∧ r.machine.Alike (r.after history).machine := by
  induction history generalizing r with
  | nil => exact ⟨h, .refl _⟩
  | cons e rest ih =>
    have hfirst : r.completes e = false := hc 0 (Nat.succ_pos _)
    obtain ⟨h', hm⟩ := h.happen hfirst (he e (.head rest))
    have he' : ∀ e' ∈ rest, e'.disturbs (r.happen e).machine.config = false := by
      intro e' hmem
      rw [hm.config_eq]
      exact he e' (.tail e hmem)
    obtain ⟨h'', hm'⟩ := ih h' he' fun n hn => hc (n + 1) (Nat.succ_lt_succ hn)
    exact ⟨h'', hm.trans hm'⟩

/-- While a key is held, each action that is not a try brings the next try nearer. -/
theorem untilTry_act (h : r.AtKeyWait x) {phase : Phase} {b : Breakpoints} (hl : r.loop = some ⟨phase, b⟩)
    (hk : r.machine.keypad.mask ≠ 0) (hc : r.completes .act = false) :
    ∃ phase', r.act.loop = some ⟨phase', b⟩ ∧ phase'.untilTry + 1 = phase.untilTry := by
  obtain ⟨phase, b, hl', hat, hb⟩ := h.loop
  cases hl.symm.trans hl'
  have hloop := act_loop hl
  rw [h.stop] at hloop
  cases phase with
  | ready => exact ⟨_, hloop, rfl⟩
  | execute =>
    have ht := h.completes_iff.mpr ⟨executes_iff.mpr ⟨rfl, b, hl⟩, hk⟩
    cases hc.symm.trans ht
  | keyWait a =>
    cases hlow : r.machine.keypad.lowest? with
    | none => exact absurd (Keypad.lowest?_eq_none_iff.mp hlow) hk
    | some key =>
      simp only [RunLoop.act, Keypad.look, hlow] at hloop
      exact ⟨_, hloop, rfl⟩
  | check a => exact ⟨_, hloop, rfl⟩
  | compare a =>
    cases hat
    have hcmp : RunLoop.compare b r.machine.pc = (.ready, none) := by rw [RunLoop.compare, hb]; rfl
    simp only [RunLoop.act, hcmp] at hloop
    exact ⟨_, hloop, rfl⟩
  | ended result => cases hat

/-- While a key is held, the loop comes to a try, and that completes the instruction. -/
theorem exists_completes {history : List Event} (h : r.AtKeyWait x)
    (he : ∀ e ∈ history, e.disturbs r.machine.config = false)
    (held : ∀ n ≤ history.length, (r.after (history.take n)).machine.keypad.mask ≠ 0)
    {phase : Phase} {b : Breakpoints} (hl : r.loop = some ⟨phase, b⟩) (ha : phase.untilTry < Event.acts history) :
    ∃ n, ∃ hn : n < history.length, (r.after (history.take n)).completes history[n] = true := by
  induction history generalizing r phase with
  | nil => exact absurd ha (Nat.not_lt_zero _)
  | cons e rest ih =>
    cases hc : r.completes e with
    | true => exact ⟨0, Nat.succ_pos _, hc⟩
    | false =>
      obtain ⟨h', hm⟩ := h.happen hc (he e (.head rest))
      have he' : ∀ e' ∈ rest, e'.disturbs (r.happen e).machine.config = false := by
        intro e' hmem
        rw [hm.config_eq]
        exact he e' (.tail e hmem)
      have held' : ∀ n ≤ rest.length, ((r.happen e).after (rest.take n)).machine.keypad.mask ≠ 0 := fun n hn =>
        held (n + 1) (Nat.succ_le_succ hn)
      have next : ∃ phase', (r.happen e).loop = some ⟨phase', b⟩ ∧ phase'.untilTry < Event.acts rest := by
        rw [Event.acts_cons] at ha
        cases hact : e.isAct with
        | true =>
          obtain rfl := Event.eq_act_of_isAct hact
          obtain ⟨phase', hl', hu⟩ := h.untilTry_act hl (held 0 (Nat.zero_le _)) hc
          have hone : Event.acts [Event.act] = 1 := rfl
          exact ⟨phase', hl', by omega⟩
        | false =>
          obtain ⟨hstops, hedits⟩ := Bool.or_eq_false_iff.mp (he e (.head rest))
          rw [Event.acts_of_not_isAct hact, Nat.zero_add] at ha
          exact ⟨phase, (happen_of_live h.isLive hact hstops hedits).1.trans hl, ha⟩
      obtain ⟨phase', hl', hu⟩ := next
      obtain ⟨n, hn, hcn⟩ := ih h' he' held' hl' hu
      exact ⟨n + 1, Nat.succ_lt_succ hn, hcn⟩

end AtKeyWait

/-! ## The whole wait -/

/-- What holds as long as no try has completed the instruction at which the loop of `r` came to wait. -/
structure StillWaits (r : Runner) (x : Nibble) (now : Runner) : Prop where
  live : now.isLive = true
  machine : r.machine.Alike now.machine
  completes_iff (e : Event) : now.completes e = true ↔ now.executes e = true ∧ now.machine.keypad.mask ≠ 0
  completed (e : Event) : now.completes e = true → ∃ key, now.machine.keypad.IsLowest key ∧
    (now.happen e).machine.pc.toNat = (now.machine.pc.toNat + 2) % 4096 ∧
    (now.happen e).machine =
      { now.machine.setReg x (UInt8.ofNat key.val) with pc := (now.happen e).machine.pc }
  /-- A try without a key stores nothing, and the loop looks at the keypad again. -/
  retried (e : Event) : now.executes e = true → now.machine.keypad.mask = 0 →
    (now.happen e).machine = now.machine ∧ ∃ b, (now.happen e).loop = some ⟨.keyWait now.machine.pc, b⟩
  /-- A look at the keypad ends the looks just when a key is held. -/
  woken (a : UInt16) (b : Breakpoints) : now.loop = some ⟨.keyWait a, b⟩ →
    now.act.loop = some ⟨if now.machine.keypad.mask = 0 then .keyWait a else .check a, b⟩
  /-- Five actions while keys are held are enough. -/
  progress (later : List Event) : (∀ e ∈ later, e.disturbs r.machine.config = false) →
    (∀ n ≤ later.length, (now.after (later.take n)).machine.keypad.mask ≠ 0) → 5 ≤ Event.acts later →
    ∃ n, ∃ hn : n < later.length, (now.after (later.take n)).completes later[n] = true

theorem stillWaits_of_alike {r now : Runner} {x : Nibble} (h : now.AtKeyWait x) (hm : r.machine.Alike now.machine) :
    r.StillWaits x now := by
  obtain ⟨phase, b, hl, hat, -⟩ := h.loop
  refine ⟨h.isLive, hm, fun e => h.completes_iff, fun e hc => ?_, fun e hx hk => ?_, fun a b' hl' => ?_,
    fun later he held ha => ?_⟩
  · obtain ⟨hx, hk⟩ := h.completes_iff.mp hc
    obtain ⟨key, hlow, hs⟩ := h.step_of_held hk
    have hmachine : (now.happen e).machine = now.machine.advance.setReg x (UInt8.ofNat key.val) := by
      rw [AtKeyWait.happen_of_executes hx, hs]
    refine ⟨key, hlow, ?_, ?_⟩
    · rw [hmachine]
      exact now.machine.toNat_advance_pc
    · rw [hmachine]
      rfl
  · obtain ⟨rfl, b', hl'⟩ := executes_iff.mp hx
    obtain ⟨hm', hl''⟩ := h.act_of_released hl' hk
    exact ⟨hm', b', hl''⟩
  · rw [act_loop hl', h.stop]
    simp only [RunLoop.act, Keypad.look]
    by_cases hk : now.machine.keypad.mask = 0
    · simp [hk, Keypad.lowest?_eq_none_iff.mpr hk]
    · obtain ⟨key, hlow⟩ : ∃ key, now.machine.keypad.lowest? = some key :=
        Option.ne_none_iff_exists'.mp fun hn => hk (Keypad.lowest?_eq_none_iff.mp hn)
      simp [hk, hlow]
  · refine h.exists_completes (fun e hmem => ?_) held hl ?_
    · rw [hm.config_eq]
      exact he e hmem
    · have hu : phase.untilTry ≤ 4 := by cases phase <;> simp [Phase.untilTry]
      omega

/-- A loop that comes to an instruction that waits for a key stays at it, with the machine as it was up to the keypad
and the timers, until it tries the instruction while a key is held; that try stores the lowest key held then. The looks
at the keypad between two tries end without a key only if they are cancelled. -/
theorem key_wait {r : Runner} {x : Nibble} (arrived : r.AtKeyWait x) :
    (∀ history : List Event, (∀ e ∈ history, e.disturbs r.machine.config = false) →
      (∀ n (hn : n < history.length), (r.after (history.take n)).completes history[n] = false) →
      r.StillWaits x (r.after history)) ∧
    ∀ looks w, Keypad.await looks = some w ↔ ∃ before cancel p later, looks = before ++ (cancel, p) :: later ∧
      (∀ l ∈ before, l.1 = false ∧ l.2.mask = 0) ∧ Keypad.Ends cancel p w := by
  refine ⟨fun history he hc => ?_, fun looks w => Keypad.await_eq_some_iff⟩
  obtain ⟨h, hm⟩ := arrived.after he hc
  exact stillWaits_of_alike h hm

/-- A runner whose program waits for a key and keeps it in `V3`. -/
def oneKey : Runner :=
  (ofMachine { Machine.initial Config.standard (.scripted []) with
    memory := Memory.zero.writeMany 0x200 [0xF3, 0x0A] }).start.2

/-- Key 9 ends the looks but is up again at the next try; then keys 5 and 9 are held. -/
theorem key_wait_oneKey :
    let history : List Event := [.act, .act, .setKeys 0x200, .act, .setKeys 0, .act, .act, .act, .act, .setKeys 0x220]
    oneKey.AtKeyWait 3 ∧ (oneKey.after (history.take 8)).executes .act = true ∧
      oneKey.machine.Alike (oneKey.after history).machine ∧
      ∃ later : List Event, (oneKey.after (history ++ later)).machine.reg 3 = 5 := by
  intro history
  have arrived : oneKey.AtKeyWait 3 := by
    refine ⟨by decide +kernel, ⟨.ready, .empty, by decide +kernel, trivial, by decide +kernel⟩, by decide +kernel⟩
  have h := (key_wait arrived).1 history (by decide +kernel) (by decide +kernel)
  exact ⟨arrived, by decide +kernel, h.machine, [.act, .act, .act, .act, .act], by decide +kernel⟩

end Runner

end Chip8
