import Chip8.Proofs.Pace
import Chip8.Proofs.RunMode

/-!
# Run mode agrees with step mode

`Paced.Tracks` is the invariant of a run that goes on: it has done some direct steps (`Runner.Tracks`), and its ticks
are no more periods after the last reading of the clock than there were rounds. `Paced.Broke` says where a loop has
broken off. One event keeps them (`Stands.happen`), so a history does, and that gives what a run has to do with direct
steps (`Runner.run_agrees`). A loop on settings that are accepted may break off before its first step
(`Runner.run_disagrees`).
-/

namespace Chip8

/-- The event concerns neither the run nor the machine, and the clock reads `latest` or less. -/
structure Timed.Calm (latest : Duration) (t : Timed) : Prop where
  passive : t.event.Passive
  now : t.now ≤ latest
  again : t.again ≤ latest

namespace Paced

/-- The number of instructions that the loop executes in a history. -/
def stepsIn (p : Paced) : List Timed → Nat
  | [] => 0
  | t :: rest => (p.runner.executes t.event).toNat + (p.happen t).stepsIn rest

/-! ## Runs -/

/-- One if the loop has set its tick for a step that it has not done yet. -/
def pending (p : Paced) : Nat := (p.timed || p.runner.executes .act).toNat

/-- A run of a machine `m` that nobody has asked to stop, after so many actions and instructions. -/
structure Tracks (b : Breakpoints) (m : Machine) (latest : Duration) (acts steps : Nat) (p : Paced) : Prop where
  run : ∃ untimed, acts ≤ untimed + (steps + p.pending) ∧ p.runner.Tracks b m untimed steps
  due : p.due ≤ latest.later (steps + p.pending) m.config.cpuPeriod
  ready : p.timed = true → p.runner.isReady = true

/-- A run of a machine `m` that has broken off in the round after so many instructions. -/
structure Broke (b : Breakpoints) (m : Machine) (latest : Duration) (steps : Nat) (p : Paced) : Prop where
  loop : p.runner.loop = some ⟨.ended .crashed, b⟩
  machine : p.runner.machine = m.stepped steps
  passes : ∀ j < steps, m.Passes b j
  overflow : (latest.later (steps + 1) m.config.cpuPeriod).isCounted = false

/-- Where a run stands. -/
inductive Stands (b : Breakpoints) (m : Machine) (latest : Duration) (acts steps : Nat) (p : Paced) : Prop
  | going : Tracks b m latest acts steps p → Stands b m latest acts steps p
  | broken : Broke b m latest steps p → Stands b m latest acts steps p

variable {b : Breakpoints} {m : Machine} {latest : Duration} {acts steps : Nat} {p : Paced} {t : Timed}

theorem pending_le_one (p : Paced) : p.pending ≤ 1 := Bool.toNat_le _

namespace Tracks

theorem start {r : Runner} (idle : r.isLive = false) (started : r.refusal = none) {first : Duration}
    (hfirst : first ≤ latest) : Tracks r.breakpoints r.machine latest 0 0 (Paced.start first r) where
  run := ⟨0, Nat.zero_le _, Runner.Tracks.start idle started⟩
  due := Nat.le_trans hfirst (Nat.le_add_right _ _)
  ready := nofun

theorem config_eq (h : Tracks b m latest acts steps p) : p.runner.machine.config = m.config := by
  obtain ⟨untimed, -, hr⟩ := h.run
  rw [hr.machine_eq]
  exact m.stepped_config steps

/-- The run goes on with some more actions, instructions and ticks. -/
theorem goOn {steps' k : Nat} {p' : Paced} (h : Tracks b m latest acts steps p)
    (run : ∀ untimed, p.runner.Tracks b m untimed steps → p'.runner.Tracks b m (untimed + k) steps')
    (hle : steps + p.pending ≤ steps' + p'.pending) (due : p'.due = p.due ∨ p'.due ≤ latest)
    (ready : p'.timed = true → p'.runner.isReady = true) : Tracks b m latest (acts + k) steps' p' := by
  obtain ⟨untimed, hacts, hr⟩ := h.run
  refine ⟨⟨untimed + k, by omega, run untimed hr⟩, ?_, ready⟩
  rcases due with hd | hd
  · rw [hd]
    exact Nat.le_trans h.due (Duration.later_le_later _ _ hle)
  · exact Nat.le_trans hd (Nat.le_add_right _ _)

/-- An action that is one of the untimed loop. -/
theorem act (h : Tracks b m latest acts steps p) :
    Tracks b m latest (acts + 1) (steps + (p.runner.executes .act).toNat)
      { p with runner := p.runner.act, timed := false } := by
  refine h.goOn (fun untimed hr => hr.happen (e := .act) ⟨rfl, rfl, rfl⟩) ?_ (.inl rfl) nofun
  obtain ⟨untimed, -, hr⟩ := h.run
  rw [Nat.add_assoc]
  refine Nat.add_le_add_left ?_ _
  cases hx : p.runner.executes .act with
  | true => exact Nat.le_trans p.pending_le_one (Nat.le_add_right _ _)
  | false =>
    rw [pending, hx, Bool.or_false]
    cases ht : p.timed with
    | false => exact Nat.zero_le _
    | true =>
      -- the tick is set, so the loop is at the beginning of a round
      rw [pending, Runner.executes_act_of_isReady (h.ready ht) hr.stop]
      exact Nat.le_refl _

/-- An event beside the loop. -/
theorem beside (h : Tracks b m latest acts steps p) (calm : t.Calm latest) (ha : t.event.isAct = false) :
    Tracks b m latest acts steps (p.happen t) := by
  have hloop := (p.runner.happen_run ha calm.passive.run).1
  have hexecutes : (p.runner.happen t.event).executes .act = p.runner.executes .act := by
    rw [Runner.executes, Runner.executes, hloop]
  have hready : (p.runner.happen t.event).isReady = p.runner.isReady := by rw [Runner.isReady, Runner.isReady, hloop]
  have run : ∀ untimed, p.runner.Tracks b m untimed steps →
      (p.runner.happen t.event).Tracks b m (untimed + 0) steps := by
    intro untimed hr
    have hx : p.runner.executes t.event = false := by rw [Runner.executes, ha, Bool.false_and]
    have hr' := hr.happen calm.passive
    rwa [hx, Event.acts_of_not_isAct ha] at hr'
  rw [happen_of_not_isAct ha]
  cases hlive : p.runner.isLive with
  | true =>
    rw [if_pos rfl]
    refine h.goOn (k := 0) run (Nat.le_of_eq ?_) (.inl rfl) fun ht => hready.trans (h.ready ht)
    rw [pending, pending, hexecutes]
  | false =>
    rw [if_neg Bool.false_ne_true]
    refine h.goOn (k := 0) run (Nat.add_le_add_left ?_ _) (.inr calm.now) fun ht => absurd ht Bool.false_ne_true
    -- a loop that has ended has set no tick
    obtain ⟨hnot, hx⟩ := Runner.of_not_isLive hlive
    have ht : p.timed = false := by
      refine Bool.eq_false_iff.mpr fun ht => ?_
      cases hnot.symm.trans (h.ready ht)
    rw [pending, ht, hx]
    exact Nat.zero_le _

theorem nextTick_le (h : Tracks b m latest acts steps p) :
    p.runner.nextTick p.due ≤ latest.later (steps + p.pending + 1) m.config.cpuPeriod := by
  have hdue : p.due.nanoseconds ≤ latest.nanoseconds + (steps + p.pending) * m.config.cpuPeriod.nanoseconds := h.due
  show p.due.nanoseconds + 1 * p.runner.machine.config.cpuPeriod.nanoseconds ≤
    latest.nanoseconds + (steps + p.pending + 1) * m.config.cpuPeriod.nanoseconds
  rw [h.config_eq, Nat.succ_mul (steps + p.pending)]
  omega

/-- The action that sets the next tick. -/
theorem pace (h : Tracks b m latest acts steps p) (calm : t.Calm latest) (hs : p.sets = true) :
    Stands b m latest (acts + 1) steps (p.pace t.now t.again) := by
  obtain ⟨hready, htimed⟩ := Bool.and_eq_true_iff.mp hs
  obtain ⟨untimed, hacts, hr⟩ := h.run
  have hpending : p.pending = 0 := by
    rw [pending, Runner.not_executes_of_isReady hready, (Bool.not_eq_true' _).mp htimed]
    rfl
  have hnext := h.nextTick_le
  rw [hpending, Nat.add_zero] at hnext
  cases hc : (p.runner.nextTick p.due).isCounted with
  | true =>
    rw [pace_of_counted _ _ hc]
    refine .going ⟨⟨untimed, ?_, hr⟩, ?_, fun _ => hready⟩
    · rw [hpending] at hacts
      exact Nat.succ_le_succ hacts
    · show (if t.now ≤ _ then _ else t.again) ≤ latest.later (steps + 1) _
      split
      · exact hnext
      · exact Nat.le_trans calm.again (Nat.le_add_right _ _)
  | false =>
    rw [pace_of_not_counted _ _ hc]
    obtain ⟨phase, hloop, hf⟩ := hr.loop
    refine .broken ⟨?_, hf.machine_eq, hr.passes_of_isReady hready, ?_⟩
    · show p.runner.loop.map _ = _
      rw [hloop]
      rfl
    · refine Bool.eq_false_iff.mpr fun hcounted => ?_
      cases hc.symm.trans (Duration.isCounted_of_le hnext hcounted)

end Tracks

namespace Broke

theorem not_executes (h : Broke b m latest steps p) (e : Event) : p.runner.executes e = false := by
  rw [Runner.executes, h.loop]
  exact Bool.and_false _

theorem happen (h : Broke b m latest steps p) (calm : t.Calm latest) : Broke b m latest steps (p.happen t) := by
  have hs : p.setsIn t = false := by
    rw [setsIn, sets, Runner.isReady, h.loop]
    exact Bool.and_false _
  have hloop := Runner.happen_loop_of_ended h.loop calm.passive.run
  have hmachine : (p.runner.happen t.event).machine = p.runner.machine := by
    cases ha : t.event.isAct with
    | false => exact p.runner.happen_machine ha calm.passive
    | true =>
      rw [Event.eq_act_of_isAct ha]
      show p.runner.act.machine = p.runner.machine
      rw [Runner.act_machine_eq h.loop]
      rfl
  refine ⟨?_, ?_, h.passes, h.overflow⟩
  · rw [happen_runner hs, hloop, h.loop]
  · rw [happen_runner hs, hmachine, h.machine]

theorem stepsIn_eq {history : List Timed} (h : Broke b m latest steps p) (calm : ∀ t ∈ history, t.Calm latest) :
    p.stepsIn history = 0 := by
  induction history generalizing p with
  | nil => rfl
  | cons t rest ih =>
    rw [stepsIn, h.not_executes, ih (h.happen (calm t (.head rest))) fun t' h' => calm t' (.tail t h')]
    rfl

end Broke

namespace Stands

theorem happen (h : Stands b m latest acts steps p) (calm : t.Calm latest) :
    Stands b m latest (acts + Event.acts [t.event]) (steps + (p.runner.executes t.event).toNat) (p.happen t) := by
  cases h with
  | broken h =>
    rw [h.not_executes]
    exact .broken (h.happen calm)
  | going h =>
    cases ha : t.event.isAct with
    | false =>
      rw [Event.acts_of_not_isAct ha, Runner.executes, ha, Bool.false_and]
      exact .going (h.beside calm ha)
    | true =>
      have hsets : p.setsIn t = p.sets := by rw [setsIn, ha, Bool.true_and]
      cases hs : p.sets with
      | true =>
        rw [happen_of_setsIn (hsets.trans hs), Runner.not_executes_of_isReady (Bool.and_eq_true_iff.mp hs).1,
          Event.eq_act_of_isAct ha]
        exact h.pace calm hs
      | false =>
        rw [happen_of_isAct ha (hsets.trans hs), Event.eq_act_of_isAct ha]
        exact .going h.act

theorem after {history : List Timed} (h : Stands b m latest acts steps p) (calm : ∀ t ∈ history, t.Calm latest) :
    Stands b m latest (acts + Timed.acts history) (steps + p.stepsIn history) (p.after history) := by
  induction history generalizing p acts steps with
  | nil => exact h
  | cons t rest ih =>
    rw [Timed.acts_cons, stepsIn, ← Nat.add_assoc, ← Nat.add_assoc]
    exact ih (h.happen (calm t (.head rest))) fun t' h' => calm t' (.tail t h')

theorem machine_eq (h : Stands b m latest acts steps p) : p.runner.machine = m.stepped steps := by
  cases h with
  | going h =>
    obtain ⟨untimed, -, hrun⟩ := h.run
    exact hrun.machine_eq
  | broken h => exact h.machine

theorem result {result : RunEnd} (h : Stands b m latest acts steps p) (hr : p.runner.result? = some result) :
    m.StopsAt b steps result ∨
      result = .crashed ∧ (∀ j < steps, m.Passes b j) ∧
        (latest.later (steps + 1) m.config.cpuPeriod).isCounted = false := by
  cases h with
  | going h =>
    obtain ⟨untimed, -, hrun⟩ := h.run
    exact .inl (hrun.stopsAt hr)
  | broken h => exact .inr ⟨Option.some.inj (hr.symm.trans (Runner.result?_of_loop h.loop)), h.passes, h.overflow⟩

/-- Five actions are enough for a round with its tick. -/
theorem ended_of_stopsAt {n : Nat} {result : RunEnd} (h : Stands b m latest acts steps p) (hs : m.StopsAt b n result)
    (counted : (latest.later (n + 1) m.config.cpuPeriod).isCounted = true) (ha : 5 * n + 1 ≤ acts) :
    p.runner.result? = some result ∧ steps = n := by
  cases h with
  | going h =>
    obtain ⟨untimed, hacts, hrun⟩ := h.run
    have hsteps := hrun.steps_le hs
    have hpending := p.pending_le_one
    exact hrun.ended_of_stopsAt hs (by omega)
  | broken h =>
    -- the tick that is missing is one of those that are needed
    have hle := Duration.later_le_later latest m.config.cpuPeriod
      (Nat.succ_le_succ (Nat.le_of_lt (hs.lt_of_passes h.passes)))
    cases h.overflow.symm.trans (Duration.isCounted_of_le hle counted)

theorem clear_of_executes (h : Stands b m latest acts steps p) (hx : p.runner.executes .act = true) (hs : 0 < steps) :
    b.contains p.runner.machine.pc = false := by
  cases h with
  | going h =>
    obtain ⟨untimed, -, hrun⟩ := h.run
    exact hrun.clear_of_executes hx hs
  | broken h => cases hx.symm.trans (h.not_executes .act)

end Stands

/-- After enough actions of its loop the run has ended with this result, and the loop has executed just `n`
instructions, whatever else happens that concerns neither the run nor the machine, while the clock reads `latest` or
less. -/
def EndsAfter (p : Paced) (latest : Duration) (n : Nat) (result : RunEnd) : Prop :=
  ∃ enough, ∀ history : List Timed, (∀ t ∈ history, t.Calm latest) → enough ≤ Timed.acts history →
    (p.after history).runner.result? = some result ∧ p.stepsIn history = n

/-- A history in which nothing happens but actions of the loop. -/
theorem calm_replicate (latest : Duration) (n : Nat) :
    (∀ t ∈ List.replicate n (⟨.act, latest, latest⟩ : Timed), t.Calm latest) ∧
      Timed.acts (List.replicate n ⟨.act, latest, latest⟩) = n := by
  refine ⟨fun t ht => ?_, ?_⟩
  · rw [List.eq_of_mem_replicate ht]
    exact ⟨⟨rfl, rfl, rfl⟩, Nat.le_refl _, Nat.le_refl _⟩
  · rw [Timed.acts, List.map_replicate, Event.acts_replicate]

theorem EndsAfter.exists_history {n : Nat} {result : RunEnd} (h : p.EndsAfter latest n result) :
    ∃ history : List Timed, (∀ t ∈ history, t.Calm latest) ∧
      (p.after history).runner.result? = some result ∧ p.stepsIn history = n := by
  obtain ⟨enough, h⟩ := h
  obtain ⟨calm, hacts⟩ := calm_replicate latest enough
  exact ⟨_, calm, h _ calm (Nat.le_of_eq hacts.symm)⟩

end Paced

namespace Runner

open Paced (EndsAfter)

/-- What a run of the runner has to do with direct steps if the clock reads `first` as it starts and never more than
`latest` before it ends. -/
structure Agrees (r : Runner) (first latest : Duration) : Prop where
  /-- The run ends after `n` instructions just if the `n`-th direct step is the first to end one, as long as the clock
  counts to the tick after the last one that this takes. -/
  ends_iff (n : Nat) (result : RunEnd) : (latest.later (n + 1) r.machine.config.cpuPeriod).isCounted = true →
    ((Paced.start first r).EndsAfter latest n result ↔ r.machine.StopsAt r.breakpoints n result)
  machine_eq (history : List Timed) : (∀ t ∈ history, t.Calm latest) →
    ((Paced.start first r).after history).runner.machine = (r.stepped ((Paced.start first r).stepsIn history)).machine
  /-- A run that ends does so as direct steps do, or breaks off in a round whose tick is beyond the clock. -/
  result (history : List Timed) (result : RunEnd) : (∀ t ∈ history, t.Calm latest) →
    ((Paced.start first r).after history).runner.result? = some result →
    let n := (Paced.start first r).stepsIn history
    r.machine.StopsAt r.breakpoints n result ∨
      result = .crashed ∧ (∀ j < n, r.machine.Passes r.breakpoints j) ∧
        (latest.later (n + 1) r.machine.config.cpuPeriod).isCounted = false
  /-- Only the first instruction of the run may stand at a breakpoint. -/
  clear (history : List Timed) : (∀ t ∈ history, t.Calm latest) →
    ((Paced.start first r).after history).runner.executes .act = true → 0 < (Paced.start first r).stepsIn history →
    r.breakpoints.contains ((Paced.start first r).after history).runner.machine.pc = false

theorem stands_after {r : Runner} (idle : r.isLive = false) (started : r.refusal = none) {first latest : Duration}
    (hfirst : first ≤ latest) {history : List Timed} (calm : ∀ t ∈ history, t.Calm latest) :
    Paced.Stands r.breakpoints r.machine latest (Timed.acts history) ((Paced.start first r).stepsIn history)
      ((Paced.start first r).after history) := by
  have h := (Paced.Stands.going (Paced.Tracks.start idle started hfirst)).after calm
  rwa [Nat.zero_add, Nat.zero_add] at h

/-- Run mode agrees with step mode as long as the clock of the loop counts to its ticks. -/
theorem run_agrees {r : Runner} (idle : r.isLive = false) (started : r.refusal = none) {first latest : Duration}
    (hfirst : first ≤ latest) : r.Agrees first latest := by
  refine ⟨fun n result counted => ⟨fun h => ?_, fun hs => ⟨5 * n + 1, fun history calm ha => ?_⟩⟩,
    fun history calm => ?_, fun history result calm hr => ?_, fun history calm hx hs => ?_⟩
  · obtain ⟨history, calm, hr, rfl⟩ := h.exists_history
    rcases (stands_after idle started hfirst calm).result hr with hs | ⟨-, -, overflow⟩
    · exact hs
    · cases counted.symm.trans overflow
  · exact (stands_after idle started hfirst calm).ended_of_stopsAt hs counted ha
  · rw [(stepped_of_idle idle _).2]
    exact (stands_after idle started hfirst calm).machine_eq
  · exact (stands_after idle started hfirst calm).result hr
  · exact (stands_after idle started hfirst calm).clear_of_executes hx hs

/-- A runner whose program is one instruction that leads to a breakpoint. -/
def oneInstruction : Runner where
  machine := { Machine.initial Config.standard (.scripted []) with
    memory := Memory.zero.writeMany 0x200 [0x60, 0x01] }
  stopRequested := false
  breakpoints := Breakpoints.empty.insert 0x202
  loop := none
  journal := []
  refusal := none

/-- On a host that has been up for a day. -/
theorem run_agrees_oneInstruction :
    oneInstruction.isLive = false ∧ oneInstruction.refusal = none ∧
      (Paced.start (.ofParts 86400 0) oneInstruction).EndsAfter (.ofParts 86401 0) 1 (.breakpoint 0x202) := by
  have he : oneInstruction.machine.Ends oneInstruction.breakpoints 0
      (.breakpoint (oneInstruction.machine.stepped 1).pc) :=
    .breakpoint (by decide +kernel) (by decide +kernel)
  have hpc : (oneInstruction.machine.stepped 1).pc = 0x202 := by decide +kernel
  rw [hpc] at he
  have hfirst : Duration.ofParts 86400 0 ≤ .ofParts 86401 0 := by decide +kernel
  exact ⟨rfl, rfl, ((run_agrees rfl rfl hfirst).ends_iff 1 _ (by decide +kernel)).mpr
    ⟨0, rfl, fun j hj => absurd hj (Nat.not_lt_zero j), he⟩⟩

/-- A runner on settings with the longest period that a duration can have. -/
def slowest : Runner :=
  .ofMachine (.initial { Config.standard with cpuPeriod := .ofParts 0xFFFFFFFFFFFFFFFF 0 } (.scripted []))

/-- Whatever the clock reads, the first tick of this runner is beyond it. -/
theorem broke_slowest (first latest : Duration) :
    Paced.Broke .empty slowest.machine latest 0 ((Paced.start first slowest).pace latest latest) := by
  have beyond : ∀ moment : Duration, (slowest.nextTick moment).isCounted = false := by
    intro moment
    refine decide_eq_false (Nat.not_lt.mpr ?_)
    refine (Nat.le_div_iff_mul_le (by decide)).mpr (Nat.le_trans (by decide +kernel) (Nat.le_add_left _ _))
  rw [Paced.pace_of_not_counted latest latest (beyond first)]
  exact ⟨by rfl, by rfl, fun j hj => absurd hj (Nat.not_lt_zero j), beyond latest⟩

/-- The settings are accepted, and the first direct step of a machine without a program faults, but whatever the clock
reads, no run ends after one instruction. -/
theorem run_disagrees :
    slowest.machine.config.validate = .ok () ∧
      slowest.machine.StopsAt .empty 1 (.faulted (.unknownInstruction 0x200 0)) ∧
      ∀ first latest : Duration, ¬ ∃ result, (Paced.start first slowest).EndsAfter latest 1 result := by
  refine ⟨rfl, ⟨0, rfl, fun j hj => absurd hj (Nat.not_lt_zero j), .faulted (by decide +kernel)⟩, ?_⟩
  rintro first latest ⟨result, enough, h⟩
  obtain ⟨calm, hacts⟩ := Paced.calm_replicate latest (enough + 1)
  obtain ⟨-, hone⟩ := h _ calm (by omega)
  rw [List.replicate_succ] at calm hone
  have hsets : (Paced.start first slowest).setsIn ⟨.act, latest, latest⟩ = true := rfl
  have hready : (Paced.start first slowest).runner.isReady = true := rfl
  have hnone := (broke_slowest first latest).stepsIn_eq fun t ht => calm t (.tail _ ht)
  rw [Paced.stepsIn, not_executes_of_isReady hready, Paced.happen_of_setsIn hsets, hnone] at hone
  cases hone

end Runner

end Chip8
