import Chip8.Proofs.History
import Chip8.Runner.Pace

/-!
# Histories with a clock

A paced run has one more action in each round of the loop, the one that sets the next tick. Apart from these it does
what the runner does, as long as the clock counts to its ticks (`Paced.runner_after`). So what is true of a runner after
all histories is true of a paced one until its loop breaks off. Conversely every history of a runner is one of a paced
runner, if the clock counts as many periods as the loop begins rounds (`Paced.times_of_isCounted`).
-/

namespace Chip8

/-- An event, and what the clock reads then. -/
structure Timed where
  event : Event
  now : Duration
  again : Duration

namespace Timed

/-- The actions of the loop in a history. -/
def acts (history : List Timed) : Nat := Event.acts (history.map Timed.event)

theorem acts_cons (t : Timed) (history : List Timed) : acts (t :: history) = Event.acts [t.event] + acts history :=
  Event.acts_cons t.event _

end Timed

namespace Duration

theorem le_later (moment : Duration) (periods : Nat) (period : Duration) : moment ≤ moment.later periods period :=
  Nat.le_add_right _ _

theorem later_le_later (moment period : Duration) {n k : Nat} (h : n ≤ k) :
    moment.later n period ≤ moment.later k period :=
  Nat.add_le_add_left (Nat.mul_le_mul_right _ h) _

theorem later_later (moment period : Duration) (n k : Nat) :
    (moment.later n period).later k period = moment.later (n + k) period := by
  simp only [later, Nat.add_mul, Nat.add_assoc]

theorem isCounted_of_le {d e : Duration} (h : d ≤ e) (he : e.isCounted = true) : d.isCounted = true :=
  decide_eq_true (Nat.lt_of_le_of_lt (Nat.div_le_div_right h) (of_decide_eq_true he))

end Duration

namespace Paced

/-- The paced runner after an event. A loop that is started reads the clock first. -/
def happen (p : Paced) (t : Timed) : Paced :=
  if t.event.isAct then p.act t.now t.again
  else if p.runner.isLive then { p with runner := p.runner.happen t.event }
  else ⟨p.runner.happen t.event, t.now, false⟩

def after (p : Paced) (history : List Timed) : Paced := history.foldl happen p

@[simp] theorem after_nil (p : Paced) : p.after [] = p := rfl

@[simp] theorem after_cons (p : Paced) (t : Timed) (h : List Timed) : p.after (t :: h) = (p.happen t).after h := rfl

theorem after_append (p : Paced) (h h' : List Timed) : p.after (h ++ h') = (p.after h).after h' := List.foldl_append

/-- Whether the event is the action that sets the next tick. -/
def setsIn (p : Paced) (t : Timed) : Bool := t.event.isAct && p.sets

variable {p : Paced} {t : Timed}

theorem happen_of_setsIn (h : p.setsIn t = true) : p.happen t = p.pace t.now t.again := by
  obtain ⟨ha, hs⟩ := Bool.and_eq_true_iff.mp h
  rw [happen, if_pos ha, act, if_pos hs]

/-- Any other action is one of the untimed loop. -/
theorem happen_of_isAct (ha : t.event.isAct = true) (h : p.setsIn t = false) :
    p.happen t = { p with runner := p.runner.happen t.event, timed := false } := by
  have hs : p.sets = false := by rw [setsIn, ha, Bool.true_and] at h; exact h
  rw [happen, if_pos ha, act, hs, Event.eq_act_of_isAct ha]
  rfl

theorem happen_of_not_isAct (ha : t.event.isAct = false) :
    p.happen t =
      if p.runner.isLive then { p with runner := p.runner.happen t.event }
      else ⟨p.runner.happen t.event, t.now, false⟩ := by
  rw [happen, ha, if_neg Bool.false_ne_true]

theorem happen_runner (h : p.setsIn t = false) : (p.happen t).runner = p.runner.happen t.event := by
  cases ha : t.event.isAct with
  | true => rw [happen_of_isAct ha h]
  | false =>
    rw [happen_of_not_isAct ha]
    split <;> rfl

theorem pace_of_counted (now again : Duration) (h : (p.runner.nextTick p.due).isCounted = true) :
    p.pace now again =
      { p with
        due := if now ≤ p.runner.nextTick p.due then p.runner.nextTick p.due else again
        timed := true } :=
  if_pos h

theorem pace_of_not_counted (now again : Duration) (h : (p.runner.nextTick p.due).isCounted = false) :
    p.pace now again = { p with runner := p.runner.breakOff } :=
  if_neg (Bool.eq_false_iff.mp h)

/-- If the clock stands still at the last tick, no event but a tick changes that. -/
theorem happen_of_now (h : p.setsIn t = false) (now : t.now = p.due)
    (untimed : t.event.isAct = false → p.timed = false) : p.happen t = ⟨p.runner.happen t.event, p.due, false⟩ := by
  cases ha : t.event.isAct with
  | true => exact happen_of_isAct ha h
  | false =>
    rw [happen_of_not_isAct ha, now]
    split
    · rw [untimed ha]
    · rfl

/-- Then the next tick is a period after the last one. -/
theorem pace_due (h : (p.runner.nextTick p.due).isCounted = true) :
    p.pace p.due p.due = ⟨p.runner, p.runner.nextTick p.due, true⟩ := by
  have hle : p.due ≤ p.runner.nextTick p.due := p.due.le_later 1 _
  rw [pace_of_counted _ _ h, if_pos hle]

theorem pace_machine (p : Paced) (now again : Duration) : (p.pace now again).runner.machine = p.runner.machine := by
  cases h : (p.runner.nextTick p.due).isCounted with
  | true => rw [pace_of_counted _ _ h]
  | false => rw [pace_of_not_counted _ _ h]; rfl

/-! ## Without the clock -/

/-- The events of a history but the actions that set a tick. -/
def untimed (p : Paced) : List Timed → List Event
  | [] => []
  | t :: rest => (if p.setsIn t then [] else [t.event]) ++ (p.happen t).untimed rest

/-- Whether the clock counts to all ticks that are set in a history. -/
def keepsTime (p : Paced) : List Timed → Bool
  | [] => true
  | t :: rest => (!p.setsIn t || (p.runner.nextTick p.due).isCounted) && (p.happen t).keepsTime rest

/-- As long as the clock counts to its ticks, a paced runner does what the runner does. -/
theorem runner_after {history : List Timed} (h : p.keepsTime history = true) :
    (p.after history).runner = p.runner.after (p.untimed history) := by
  induction history generalizing p with
  | nil => rfl
  | cons t rest ih =>
    obtain ⟨hfirst, hrest⟩ := Bool.and_eq_true_iff.mp h
    rw [after_cons, ih hrest, untimed]
    cases hs : p.setsIn t with
    | false =>
      rw [happen_runner hs]
      rfl
    | true =>
      rw [hs, Bool.not_true, Bool.false_or] at hfirst
      rw [happen_of_setsIn hs, pace_of_counted _ _ hfirst]
      rfl

/-! ## With a clock -/

/-- The history of the runner is one of the paced runner, with all ticks counted. -/
def Times (p : Paced) (history : List Event) : Prop :=
  ∃ timed : List Timed, p.keepsTime timed = true ∧ p.untimed timed = history

namespace Times

variable {rest : List Event}

theorem cons (hs : p.setsIn t = false) (h : (p.happen t).Times rest) : p.Times (t.event :: rest) := by
  obtain ⟨timed, hkeeps, rfl⟩ := h
  refine ⟨t :: timed, ?_, ?_⟩
  · rw [keepsTime, hs, hkeeps]
    rfl
  · rw [untimed, hs]
    rfl

theorem tick (hs : p.setsIn t = true) (counted : (p.runner.nextTick p.due).isCounted = true)
    (h : (p.pace t.now t.again).Times rest) : p.Times rest := by
  obtain ⟨timed, hkeeps, rfl⟩ := h
  rw [← happen_of_setsIn hs] at hkeeps ⊢
  refine ⟨t :: timed, ?_, ?_⟩
  · rw [keepsTime, counted, hkeeps, Bool.or_true, Bool.and_true]
  · rw [untimed, hs]
    rfl

end Times

end Paced

/-- The number of rounds that the loop begins in a history. -/
def Runner.roundsIn (r : Runner) : List Event → Nat
  | [] => 0
  | e :: rest => (e.isAct && r.isReady).toNat + (r.happen e).roundsIn rest

/-- A clock that counts a period for each round is enough for a history. -/
theorem Paced.times_of_isCounted {p : Paced} {history : List Event} (untimed : p.timed = false)
    (counted : (p.due.later (p.runner.roundsIn history) p.runner.machine.config.cpuPeriod).isCounted = true) :
    p.Times history := by
  induction history generalizing p with
  | nil => exact ⟨[], rfl, rfl⟩
  | cons e rest ih =>
    let t : Timed := ⟨e, p.due, p.due⟩
    have hsets : p.setsIn t = (e.isAct && p.runner.isReady) := by
      rw [setsIn, sets, untimed, Bool.not_false, Bool.and_true]
    have hconfig := p.runner.happen_config e
    rw [Runner.roundsIn, ← hsets] at counted
    cases hs : p.setsIn t with
    | false =>
      rw [hs, Bool.toNat_false, Nat.zero_add] at counted
      refine Times.cons hs ?_
      rw [happen_of_now hs rfl fun _ => untimed]
      exact ih rfl (by rw [hconfig]; exact counted)
    | true =>
      rw [hs, Bool.toNat_true] at counted
      have hnext : (p.runner.nextTick p.due).isCounted = true :=
        Duration.isCounted_of_le (Duration.later_le_later _ _ (Nat.le_add_right 1 _)) counted
      refine Times.tick hs hnext ?_
      rw [pace_due hnext]
      -- the tick is set, so the same event is an action of the untimed loop now
      let ticked : Paced := ⟨p.runner, p.runner.nextTick p.due, true⟩
      have hset : ticked.setsIn ⟨e, ticked.due, ticked.due⟩ = false := by
        rw [setsIn, sets, Bool.not_true, Bool.and_false, Bool.and_false]
      have ha : e.isAct = true := (Bool.and_eq_true_iff.mp (hsets.symm.trans hs)).1
      refine Times.cons hset ?_
      rw [happen_of_now hset rfl fun hn => nomatch hn.symm.trans ha]
      refine ih rfl ?_
      show ((p.due.later 1 _).later _ (p.runner.happen e).machine.config.cpuPeriod).isCounted = true
      rw [hconfig, Duration.later_later]
      exact counted

/-- What nothing but editing changes lasts while a clock runs too. -/
theorem Machine.Stable.happen_paced {c : Config} {P : Machine → Prop} {p : Paced} {t : Timed} (hP : Stable c P)
    (he : t.event.edits c = false) (h : P p.runner.machine) : P (p.happen t).runner.machine := by
  cases hs : p.setsIn t with
  | true =>
    rw [Paced.happen_of_setsIn hs, Paced.pace_machine]
    exact h
  | false =>
    rw [Paced.happen_runner hs]
    exact hP.happen he h

end Chip8
