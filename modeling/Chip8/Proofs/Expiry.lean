import Chip8.Proofs.Footprint
import Chip8.Proofs.Subroutine

/-!
# A timer calls once for every expiry

The value of a timer may be set, read and let decay by anyone at any moment, and the call that an expiry makes due may
start at any moment after it. A `Timer.Event` is one of these, and a history is a list of them. The count of the calls
that have started or are due goes up with each expiry and never otherwise (`Timer.calls_after`). An expiry uses up
a set to a value above zero: `Timer.expiriesIn_add_armed_le` counts the two against each other, and the invariant that
carries the induction is that a timer above zero is one expiry ahead.

What happens to a machine does to its sound timer what the executed `Fx18` and the host do
(`Machine.sound_after`), so the beeper is called at most once for each of their sets to a value above zero, whatever is
done to the delay timer (`Machine.soundArmings`).
-/

namespace Chip8

namespace Timer

/-! ## Histories -/

/-- What may happen to a timer. -/
inductive Event
  | set (v : UInt8)
  | read
  /-- One period goes by. -/
  | decay
  /-- A call that is due starts. -/
  | ring
  deriving DecidableEq, Repr

/-- The event sets a value above zero. -/
def Event.arms : Event → Bool
  | .set v => v != 0
  | _ => false

def Event.isSet : Event → Bool
  | .set _ => true
  | _ => false

def happen (t : Timer) : Event → Timer
  | .set v => t.set v
  | .read => t
  | .decay => t.decay
  | .ring => t.ring

/-- The timer after a history, its first event first. -/
def after (t : Timer) (history : List Event) : Timer := history.foldl happen t

@[simp] theorem after_nil (t : Timer) : t.after [] = t := rfl

@[simp] theorem after_cons (t : Timer) (e : Event) (h : List Event) : t.after (e :: h) = (t.happen e).after h := rfl

theorem after_append (t : Timer) (h h' : List Event) : t.after (h ++ h') = (t.after h).after h' := List.foldl_append

/-- The event takes the value from one to zero. -/
def expires (t : Timer) (e : Event) : Bool := e == .decay && t.value == 1

/-- The expiries in a history. -/
def expiriesIn : Timer → List Event → Nat
  | _, [] => 0
  | t, e :: rest => (t.expires e).toNat + (t.happen e).expiriesIn rest

/-- The calls that have started or are due. -/
def calls (t : Timer) : Nat := t.due + t.rung

/-- The timer has an expiry before it. -/
def armed (t : Timer) : Bool := t.value != 0

/-! ## One event -/

/-- The value goes down by one and never below zero. -/
theorem toNat_decay (t : Timer) : t.decay.value.toNat = t.value.toNat - 1 := by
  unfold decay
  split
  · rename_i h
    rw [h]
    rfl
  · rename_i h
    have hpos : t.value.toNat ≠ 0 := fun h0 => h (UInt8.toNat_inj.mp h0)
    have hle : (1 : UInt8) ≤ t.value := UInt8.le_iff_toNat_le.mpr (Nat.one_le_iff_ne_zero.mpr hpos)
    exact UInt8.toNat_sub_of_le _ _ hle

theorem decay_of_zero {t : Timer} (h : t.value = 0) : t.decay = t := if_pos h

theorem value_ring (t : Timer) : t.ring.value = t.value := by
  unfold ring
  split <;> rfl

theorem calls_ring (t : Timer) : t.ring.calls = t.calls := by
  unfold ring calls
  split
  · rfl
  · show t.due - 1 + (t.rung + 1) = t.due + t.rung
    omega

theorem calls_decay (t : Timer) : t.decay.calls = t.calls + (t.expires .decay).toNat := by
  unfold decay expires calls
  split
  · rename_i h
    rw [h]
    rfl
  · by_cases h1 : t.value = 1
    · simp [h1]
      omega
    · simp [h1]

/-- Only an expiry makes a call due, and it makes one due. -/
theorem calls_happen (t : Timer) (e : Event) : (t.happen e).calls = t.calls + (t.expires e).toNat := by
  cases e with
  | set v => rfl
  | read => rfl
  | decay => exact t.calls_decay
  | ring => exact t.calls_ring

/-- A byte that is not zero counts as one. -/
theorem toNat_bne_zero (v : UInt8) : (v != 0).toNat = min v.toNat 1 := by
  by_cases h : v = 0
  · rw [h]
    rfl
  · have hpos : v.toNat ≠ 0 := fun h0 => h (UInt8.toNat_inj.mp h0)
    rw [bne_iff_ne.mpr h, Bool.toNat_true]
    omega

theorem toNat_expires_decay (t : Timer) : (t.expires .decay).toNat = if t.value.toNat = 1 then 1 else 0 := by
  by_cases h : t.value = 1
  · simp [expires, h]
  · have hne : t.value.toNat ≠ 1 := fun h1 => h (UInt8.toNat_inj.mp h1)
    simp [expires, h, hne]

theorem expires_decay_add_armed_le (t : Timer) :
    (t.expires .decay).toNat + t.decay.armed.toNat ≤ t.armed.toNat := by
  rw [toNat_expires_decay, armed, armed, toNat_bne_zero, toNat_bne_zero, toNat_decay]
  split <;> omega

/-- A timer that expires, or is above zero afterwards, was above zero or is set. -/
theorem expires_add_armed_le (t : Timer) (e : Event) :
    (t.expires e).toNat + (t.happen e).armed.toNat ≤ t.armed.toNat + e.arms.toNat := by
  cases e with
  | set v =>
    show 0 + (v != 0).toNat ≤ t.armed.toNat + (v != 0).toNat
    omega
  | read => exact Nat.le_of_eq (Nat.zero_add _)
  | decay => exact t.expires_decay_add_armed_le
  | ring =>
    show 0 + t.ring.armed.toNat ≤ t.armed.toNat + 0
    rw [armed, value_ring, Nat.zero_add]
    exact Nat.le_refl _

/-! ## Any history -/

/-- The calls that have started or are due are the expiries. -/
theorem calls_after (t : Timer) (history : List Event) :
    (t.after history).calls = t.calls + t.expiriesIn history := by
  induction history generalizing t with
  | nil => rfl
  | cons e rest ih =>
    rw [after_cons, ih, calls_happen, expiriesIn]
    omega

/-- Each expiry takes a set to a value above zero, and a timer that is above zero at the end has one to spare. -/
theorem expiriesIn_add_armed_le (t : Timer) (history : List Event) :
    t.expiriesIn history + (t.after history).armed.toNat ≤ t.armed.toNat + history.countP Event.arms := by
  induction history generalizing t with
  | nil => exact Nat.le_of_eq (Nat.zero_add _)
  | cons e rest ih =>
    have hone := t.expires_add_armed_le e
    have hrest := ih (t.happen e)
    have hcount : (e :: rest).countP Event.arms = rest.countP Event.arms + e.arms.toNat := by
      rw [List.countP_cons]
      cases e.arms <;> rfl
    rw [after_cons, expiriesIn, hcount]
    omega

theorem expiriesIn_zero_le (history : List Event) : zero.expiriesIn history ≤ history.countP Event.arms := by
  have h := zero.expiriesIn_add_armed_le history
  have hzero : zero.armed.toNat = 0 := rfl
  omega

theorem armed_of_expires {t : Timer} {e : Event} (h : t.expires e = true) :
    t.armed = true ∧ (t.happen e).armed = false := by
  obtain ⟨he, hv⟩ := Bool.and_eq_true_iff.mp h
  obtain rfl := of_decide_eq_true he
  have hle := t.expires_decay_add_armed_le
  rw [h, Bool.toNat_true] at hle
  have hone := Bool.toNat_le t.armed
  exact ⟨Bool.toNat_eq_one.mp (by omega), Bool.toNat_eq_zero.mp (by show t.decay.armed.toNat = 0; omega)⟩

/-- Between two expiries the timer is set to a value above zero. -/
theorem exists_arms_between {t : Timer} {first last : Event} {between : List Event} (hfirst : t.expires first = true)
    (hlast : ((t.happen first).after between).expires last = true) : ∃ e ∈ between, e.arms = true := by
  have hbefore := (armed_of_expires hfirst).2
  have hafter := (armed_of_expires hlast).1
  have hle := (t.happen first).expiriesIn_add_armed_le between
  rw [hbefore, hafter, Bool.toNat_true, Bool.toNat_false] at hle
  exact List.countP_pos_iff.mp (by omega)

/-- A timer at zero calls no more until it is set to a value above zero. -/
theorem rests_of_value_eq_zero {t : Timer} (h0 : t.value = 0) {history : List Event}
    (h : ∀ e ∈ history, e.arms = false) : (t.after history).value = 0 ∧ (t.after history).calls = t.calls := by
  have hle := t.expiriesIn_add_armed_le history
  have hcount : history.countP Event.arms = 0 :=
    List.countP_eq_zero.mpr fun e he harms => Bool.false_ne_true ((h e he).symm.trans harms)
  have harmed : t.armed.toNat = 0 := by rw [armed, h0]; rfl
  constructor
  · have hrest : (t.after history).armed = false := Bool.toNat_eq_zero.mp (by omega)
    simpa [armed] using hrest
  · rw [calls_after]
    omega

/-- A timer that is not set runs down and calls once, when its value has gone by. -/
theorem runs_down (t : Timer) {history : List Event} (h : ∀ e ∈ history, e.isSet = false) :
    (t.after history).value.toNat = t.value.toNat - history.count .decay ∧
      (t.after history).calls =
        t.calls + if 0 < t.value.toNat ∧ t.value.toNat ≤ history.count .decay then 1 else 0 := by
  induction history generalizing t with
  | nil =>
    have hno : ¬ (0 < t.value.toNat ∧ t.value.toNat ≤ 0) := by omega
    rw [List.count_nil, if_neg hno]
    exact ⟨rfl, rfl⟩
  | cons e rest ih =>
    obtain ⟨hvalue, hcalls⟩ := ih (t.happen e) fun e' he' => h e' (List.mem_cons_of_mem _ he')
    rw [after_cons, hvalue, hcalls, calls_happen]
    cases e with
    | set v => cases h (.set v) List.mem_cons_self
    | read => exact ⟨rfl, rfl⟩
    | ring =>
      rw [List.count_cons_of_ne (by decide), happen, value_ring]
      exact ⟨rfl, rfl⟩
    | decay =>
      rw [List.count_cons_self, toNat_expires_decay, happen, toNat_decay]
      refine ⟨by omega, ?_⟩
      split <;> split <;> split <;> omega

end Timer

/-! ## The beeper -/

namespace Machine

/-- What may happen to a machine, its two timers taken apart: either may go through a period, start a call, or be set
and read, at any moment. -/
inductive Happening
  | change (c : Change)
  | delay (e : Timer.Event)
  | sound (e : Timer.Event)
  deriving DecidableEq

def happen (m : Machine) : Happening → Machine
  | .change c => m.change c
  | .delay e => { m with delay := m.delay.happen e }
  | .sound e => { m with sound := m.sound.happen e }

/-- The machine after a history, its first happening first. -/
def after (m : Machine) (history : List Happening) : Machine := history.foldl happen m

@[simp] theorem after_nil (m : Machine) : m.after [] = m := rfl

@[simp] theorem after_cons (m : Machine) (e : Happening) (h : List Happening) :
    m.after (e :: h) = (m.happen e).after h := rfl

/-- The value to which a step sets the sound timer: that of `Vx` if it executes `Fx18`. -/
def setsSound? (m : Machine) : Option UInt8 :=
  if m.step.1 = .executed then
    match Instruction.decode m.fetch with
    | .setSound x => some (m.reg x)
    | _ => none
  else none

/-- What a happening does to the sound timer. -/
def soundEvents (m : Machine) : Happening → List Timer.Event
  | .change .step => (m.setsSound?.map .set).toList
  | .change (.setSound b) => [.set b]
  | .change .tick => [.decay, .ring]
  | .sound e => [e]
  | _ => []

theorem soundEvents_step (m : Machine) : m.soundEvents (.change .step) = (m.setsSound?.map .set).toList := rfl

/-- The history of the sound timer in a history of the machine. -/
def soundHistory : Machine → List Happening → List Timer.Event
  | _, [] => []
  | m, e :: rest => m.soundEvents e ++ (m.happen e).soundHistory rest

/-- The sound timer is set to a value above zero, by an `Fx18` that executes or by the host. -/
def armsSound (m : Machine) : Happening → Bool
  | .change .step => m.setsSound?.any (· != 0)
  | .change (.setSound b) | .sound (.set b) => b != 0
  | _ => false

/-- How often a history sets the sound timer to a value above zero. -/
def soundArmings : Machine → List Happening → Nat
  | _, [] => 0
  | m, e :: rest => (m.armsSound e).toNat + (m.happen e).soundArmings rest

theorem step_sound (m : Machine) : m.step.2.sound = m.sound.after (m.soundEvents (.change .step)) := by
  by_cases he : m.step.1 = .executed
  · rw [(step_footprint he).sound, soundEvents_step, setsSound?, if_pos he]
    cases Instruction.decode m.fetch <;> rfl
  · obtain ⟨pc, random, h⟩ := step_of_not_executed he
    rw [h, soundEvents_step, setsSound?, if_neg he]
    rfl

/-- Nothing else touches the sound timer. -/
theorem happen_sound (m : Machine) (e : Happening) : (m.happen e).sound = m.sound.after (m.soundEvents e) := by
  cases e with
  | delay e => rfl
  | sound e => rfl
  | change c =>
    cases c with
    | step => exact m.step_sound
    | load program =>
      rw [happen, change_load]
      split <;> rfl
    | _ => rfl

theorem sound_after (m : Machine) (history : List Happening) :
    (m.after history).sound = m.sound.after (m.soundHistory history) := by
  induction history generalizing m with
  | nil => rfl
  | cons e rest ih => rw [after_cons, ih, happen_sound, soundHistory, Timer.after_append]

theorem countP_soundEvents (m : Machine) (e : Happening) :
    (m.soundEvents e).countP Timer.Event.arms = (m.armsSound e).toNat := by
  have hone (v : UInt8) : [Timer.Event.set v].countP Timer.Event.arms = (v != 0).toNat := by
    rw [List.countP_singleton]
    show (if (v != 0) = true then 1 else 0) = _
    cases v != 0 <;> rfl
  cases e with
  | delay e => rfl
  | sound e =>
    cases e with
    | set b => exact hone b
    | _ => rfl
  | change c =>
    cases c with
    | step =>
      show (m.setsSound?.map Timer.Event.set).toList.countP _ = (m.setsSound?.any (· != 0)).toNat
      cases m.setsSound? with
      | none => rfl
      | some v => exact hone v
    | setSound b => exact hone b
    | _ => rfl

theorem countP_soundHistory (m : Machine) (history : List Happening) :
    (m.soundHistory history).countP Timer.Event.arms = m.soundArmings history := by
  induction history generalizing m with
  | nil => rfl
  | cons e rest ih => rw [soundHistory, List.countP_append, countP_soundEvents, ih, soundArmings]

/-- The calls of the beeper that have started or are due, from any machine. -/
theorem calls_sound_le (m : Machine) (history : List Happening) :
    (m.after history).sound.calls ≤ m.sound.calls + m.sound.armed.toNat + m.soundArmings history := by
  have h := m.sound.expiriesIn_add_armed_le (m.soundHistory history)
  rw [countP_soundHistory] at h
  rw [sound_after, Timer.calls_after]
  omega

theorem sound_of_create {config : Config} {threads : TimerThreads} {random : RandomSource} {m : Machine}
    (h : create config threads random = .ok m) : m.sound = .zero := by
  obtain ⟨-, -, rfl⟩ := create_eq_ok_iff.mp h
  rfl

end Machine

/-- **A timer calls once for every expiry.** In every history of sets, reads, periods and starts of calls the calls that
have started or are due are the expiries; from a new timer these are no more than the sets above zero, and one of those
lies between any two of them. A period at zero changes nothing and no period goes below zero. A set to zero takes back
what was to come, and a value that stays runs down and calls once, if it gets to zero. So the beeper of a new machine
is called no more often than its sound timer is set above zero by an `Fx18` that executes or by the host. -/
theorem Timer.calls_once_per_expiry :
    (∀ (t : Timer) (history : List Event), (t.after history).calls = t.calls + t.expiriesIn history) ∧
      (∀ history : List Event, zero.expiriesIn history ≤ history.countP Event.arms) ∧
      (∀ (t : Timer) (first last : Event) (between : List Event), t.expires first = true →
        ((t.happen first).after between).expires last = true → ∃ e ∈ between, e.arms = true) ∧
      (∀ t : Timer, (t.value = 0 → t.decay = t) ∧ t.decay.value.toNat = t.value.toNat - 1) ∧
      (∀ (t : Timer) (history : List Event), (∀ e ∈ history, e.arms = false) →
        ((t.set 0).after history).value = 0 ∧ ((t.set 0).after history).calls = t.calls) ∧
      (∀ (t : Timer) (v : UInt8) (history : List Event), (∀ e ∈ history, e.isSet = false) →
        ((t.set v).after history).value.toNat = v.toNat - history.count .decay ∧
          ((t.set v).after history).calls =
            t.calls + if 0 < v.toNat ∧ v.toNat ≤ history.count .decay then 1 else 0) ∧
      ∀ (config : Config) (threads : Machine.TimerThreads) (random : RandomSource) (m : Machine)
        (history : List Machine.Happening),
        Machine.create config threads random = .ok m → (m.after history).sound.calls ≤ m.soundArmings history := by
  refine ⟨calls_after, expiriesIn_zero_le, fun t first last between => exists_arms_between,
    fun t => ⟨decay_of_zero, t.toNat_decay⟩, fun t history h => rests_of_value_eq_zero rfl h,
    fun t v history h => (t.set v).runs_down h, fun config threads random m history h => ?_⟩
  have hle := m.calls_sound_le history
  rw [Machine.sound_of_create h] at hle
  exact Nat.le_trans hle (Nat.le_of_eq (Nat.zero_add _))

/-- A program sets the sound timer to two, it runs down, and the host sets it once more; the delay timer runs along. -/
def Machine.beepsTwice : List Machine.Happening :=
  [.change (.load [0x60, 0x02, 0xF0, 0x18]), .change .step, .change .step, .delay (.set 9), .sound .decay,
    .delay .decay, .sound .decay, .change (.setSound 1), .sound .ring, .sound .decay, .sound .ring]

theorem Timer.calls_once_per_expiry_twice :
    (∃ e ∈ [Event.ring, .set 1], e.arms = true) ∧
      (((⟨7, 0, 3⟩ : Timer).set 0).after [.decay, .ring]).calls = 3 ∧
      ((zero.set 2).after [.decay, .read, .decay, .ring]).calls = 1 ∧
      ∃ m, Machine.create Config.standard .started (.scripted []) = .ok m ∧ m.soundArmings Machine.beepsTwice = 2 ∧
        (m.after Machine.beepsTwice).sound.calls ≤ 2 := by
  obtain ⟨-, -, hbetween, -, hcancel, hruns, hbeeper⟩ := calls_once_per_expiry
  have harmings : (Machine.initial Config.standard (.scripted [])).soundArmings Machine.beepsTwice = 2 := by
    decide +kernel
  refine ⟨hbetween ⟨1, 0, 0⟩ .decay .decay [.ring, .set 1] (by decide) (by decide),
    (hcancel ⟨7, 0, 3⟩ [.decay, .ring] (by decide)).2, (hruns zero 2 [.decay, .read, .decay, .ring] (by decide)).2,
    Machine.initial Config.standard (.scripted []), rfl, harmings, ?_⟩
  rw [← harmings]
  exact hbeeper Config.standard .started (.scripted []) _ Machine.beepsTwice rfl

end Chip8
