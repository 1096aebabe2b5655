import Chip8.Console
import Chip8.Proofs.Alike
import Chip8.Proofs.Footprint

/-!
# Keypad and command line do not mix

The console keeps what is held twice: as the mask of the machine's keypad and as the time of the last press of each key.
`Console.Synced` says that the two tell the same. No instruction and no command touches the keypad
(`Machine.step_keypad`, `Debugger.execute_keypad`), so only a key pressed beside a live loop and a key let go of change
either, and both write the mask from the times. `Console.keys_apart` collects what follows for every state of a console
(`Console.KeysApart`): which keys are held, what a key event may change while a loop is live and while none is, and what
the passing of time lets go of.
-/

namespace Chip8

/-! ## What leaves the keypad alone -/

/-- No instruction changes the keypad. -/
theorem Machine.step_keypad (m : Machine) : m.step.2.keypad = m.keypad := by
  by_cases h : m.step.1 = .executed
  · exact (step_footprint h).keypad
  · obtain ⟨pc, random, hs⟩ := step_of_not_executed h
    rw [hs]

namespace Runner

variable (r : Runner)

theorem act_keypad : r.act.machine.keypad = r.machine.keypad := by
  rcases r.act_machine with h | h <;> rw [h]
  exact r.machine.step_keypad

theorem act_breakpoints : r.act.breakpoints = r.breakpoints := by
  obtain ⟨m, stop, b, loop, journal, refusal⟩ := r
  cases loop <;> rfl

theorem stop_keypad : r.stop.2.machine.keypad = r.machine.keypad := by
  -- the loop does the actions that are left to it
  have hacts : r.requestStop.act.act.act.machine.keypad = r.requestStop.machine.keypad := by
    rw [act_keypad, act_keypad, act_keypad]
  exact hacts

theorem stop_breakpoints : r.stop.2.breakpoints = r.breakpoints := by
  have hacts : r.requestStop.act.act.act.breakpoints = r.requestStop.breakpoints := by
    rw [act_breakpoints, act_breakpoints, act_breakpoints]
  exact hacts

end Runner

/-- No command changes the keypad. -/
theorem Debugger.execute_keypad (r : Runner) (c : Command) :
    (execute r c).2.machine.keypad = r.machine.keypad := by
  cases c with
  | run =>
    rw [execute, r.debugger_run_snd]
    exact congrArg Machine.keypad r.start_machine
  | pause =>
    rw [execute, r.debugger_pause_snd]
    exact r.stop_keypad
  | step =>
    rw [execute, r.debugger_step_snd]
    rcases r.step_machine with h | h <;> rw [h]
    exact r.machine.step_keypad
  | set target value =>
    simp only [execute]
    split
    · rfl
    · cases target <;> rfl
  | setBreakpoint | clearBreakpoint | listBreakpoints | clearBreakpoints | mem | disasm | quit => rfl

namespace Console

open Debugger (Command)

/-! ## Handlers that leave the keys alone -/

/-- Neither the keypad nor a recorded press is touched. -/
structure SameKeys (c c' : Console) : Prop where
  keypad : c'.runner.machine.keypad = c.runner.machine.keypad
  pressedAt : c'.pressedAt = c.pressedAt

namespace SameKeys

variable {c c' c'' : Console}

theorem refl (c : Console) : SameKeys c c := ⟨rfl, rfl⟩

theorem trans (h : SameKeys c c') (h' : SameKeys c' c'') : SameKeys c c'' :=
  ⟨h'.keypad.trans h.keypad, h'.pressedAt.trans h.pressedAt⟩

end SameKeys

section Handlers

variable (c : Console)

theorem carryOut_sameKeys (command : Command) : SameKeys c (c.carryOut command) := by
  have hkeypad := Debugger.execute_keypad c.runner command
  unfold carryOut
  split <;> rename_i h <;> rw [h] at hkeypad <;> exact ⟨hkeypad, rfl⟩

theorem submit_sameKeys (line : List Char) : SameKeys c (c.submit line) := by
  unfold submit
  split
  · rename_i command _
    have remembered : SameKeys c { c with last := some command } := ⟨rfl, rfl⟩
    exact remembered.trans (carryOut_sameKeys _ command)
  · exact ⟨rfl, rfl⟩

theorem again_sameKeys : SameKeys c c.again := by
  unfold again
  split
  · exact c.carryOut_sameKeys _
  · exact .refl c

theorem enter_sameKeys : SameKeys c c.enter := by
  have hafter : SameKeys c (if c.input.isEmpty then c.again else c.submit c.input) := by
    split
    · exact c.again_sameKeys
    · exact c.submit_sameKeys c.input
  unfold enter
  generalize (if c.input.isEmpty then c.again else c.submit c.input) = after at hafter ⊢
  dsimp only
  split
  · exact hafter
  · exact ⟨hafter.keypad, hafter.pressedAt⟩

theorem edit_sameKeys (k : Key) : SameKeys c (c.edit k) := by
  cases k with
  | enter => exact c.enter_sameKeys
  | character | escape | backspace | other => exact ⟨rfl, rfl⟩

/-- The command line, the remembered command and the breakpoints are untouched. -/
structure SameLine (c c' : Console) : Prop where
  input : c'.input = c.input
  last : c'.last = c.last
  breakpoints : c'.runner.breakpoints = c.runner.breakpoints

/-- The loop is gone, and neither the keys nor the command line are touched. -/
structure Paused (c c' : Console) : Prop extends SameKeys c c', SameLine c c' where
  loop : c'.runner.loop = none

theorem pause_paused : Paused c c.pause := by
  have hrunner := c.runner.debugger_pause_snd
  have hkeypad := c.runner.stop_keypad
  have hbreakpoints := c.runner.stop_breakpoints
  have hloop : c.runner.stop.2.loop = none := rfl
  rw [← hrunner] at hkeypad hbreakpoints hloop
  unfold pause
  split <;> rename_i h <;> rw [h] at hkeypad hbreakpoints hloop <;>
    exact ⟨⟨hkeypad, rfl⟩, ⟨rfl, rfl, hbreakpoints⟩, hloop⟩

theorem collect_sameKeys : SameKeys c c.collect := by
  have hmachine := c.runner.poll_machine
  unfold collect
  split <;> rename_i h <;> rw [h] at hmachine <;> exact ⟨congrArg Machine.keypad hmachine, rfl⟩

end Handlers

/-! ## The two copies -/

theorem get_eq_getElem {α : Type} (entries : Vector α 16) (k : Nibble) :
    entries.get k = getElem entries k.val k.isLt := rfl

/-- The keypad holds the keys whose presses are recorded. -/
def Synced (c : Console) : Prop := c.runner.machine.keypad = c.heldKeys

/-- Key `k` is held on the keypad of the machine. -/
def holds (c : Console) (k : Nibble) : Bool := c.runner.machine.keypad.mask.toNat.testBit k.val

/-- When key `k` was last pressed, if that is recorded. -/
def pressTime (c : Console) (k : Nibble) : Option Duration := c.pressedAt.get k

/-- The same console with another keypad and other presses. -/
def withKeys (c : Console) (keypad : Keypad) (pressedAt : Vector (Option Duration) 16) : Console :=
  { c with runner := c.runner.edit fun m => { m with keypad := keypad }, pressedAt := pressedAt }

/-- Another keypad and other presses, and nothing else. -/
def OnlyKeys (c c' : Console) : Prop := ∃ keypad pressedAt, c' = c.withKeys keypad pressedAt

theorem SameKeys.synced {c c' : Console} (h : SameKeys c c') (hs : Synced c) : Synced c' := by
  unfold Synced heldKeys
  rw [h.keypad, h.pressedAt]
  exact hs

theorem synced_ofMachine {m : Machine} (released : m.keypad = .released) : Synced (ofMachine m) := by
  have hnone : Keypad.ofHeld ((Vector.replicate 16 (none : Option Duration)).map Option.isSome) = .released := by
    decide +kernel
  exact released.trans hnone.symm

theorem synced_updateKeys (c : Console) : Synced c.updateKeys := rfl

theorem Synced.holds_eq {c : Console} (h : Synced c) (k : Nibble) : c.holds k = (c.pressTime k).isSome := by
  unfold holds
  rw [h, heldKeys, Keypad.testBit_ofHeld]
  simp [pressTime, get_eq_getElem, List.getD_eq_getElem?_getD]

theorem Synced.updateKeys_eq {c : Console} (h : Synced c) : c.updateKeys = c := by
  unfold updateKeys Runner.setKeys Runner.edit Machine.setKeys
  rw [← h]

/-! ## A key beside a live loop, and keys let go of -/

theorem pressTime_press (c : Console) (now : Duration) (x k : Nibble) :
    (c.press now x).pressTime k = if x = k then some now else c.pressTime k := by
  simp [pressTime, press, updateKeys, get_eq_getElem, Vector.getElem_setIfInBounds, Fin.ext_iff]

theorem holds_press {c : Console} (h : Synced c) (now : Duration) (x k : Nibble) :
    (c.press now x).holds k = (c.holds k || decide (x = k)) := by
  have hsynced : Synced (c.press now x) := synced_updateKeys _
  rw [hsynced.holds_eq, h.holds_eq, pressTime_press]
  by_cases hx : x = k <;> simp [hx]

section Filter

-- for any predicate: `expired` would unfold to a sum with the nanoseconds of `holdTime`
variable (presses : Vector (Option Duration) 16) (late : Duration → Bool)

theorem get_filter (k : Nibble) :
    (presses.map (Option.filter fun pressed => !late pressed)).get k =
      if (presses.get k).any late then none else presses.get k := by
  simp only [get_eq_getElem, Vector.getElem_map]
  cases presses[k.val] with
  | none => rfl
  | some pressed => cases hlate : late pressed <;> simp [Option.filter, hlate]

theorem filter_eq_self (h : presses.toList.any (·.any late) = false) :
    presses.map (Option.filter fun pressed => !late pressed) = presses := by
  refine Vector.ext fun k hk => ?_
  have hkept := List.any_eq_false.mp h presses[k] (by simp)
  rw [Vector.getElem_map]
  cases hp : presses[k] with
  | none => rfl
  | some pressed =>
    rw [hp] at hkept
    simpa using hkept

end Filter

/-- The key was pressed too long ago. -/
def timedOut (now : Duration) (c : Console) (k : Nibble) : Bool := (c.pressTime k).any (expired now)

/-- The recorded presses that are not too long ago. -/
def recent (now : Duration) (c : Console) : Vector (Option Duration) 16 :=
  c.pressedAt.map (Option.filter fun pressed => !expired now pressed)

/-- Whether a key is let go of or not, the recent presses are left, and the keypad follows them. -/
theorem release_eq {c : Console} (h : Synced c) (now : Duration) :
    c.release now = updateKeys { c with pressedAt := c.recent now } := by
  cases hany : c.pressedAt.toList.any (·.any (expired now)) with
  | true => rw [release, if_pos hany, recent]
  | false =>
    have hrecent : c.recent now = c.pressedAt := filter_eq_self c.pressedAt (expired now) hany
    rw [hrecent, release, hany, if_neg Bool.false_ne_true]
    exact h.updateKeys_eq.symm

theorem synced_release {c : Console} (h : Synced c) (now : Duration) : Synced (c.release now) := by
  rw [release_eq h]
  exact synced_updateKeys _

/-- The keys that were pressed too long ago are no longer held, and no others are. -/
structure Released (now : Duration) (c c' : Console) : Prop where
  only : OnlyKeys c c'
  holds (k : Nibble) : c'.holds k = (c.holds k && !c.timedOut now k)
  pressTime (k : Nibble) : c'.pressTime k = if c.timedOut now k then none else c.pressTime k

theorem Synced.released {c : Console} (h : Synced c) (now : Duration) : Released now c (c.release now) := by
  have hpressed (k : Nibble) : (c.release now).pressTime k = if c.timedOut now k then none else c.pressTime k := by
    rw [release_eq h]
    exact get_filter c.pressedAt (expired now) k
  have honly : OnlyKeys c (c.release now) := by
    rw [release_eq h]
    exact ⟨_, _, rfl⟩
  refine ⟨honly, fun k => ?_, hpressed⟩
  rw [(synced_release h now).holds_eq, h.holds_eq, hpressed]
  cases c.timedOut now k <;> simp

/-! ## One key event -/

/-- `Ctrl` and `C`. -/
def KeyEvent.isQuit (e : KeyEvent) : Bool := e.control && e.key == .character 'c'

section Handle

variable {c : Console} {now : Duration} {e : KeyEvent}

theorem handle_eq :
    c.handle now e =
      if e.isQuit then { c with done := true }
      else if c.runner.isLive then c.play now e.key
      else if e.stroke = .press then c.edit e.key
      else c := rfl

theorem handle_of_isQuit (quit : e.isQuit = true) : c.handle now e = { c with done := true } := if_pos quit

theorem handle_of_live (live : c.runner.isLive = true) (stays : e.isQuit = false) :
    c.handle now e = c.play now e.key := by
  rw [handle_eq, if_neg (Bool.eq_false_iff.mp stays), if_pos live]

theorem handle_of_idle (idle : c.runner.isLive = false) (stays : e.isQuit = false) :
    c.handle now e = if e.stroke = .press then c.edit e.key else c := by
  rw [handle_eq, if_neg (Bool.eq_false_iff.mp stays), idle, if_neg Bool.false_ne_true]

theorem isQuit_of_escape (escape : e.key = .escape) : e.isQuit = false := by
  rw [KeyEvent.isQuit, escape]
  exact Bool.and_false _

theorem handle_idle (idle : c.runner.isLive = false) : SameKeys c (c.handle now e) := by
  cases hq : e.isQuit with
  | true =>
    rw [handle_of_isQuit hq]
    exact ⟨rfl, rfl⟩
  | false =>
    rw [handle_of_idle idle hq]
    split
    · exact c.edit_sameKeys e.key
    · exact .refl c

theorem handle_escape (live : c.runner.isLive = true) (escape : e.key = .escape) : Paused c (c.handle now e) := by
  rw [handle_of_live live (isQuit_of_escape escape), play, if_pos escape]
  exact c.pause_paused

theorem handle_play (live : c.runner.isLive = true) (hk : e.key ≠ .escape) (stays : e.isQuit = false) :
    c.handle now e =
      match e.key.onKeypad? with
      | some x => c.press now x
      | none => c :=
  (handle_of_live live stays).trans (if_neg hk)

/-- Beside a live loop a key event has nothing to do with the command line. -/
theorem handle_live (live : c.runner.isLive = true) : SameLine c (c.handle now e) := by
  cases hq : e.isQuit with
  | true =>
    rw [handle_of_isQuit hq]
    exact ⟨rfl, rfl, rfl⟩
  | false =>
    by_cases hk : e.key = .escape
    · exact (handle_escape live hk).toSameLine
    · rw [handle_play live hk hq]
      split <;> exact ⟨rfl, rfl, rfl⟩

end Handle

/-- A key other than `Esc` beside a live loop. -/
structure Played (now : Duration) (key : Key) (c c' : Console) : Prop where
  only : OnlyKeys c c'
  holds (k : Nibble) : c'.holds k = (c.holds k || decide (key.onKeypad? = some k))
  pressTime (k : Nibble) : c'.pressTime k = if key.onKeypad? = some k then some now else c.pressTime k

theorem Synced.played {c : Console} (h : Synced c) {now : Duration} {e : KeyEvent} (live : c.runner.isLive = true)
    (hk : e.key ≠ .escape) (stays : e.isQuit = false) : Played now e.key c (c.handle now e) := by
  rw [handle_play live hk stays]
  cases hx : e.key.onKeypad? with
  | none => exact ⟨⟨c.runner.machine.keypad, c.pressedAt, rfl⟩, fun k => by simp [hx], fun k => by simp [hx]⟩
  | some x =>
    refine ⟨⟨_, _, rfl⟩, fun k => ?_, fun k => ?_⟩
    · rw [holds_press h, hx]
      simp only [Option.some.injEq]
    · rw [pressTime_press, hx]
      simp only [Option.some.injEq]

/-! ## Histories of a console -/

/-- What may happen to a console. -/
inductive Event
  | key (now : Duration) (e : KeyEvent)
  | frame
  /-- Keys are let go of. -/
  | timeout (now : Duration)
  /-- The loop does its next action, which may end the run. -/
  | act
  /-- The timers go on beside the console. -/
  | timers (delay sound : Timer)
  /-- From now on the system starts no thread and gives this cause, or it starts threads again. -/
  | refuse (cause : Option String)

def happen (c : Console) : Event → Console
  | .key now e => c.handle now e
  | .frame => c.nextFrame
  | .timeout now => c.release now
  | .act => { c with runner := c.runner.act }
  | .timers delay sound => { c with runner := c.runner.edit fun m => { m with delay := delay, sound := sound } }
  | .refuse cause => { c with runner := { c.runner with refusal := cause } }

/-- The console after a history, its first event first. -/
def after (c : Console) (history : List Event) : Console := history.foldl happen c

namespace Synced

variable {c : Console}

theorem handle (h : Synced c) (now : Duration) (e : KeyEvent) : Synced (c.handle now e) := by
  cases hq : e.isQuit with
  | true =>
    rw [handle_of_isQuit hq]
    exact h
  | false =>
    cases hlive : c.runner.isLive with
    | false => exact (handle_idle hlive).synced h
    | true =>
      by_cases hk : e.key = .escape
      · exact (handle_escape hlive hk).synced h
      · rw [handle_play hlive hk hq]
        cases e.key.onKeypad? with
        | none => exact h
        | some x => exact synced_updateKeys _

theorem happen (h : Synced c) (e : Event) : Synced (c.happen e) := by
  cases e with
  | key now e => exact h.handle now e
  | frame =>
    have hlook : SameKeys c.collect c.nextFrame := ⟨rfl, rfl⟩
    exact (c.collect_sameKeys.trans hlook).synced h
  | timeout now => exact synced_release h now
  | act =>
    have hact : SameKeys c (c.happen .act) := ⟨c.runner.act_keypad, rfl⟩
    exact hact.synced h
  | timers | refuse => exact h

theorem after (h : Synced c) (history : List Event) : Synced (c.after history) := by
  induction history generalizing c with
  | nil => exact h
  | cons e rest ih => exact ih (h.happen e)

end Synced

/-! ## Every state -/

/-- Keypad and command line are apart. -/
structure KeysApart (c : Console) : Prop where
  mask (k : Nibble) : c.holds k = (c.pressTime k).isSome
  quit {now : Duration} {e : KeyEvent} : e.isQuit = true → c.handle now e = { c with done := true }
  idle {now : Duration} {e : KeyEvent} : c.runner.isLive = false → SameKeys c (c.handle now e)
  live {now : Duration} {e : KeyEvent} : c.runner.isLive = true → SameLine c (c.handle now e)
  escape {now : Duration} {e : KeyEvent} : c.runner.isLive = true → e.key = .escape → Paused c (c.handle now e)
  played {now : Duration} {e : KeyEvent} : c.runner.isLive = true → e.key ≠ .escape → e.isQuit = false →
    Played now e.key c (c.handle now e)
  released {now : Duration} : Released now c (c.release now)

theorem Synced.keysApart {c : Console} (h : Synced c) : KeysApart c where
  mask := h.holds_eq
  quit := handle_of_isQuit
  idle := handle_idle
  live := handle_live
  escape := handle_escape
  played := h.played
  released := h.released _

/-- **Keypad and command line do not mix.** From a machine on whose keypad no key is held on, whatever happens to the
console. -/
theorem keys_apart (m : Machine) (history : List Event) (released : m.keypad = .released) :
    KeysApart ((ofMachine m).after history) :=
  ((synced_ofMachine released).after history).keysApart

/-- The command `run` is typed, the loop begins, and a key of the keypad is pressed. -/
def pressesBesideRun : List Event :=
  [.key .zero (.press (.character 'r')), .key .zero (.press .enter), .frame, .act,
    .key (.ofMilliseconds 1) (.press (.character 'w'))]

theorem keys_apart_pressesBesideRun :
    (Machine.initial Config.standard (.scripted [])).keypad = .released ∧
      KeysApart ((ofMachine (.initial Config.standard (.scripted []))).after pressesBesideRun) ∧
      ((ofMachine (.initial Config.standard (.scripted []))).after pressesBesideRun).runner.isLive = true ∧
      ((ofMachine (.initial Config.standard (.scripted []))).after pressesBesideRun).holds 5 = true ∧
      ((ofMachine (.initial Config.standard (.scripted []))).after
        (pressesBesideRun ++ [.timeout (.ofMilliseconds 52)])).holds 5 = false :=
  ⟨rfl, keys_apart _ _ rfl, by decide +kernel, by decide +kernel, by decide +kernel⟩

end Console

end Chip8
