import Chip8.Proofs.Keys

/-!
# An empty command line

`Enter` on an empty command line stands for the last line that was handed in. What is remembered for it is read off the
history: the command that the last line with anything on it is, or nothing if it is none (`Console.last_after`).

While no loop is live, typing changes the command line only, and what happens besides it, the keys that a live loop
takes included, does not see it (`Console.happen_withInput`). So the line typed again and handed in meets the same
console as `Enter` alone, and leaves the same, unless the command breaks off (`Console.SameEffect`). `Retyped` says that
one history is another one with the line typed again in front of every `Enter`, whatever happens in between; both come
to the same (`Retyped.after`). `Console.empty_line` is the statement for every state of a console.
-/

namespace Chip8.Console

open Debugger (Command)

/-! ## Lines -/

/-- A press of `Enter`. -/
def KeyEvent.IsEnter (e : KeyEvent) : Prop := e.key = .enter ∧ e.stroke = .press

instance (e : KeyEvent) : Decidable e.IsEnter := inferInstanceAs (Decidable (_ ∧ _))

/-- The press of a character that is not `Ctrl` and `C`. -/
def KeyEvent.Types (e : KeyEvent) (ch : Char) : Prop :=
  e.key = .character ch ∧ e.stroke = .press ∧ e.isQuit = false

/-- The command line that the event hands in, if there is anything on it. -/
def submitted? (c : Console) : Event → Option (List Char)
  | .key _ e => if c.runner.isLive = false ∧ e.IsEnter ∧ c.input ≠ [] then some c.input else none
  | _ => none

/-- The last line that a history hands in. -/
def lastLine? (c : Console) : List Event → Option (List Char)
  | [] => none
  | e :: rest => (lastLine? (c.happen e) rest).or (c.submitted? e)

/-- The same console with another command line. -/
def withInput (c : Console) (line : List Char) : Console := { c with input := line }

/-! ## What is remembered -/

section Remembered

variable (c : Console)

theorem last_carryOut (command : Command) : (c.carryOut command).last = c.last := by
  unfold carryOut
  split <;> rfl

theorem last_submit (line : List Char) : (c.submit line).last = (Command.parse line).toOption := by
  unfold submit
  cases Command.parse line with
  | ok command => exact last_carryOut _ command
  | error e => rfl

theorem last_again : c.again.last = c.last := by
  unfold again
  split
  · exact c.last_carryOut _
  · rfl

theorem input_carryOut (command : Command) : (c.carryOut command).input = c.input := by
  unfold carryOut
  split <;> rfl

theorem input_again : c.again.input = c.input := by
  unfold again
  split
  · exact c.input_carryOut _
  · rfl

/-- `Enter` on an empty command line. -/
theorem enter_of_blank {c : Console} (blank : c.input = []) : c.enter = c.again := by
  have hempty : c.again.withInput [] = c.again := by
    rw [← blank, ← c.input_again]
    rfl
  unfold enter
  rw [blank, List.isEmpty_nil, if_pos rfl]
  dsimp only
  split
  · rfl
  · exact hempty

/-- `Enter` on a command line with something on it. -/
theorem enter_of_line {c : Console} (hline : c.input ≠ []) :
    c.enter = if (c.submit c.input).broken.isSome then c.submit c.input else (c.submit c.input).withInput [] := by
  have hempty : c.input.isEmpty = false := by simpa using hline
  unfold enter
  rw [hempty, if_neg Bool.false_ne_true]
  rfl

theorem last_enter : c.enter.last = if c.input = [] then c.last else (Command.parse c.input).toOption := by
  split
  · next blank => rw [enter_of_blank blank, last_again]
  · next hline =>
    rw [enter_of_line hline, ← last_submit]
    split <;> rfl

end Remembered

section Keys

variable {c : Console} {now : Duration} {e : KeyEvent} {ch : Char}

theorem KeyEvent.IsEnter.isQuit_eq_false (h : e.IsEnter) : e.isQuit = false := by
  rw [isQuit, h.1]
  exact Bool.and_false _

theorem handle_of_isEnter (idle : c.runner.isLive = false) (h : e.IsEnter) : c.handle now e = c.enter := by
  rw [handle_of_idle idle h.isQuit_eq_false, if_pos h.2, h.1]
  rfl

theorem handle_of_types (idle : c.runner.isLive = false) (h : e.Types ch) :
    c.handle now e = c.withInput (c.input ++ [ch]) := by
  rw [handle_of_idle idle h.2.2, if_pos h.2.1, h.1]
  rfl

/-- A key that does not hand in the command line leaves the remembered command alone. -/
theorem last_handle_of_not_isEnter (h : ¬ (c.runner.isLive = false ∧ e.IsEnter)) : (c.handle now e).last = c.last := by
  cases hq : e.isQuit with
  | true => rw [handle_of_isQuit hq]
  | false =>
    cases hlive : c.runner.isLive with
    | true => exact (handle_live hlive).last
    | false =>
      rw [handle_of_idle hlive hq]
      split
      · next hpress =>
        cases hk : e.key with
        | enter => exact absurd ⟨hlive, hk, hpress⟩ h
        | character | escape | backspace | other => rfl
      · rfl

end Keys

/-- What an event makes of the remembered command. -/
theorem last_happen (c : Console) (e : Event) :
    (c.happen e).last =
      match c.submitted? e with
      | some line => (Command.parse line).toOption
      | none => c.last := by
  cases e with
  | key now e =>
    by_cases h : c.runner.isLive = false ∧ e.IsEnter
    · have hhandle : c.happen (.key now e) = c.enter := handle_of_isEnter h.1 h.2
      rw [hhandle, last_enter]
      by_cases hline : c.input = []
      · simp [submitted?, hline]
      · simp [submitted?, h, hline]
    · have hnothing : c.submitted? (.key now e) = none := if_neg fun h' => h ⟨h'.1, h'.2.1⟩
      rw [hnothing]
      exact last_handle_of_not_isEnter h
  | frame =>
    show c.collect.last = c.last
    unfold collect
    split <;> rfl
  | timeout now =>
    show (c.release now).last = c.last
    unfold release
    split <;> rfl
  | act | timers | refuse => rfl

/-- What is remembered after a history is the command that its last line is. -/
theorem last_after (c : Console) (history : List Event) :
    (c.after history).last =
      match c.lastLine? history with
      | some line => (Command.parse line).toOption
      | none => c.last := by
  induction history generalizing c with
  | nil => rfl
  | cons e rest ih =>
    have hrest : (c.after (e :: rest)).last = _ := ih (c.happen e)
    rw [hrest, last_happen, lastLine?]
    cases lastLine? (c.happen e) rest <;> rfl

/-- A line that is handed in has something on it. -/
theorem ne_nil_of_lastLine? {c : Console} {history : List Event} {line : List Char}
    (h : c.lastLine? history = some line) : line ≠ [] := by
  induction history generalizing c with
  | nil => cases h
  | cons e rest ih =>
    rw [lastLine?, Option.or_eq_some_iff] at h
    rcases h with h | ⟨-, h⟩
    · exact ih h
    · cases e with
      | key now e =>
        rw [submitted?] at h
        split at h
        · next hline =>
          cases h
          exact hline.2.2
        · cases h
      | frame | timeout | act | timers | refuse => cases h

/-! ## The command line is not seen -/

theorem withInput_input (c : Console) : c.withInput c.input = c := rfl

theorem carryOut_withInput (c : Console) (line : List Char) (command : Command) :
    (c.withInput line).carryOut command = (c.carryOut command).withInput line := by
  simp only [carryOut, withInput]
  split <;> rfl

/-- The event is no key for the command line: it is no key at all or not pressed, closes the console, or goes to a live
loop. -/
def LeavesLine (c : Console) : Event → Prop
  | .key _ e => c.runner.isLive = true ∨ e.isQuit = true ∨ e.stroke ≠ .press
  | _ => True

/-- A key that a live loop takes has nothing to do with the command line. -/
theorem play_withInput (c : Console) (line : List Char) (now : Duration) (k : Key) :
    (c.withInput line).play now k = (c.play now k).withInput line := by
  simp only [play]
  split
  · simp only [pause, withInput]
    split <;> rfl
  · split <;> rfl

theorem handle_withInput (c : Console) (line : List Char) {now : Duration} {e : KeyEvent}
    (leaves : c.LeavesLine (.key now e)) : (c.withInput line).handle now e = (c.handle now e).withInput line := by
  cases hq : e.isQuit with
  | true =>
    rw [handle_of_isQuit hq, handle_of_isQuit hq]
    rfl
  | false =>
    cases hlive : c.runner.isLive with
    | true => rw [handle_of_live hlive hq, handle_of_live (c := c.withInput line) hlive hq, play_withInput]
    | false =>
      have hstroke : e.stroke ≠ .press := by
        rcases leaves with live | quit | hstroke
        · cases hlive.symm.trans live
        · cases hq.symm.trans quit
        · exact hstroke
      rw [handle_of_idle hlive hq, handle_of_idle (c := c.withInput line) hlive hq, if_neg hstroke, if_neg hstroke]

/-- What happens besides the command line has nothing to do with it. -/
theorem happen_withInput (c : Console) (line : List Char) {e : Event} (leaves : c.LeavesLine e) :
    (c.withInput line).happen e = (c.happen e).withInput line := by
  cases e with
  | key now e => exact c.handle_withInput line leaves
  | frame =>
    simp only [happen, nextFrame, look, collect, withInput]
    split <;> rfl
  | timeout now =>
    simp only [happen, release]
    exact (apply_ite (withInput · line) (c.pressedAt.toList.any (·.any (expired now)) = true)
      (updateKeys { c with pressedAt := c.recent now }) c).symm
  | act | timers | refuse => rfl

theorem input_happen (c : Console) {e : Event} (leaves : c.LeavesLine e) : (c.happen e).input = c.input := by
  have h := congrArg input (c.happen_withInput c.input leaves)
  exact h

theorem last_happen_of_leavesLine (c : Console) {e : Event} (leaves : c.LeavesLine e) :
    (c.happen e).last = c.last := by
  have hnothing : c.submitted? e = none := by
    cases e with
    | key now e =>
      refine if_neg fun ⟨idle, enter, _⟩ => ?_
      rcases leaves with live | quit | hstroke
      · cases idle.symm.trans live
      · cases enter.isQuit_eq_false.symm.trans quit
      · exact hstroke enter.2
    | frame | timeout | act | timers | refuse => rfl
  rw [last_happen, hnothing]

/-! ## The line typed again -/

/-- The consoles are the same, but for the command line if the command broke off, which leaves it behind. -/
structure SameEffect (c c' : Console) : Prop where
  same : c' = c.withInput c'.input
  input : c.broken = none → c'.input = c.input

/-- If nothing broke off, the consoles are the same. -/
theorem SameEffect.eq {c c' : Console} (h : SameEffect c c') (alive : c.broken = none) : c' = c := by
  rw [h.same, h.input alive, withInput_input]

theorem sameEffect_refl (c : Console) : SameEffect c c := ⟨rfl, fun _ => rfl⟩

section Again

variable {c : Console} {line : List Char} {command : Command}

/-- The remembered line handed in once more does what an empty one does. -/
theorem sameEffect_enter (blank : c.input = []) (last : c.last = some command) (hline : line ≠ [])
    (hparse : Command.parse line = .ok command) : SameEffect c.enter (c.withInput line).enter := by
  have hagain : c.enter = c.carryOut command := by rw [enter_of_blank blank, again, last]
  -- the command is remembered already, so handing in the line does not change what is remembered
  have hremember : { c.withInput line with last := some command } = c.withInput line := by
    rw [← last]
    rfl
  have hsubmit : (c.withInput line).submit line = (c.carryOut command).withInput line := by
    rw [submit, hparse]
    dsimp only
    rw [hremember, carryOut_withInput]
  have htyped : (c.withInput line).enter =
      if (c.carryOut command).broken.isSome then (c.carryOut command).withInput line
      else (c.carryOut command).withInput [] := by
    have henter := enter_of_line (c := c.withInput line) hline
    rw [show (c.withInput line).input = line from rfl, hsubmit] at henter
    exact henter
  rw [hagain, htyped]
  refine ⟨?_, fun alive => ?_⟩
  · split <;> rfl
  · rw [alive, Option.isSome_none, if_neg Bool.false_ne_true, input_carryOut, blank]
    rfl

end Again

/-- The second history is the first one with the line typed again before each `Enter`: from `c` on in the first, where
no key goes to the command line but `Enter`; in the second `typed` is on the command line already. A console on which a
command broke off is at its end. -/
inductive Retyped (line : List Char) : List Char → Console → List Event → List Event → Prop
  | done {c : Console} : Retyped line [] c [] []
  | beside {typed : List Char} {c : Console} {e : Event} {h h' : List Event} : c.broken = none → c.LeavesLine e →
      Retyped line typed (c.happen e) h h' → Retyped line typed c (e :: h) (e :: h')
  | type {typed : List Char} {c : Console} {now : Duration} {e : KeyEvent} {ch : Char} {h h' : List Event} :
      c.broken = none → c.runner.isLive = false → e.Types ch →
      Retyped line (typed ++ [ch]) c h h' → Retyped line typed c h (.key now e :: h')
  | enter {c : Console} {now : Duration} {e : KeyEvent} {h h' : List Event} :
      c.broken = none → c.runner.isLive = false → e.IsEnter →
      Retyped line [] (c.happen (.key now e)) h h' → Retyped line line c (.key now e :: h) (.key now e :: h')

namespace Retyped

variable {line typed : List Char} {c : Console} {h h' : List Event} {command : Command}

theorem eq_nil_of_broken (broken : c.broken ≠ none) (hr : Retyped line typed c h h') : h = [] ∧ h' = [] := by
  cases hr with
  | done => exact ⟨rfl, rfl⟩
  | beside alive | type alive | enter alive => exact absurd alive broken

/-- Typing the line again comes to the same, however often it is done. -/
theorem after (hr : Retyped line typed c h h') (blank : c.input = []) (last : c.last = some command)
    (hline : line ≠ []) (hparse : Command.parse line = .ok command) :
    SameEffect (c.after h) ((c.withInput typed).after h') := by
  induction hr with
  | @done c =>
    have hsame : c.withInput [] = c := by rw [← blank, withInput_input]
    rw [hsame]
    exact sameEffect_refl c
  | @beside typed c e h h' alive leaves _ ih =>
    have hgoal := ih ((c.input_happen leaves).trans blank) ((c.last_happen_of_leavesLine leaves).trans last)
    rw [← happen_withInput c typed leaves] at hgoal
    exact hgoal
  | @type typed c now e ch h h' alive idle types _ ih =>
    have hhandle : (c.withInput typed).happen (.key now e) = c.withInput (typed ++ [ch]) :=
      handle_of_types (c := c.withInput typed) idle types
    have hgoal := ih blank last
    rw [← hhandle] at hgoal
    exact hgoal
  | @enter c now e h h' alive idle enter hrest ih =>
    have hhandle : c.happen (.key now e) = c.enter := handle_of_isEnter idle enter
    have hhandle' : (c.withInput line).happen (.key now e) = (c.withInput line).enter :=
      handle_of_isEnter (c := c.withInput line) idle enter
    have hsame := sameEffect_enter blank last hline hparse
    have hinput : c.enter.input = [] := by rw [enter_of_blank blank, input_again, blank]
    show SameEffect ((c.happen (.key now e)).after h) (((c.withInput line).happen (.key now e)).after h')
    rw [hhandle] at hrest ih ⊢
    rw [hhandle']
    by_cases broken : c.enter.broken = none
    · -- the two consoles are the same again
      have hblank : c.enter.withInput [] = c.enter := by rw [← hinput, withInput_input]
      have hlast : c.enter.last = some command := by rw [last_enter, if_pos blank, last]
      have hgoal := ih hinput hlast
      rw [hblank] at hgoal
      rw [hsame.eq broken]
      exact hgoal
    · obtain ⟨rfl, rfl⟩ := hrest.eq_nil_of_broken broken
      exact hsame

end Retyped

/-! ## Every state -/

/-- The presses of the characters of a line. -/
def typing (now : Duration) (line : List Char) : List Event := line.map fun ch => .key now (.press (.character ch))

theorem after_append (c : Console) (h h' : List Event) : c.after (h ++ h') = (c.after h).after h' := List.foldl_append

theorem press_types (ch : Char) : (KeyEvent.press (.character ch)).Types ch := ⟨rfl, rfl, rfl⟩

/-- A line that is typed while no loop is live is put behind what is on the command line. -/
theorem after_typing {c : Console} (idle : c.runner.isLive = false) (now : Duration) (line : List Char) :
    c.after (typing now line) = c.withInput (c.input ++ line) := by
  induction line generalizing c with
  | nil => rw [List.append_nil, withInput_input]; rfl
  | cons ch rest ih =>
    have hfirst : c.happen (.key now (.press (.character ch))) = c.withInput (c.input ++ [ch]) :=
      handle_of_types idle (press_types ch)
    show (c.happen (.key now (.press (.character ch)))).after (typing now rest) = _
    rw [hfirst, ih (c := c.withInput (c.input ++ [ch])) idle]
    simp [withInput]

/-- The line may be typed again all at once, before the second history goes on. -/
theorem Retyped.typing {line typed more : List Char} {c : Console} {h h' : List Event} (alive : c.broken = none)
    (idle : c.runner.isLive = false) (now : Duration) (hr : Retyped line (typed ++ more) c h h') :
    Retyped line typed c h (Console.typing now more ++ h') := by
  induction more generalizing typed with
  | nil => simpa [Console.typing] using hr
  | cons ch rest ih =>
    refine .type alive idle (press_types ch) (ih ?_)
    rwa [List.append_assoc]

/-- One more `Enter`, and the line typed again in front of it. -/
theorem Retyped.again {line : List Char} {c : Console} {h h' : List Event} (alive : c.broken = none)
    (idle : c.runner.isLive = false) (now : Duration)
    (hr : Retyped line [] (c.happen (.key now (.press .enter))) h h') :
    Retyped line [] c (.key now (.press .enter) :: h)
      (Console.typing now line ++ .key now (.press .enter) :: h') :=
  .typing alive idle now (.enter alive idle ⟨rfl, rfl⟩ hr)

/-- Handing in an empty command line is as good as typing the line again and handing it in. -/
structure Repeats (c : Console) (line : List Char) : Prop where
  once (now : Duration) :
    SameEffect (c.handle now (.press .enter)) (c.after (typing now line ++ [.key now (.press .enter)]))
  emptied (now : Duration) : (c.handle now (.press .enter)).input = []
  /-- Any number of times, whatever happens in between. -/
  often {h h' : List Event} : Retyped line [] c h h' → SameEffect (c.after h) (c.after h')

theorem repeats {c : Console} {line : List Char} {command : Command} (idle : c.runner.isLive = false)
    (blank : c.input = []) (last : c.last = some command) (hline : line ≠ [])
    (hparse : Command.parse line = .ok command) : Repeats c line where
  once now := by
    have henter : (KeyEvent.press .enter).IsEnter := ⟨rfl, rfl⟩
    have htyped : c.after (typing now line ++ [.key now (.press .enter)]) = (c.withInput line).enter := by
      rw [after_append, after_typing idle, blank, List.nil_append]
      exact handle_of_isEnter (c := c.withInput line) idle henter
    rw [htyped, handle_of_isEnter idle henter]
    exact sameEffect_enter blank last hline hparse
  emptied now := by rw [handle_of_isEnter idle ⟨rfl, rfl⟩, enter_of_blank blank, input_again, blank]
  often hr := by
    have hsame := hr.after blank last hline hparse
    rwa [← blank, withInput_input] at hsame

/-- **An empty line means the last line again.** While no loop is live and nothing is on the command line, `Enter` does
what the last line does that was handed in, typed and handed in again, if that is a command, and does nothing if it is
none or there was no line. -/
theorem empty_line (m : Machine) (history : List Event) (idle : ((ofMachine m).after history).runner.isLive = false)
    (blank : ((ofMachine m).after history).input = []) :
    (∀ line command, (ofMachine m).lastLine? history = some line → Command.parse line = .ok command →
      Repeats ((ofMachine m).after history) line) ∧
    ((ofMachine m).lastLine? history = none ∨
        (∃ line error, (ofMachine m).lastLine? history = some line ∧ Command.parse line = .error error) →
      ∀ (now : Duration) (e : KeyEvent), e.IsEnter →
        ((ofMachine m).after history).handle now e = (ofMachine m).after history) := by
  have hlast := (ofMachine m).last_after history
  constructor
  · intro line command hline hparse
    rw [hline] at hlast
    dsimp only at hlast
    rw [hparse] at hlast
    exact repeats idle blank hlast (ne_nil_of_lastLine? hline) hparse
  · intro hnone now e enter
    have hforgotten : ((ofMachine m).after history).last = none := by
      rcases hnone with hline | ⟨line, error, hline, hparse⟩
      · rw [hlast, hline]
        rfl
      · rw [hlast, hline]
        dsimp only
        rw [hparse]
        rfl
    rw [handle_of_isEnter idle enter, enter_of_blank blank, again, hforgotten]

/-- A console on which a step was handed in, which met no instruction. -/
def failedStep : Console :=
  (ofMachine (.initial Config.standard (.scripted []))).after (typing .zero ['s'] ++ [.key .zero (.press .enter)])

/-- The same after a line of white space. -/
def failedParse : Console :=
  (ofMachine (.initial Config.standard (.scripted []))).after
    (typing .zero ['s'] ++ .key .zero (.press .enter) :: typing .zero [' '] ++ [.key .zero (.press .enter)])

/-- The step fails twice more, whether its line is typed or not; behind the white space nothing is remembered. -/
theorem empty_line_failedStep :
    Repeats failedStep ['s'] ∧
      SameEffect (failedStep.after [.key .zero (.press .enter), .key .zero (.press .enter)])
        (failedStep.after (typing .zero ['s'] ++ .key .zero (.press .enter) ::
          (typing .zero ['s'] ++ [.key .zero (.press .enter)]))) ∧
      failedParse.handle .zero (.press .enter) = failedParse := by
  have hrepeats : Repeats failedStep ['s'] :=
    (empty_line (.initial Config.standard (.scripted [])) _ (by decide +kernel) (by decide +kernel)).1
      ['s'] .step (by decide +kernel) rfl
  refine ⟨hrepeats, hrepeats.often ?_, ?_⟩
  · have hidle : (failedStep.happen (.key .zero (.press .enter))).runner.isLive = false := by decide +kernel
    exact .again (by decide +kernel) (by decide +kernel) .zero (.again (by decide +kernel) hidle .zero .done)
  · exact (empty_line (.initial Config.standard (.scripted [])) _ (by decide +kernel) (by decide +kernel)).2
      (.inr ⟨[' '], _, by decide +kernel, rfl⟩) .zero _ ⟨rfl, rfl⟩

end Chip8.Console
