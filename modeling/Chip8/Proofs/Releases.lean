import Chip8.Proofs.Keys

/-!
# The release of a key

A terminal may report that a key is let go of. While no loop is live, the console takes nothing but presses, and a
release is lost on it. Beside a live loop it does not look at the stroke: the release of a key of the keypad presses the
key once more, and that of `Esc` pauses the run. `Console.Harmless` says what a release should leave as it is,
`Console.Harms` on which keys it does not; `Console.release_effect` is the statement for every state of a console.
-/

namespace Chip8

namespace Console

/-- No key is held on that was not, no press is recorded again, a live loop goes on, and the command line, the output
and the remembered command are untouched. -/
structure Harmless (c c' : Console) : Prop where
  holds (k : Nibble) : c'.holds k = true → c.holds k = true
  pressTime (k : Nibble) (t : Duration) : c'.pressTime k = some t → c.pressTime k = some t
  live : c.runner.isLive = true → c'.runner.isLive = true
  input : c'.input = c.input
  output : c'.output = c.output
  last : c'.last = c.last

theorem Harmless.refl (c : Console) : Harmless c c := ⟨fun _ => id, fun _ _ => id, id, rfl, rfl, rfl⟩

/-- A loop is live, and the key pauses it or is a key of the keypad, whose press is not yet recorded for this moment. -/
def Harms (c : Console) (now : Duration) (key : Key) : Prop :=
  c.runner.isLive = true ∧ (key = .escape ∨ ∃ x, key.onKeypad? = some x ∧ c.pressTime x ≠ some now)

/-! ## What becomes of a key event -/

theorem Paused.not_live {c c' : Console} (h : Paused c c') : c'.runner.isLive = false := by
  rw [Runner.isLive, h.loop]
  rfl

/-- A press that is recorded for this moment is not recorded anew. -/
theorem Synced.press_eq_self {c : Console} (h : Synced c) {now : Duration} {x : Nibble}
    (recorded : c.pressTime x = some now) : c.press now x = c := by
  have hsame : c.pressedAt.setIfInBounds x.val (some now) = c.pressedAt := by
    refine Vector.ext fun k hk => ?_
    rw [Vector.getElem_setIfInBounds]
    split
    · next hx =>
      rw [← recorded]
      simp only [pressTime, get_eq_getElem, hx]
    · rfl
  rw [press, hsame]
  exact h.updateKeys_eq

section Release

variable {c : Console} {now : Duration} {e : KeyEvent}

/-- Beside a live loop the stroke does not matter. -/
theorem handle_stroke (live : c.runner.isLive = true) (stroke : Stroke) :
    c.handle now { e with stroke := stroke } = c.handle now e := by
  simp only [handle_eq, KeyEvent.isQuit, live, if_true]

/-- The command line takes presses only. -/
theorem handle_release_idle (idle : c.runner.isLive = false) (released : e.stroke = .release)
    (plain : e.isQuit = false) : c.handle now e = c := by
  have hnopress : e.stroke ≠ .press := by
    rw [released]
    decide
  rw [handle_of_idle idle plain, if_neg hnopress]

/-- What is not on the list of harms changes nothing. -/
theorem Synced.handle_of_not_harms (h : Synced c) (released : e.stroke = .release) (plain : e.isQuit = false)
    (spared : ¬ Harms c now e.key) : c.handle now e = c := by
  cases live : c.runner.isLive with
  | false => exact handle_release_idle live released plain
  | true =>
    have hescape : e.key ≠ .escape := fun he => spared ⟨live, .inl he⟩
    rw [handle_play live hescape plain]
    cases hx : e.key.onKeypad? with
    | none => rfl
    | some x =>
      have recorded : c.pressTime x = some now :=
        Classical.byContradiction fun hne => spared ⟨live, .inr ⟨x, hx, hne⟩⟩
      exact h.press_eq_self recorded

/-- What is on the list does harm. -/
theorem not_harmless_of_harms (plain : e.isQuit = false) (harms : Harms c now e.key) :
    ¬ Harmless c (c.handle now e) := by
  intro hharmless
  obtain ⟨live, hkey⟩ := harms
  by_cases hescape : e.key = .escape
  · -- the loop is gone
    have hgone : (c.handle now e).runner.isLive = false := (handle_escape live hescape).not_live
    rw [hharmless.live live] at hgone
    cases hgone
  · obtain ⟨x, hx, hne⟩ := hkey.resolve_left hescape
    have hpressed : (c.handle now e).pressTime x = some now := by
      rw [handle_play live hescape plain, hx]
      exact (pressTime_press c now x x).trans (if_pos rfl)
    exact hne (hharmless.pressTime x now hpressed)

end Release

/-! ## Every state -/

/-- What the release of a key does to a console. -/
structure ReleaseEffect (c : Console) (now : Duration) (e : KeyEvent) : Prop where
  idle : c.runner.isLive = false → c.handle now e = c
  /-- Beside a live loop it is a press. -/
  asPress : c.runner.isLive = true → c.handle now e = c.handle now { e with stroke := .press }
  keypad (x : Nibble) : c.runner.isLive = true → e.key.onKeypad? = some x → c.handle now e = c.press now x
  harmless_iff : Harmless c (c.handle now e) ↔ ¬ Harms c now e.key
  unchanged : ¬ Harms c now e.key → c.handle now e = c

theorem Synced.releaseEffect {c : Console} (h : Synced c) {now : Duration} {e : KeyEvent}
    (released : e.stroke = .release) (plain : e.isQuit = false) : ReleaseEffect c now e where
  idle := fun idle => handle_release_idle idle released plain
  asPress := fun live => (handle_stroke live .press).symm
  keypad := fun x live hx => by
    have hescape : e.key ≠ .escape := by
      rintro he
      rw [he] at hx
      cases hx
    rw [handle_play live hescape plain, hx]
  harmless_iff := by
    refine ⟨fun hharmless harms => not_harmless_of_harms plain harms hharmless, fun spared => ?_⟩
    rw [h.handle_of_not_harms released plain spared]
    exact .refl c
  unchanged := h.handle_of_not_harms released plain

/-- **Where the release of a key presses one.** From a machine on whose keypad no key is held on, whatever happens to
the console: the release of a key without `Ctrl` changes nothing at all, unless a loop is live and the key is `Esc` or
one of the keypad. Then it does what its press does, and that is harm unless the press is recorded already. -/
theorem release_effect (m : Machine) (history : List Event) (now : Duration) (e : KeyEvent)
    (keypad : m.keypad = .released) (released : e.stroke = .release) (plain : e.control = false) :
    ReleaseEffect ((ofMachine m).after history) now e := by
  have hquit : e.isQuit = false := by
    rw [KeyEvent.isQuit, plain, Bool.false_and]
  exact ((synced_ofMachine keypad).after history).releaseEffect released hquit

theorem release_effect_besideRun :
    (Machine.initial Config.standard (.scripted [])).keypad = .released ∧
      Harms ((ofMachine (.initial Config.standard (.scripted []))).after pressesBesideRun) (.ofMilliseconds 2)
        (.character 'x') ∧
      ReleaseEffect ((ofMachine (.initial Config.standard (.scripted []))).after pressesBesideRun) (.ofMilliseconds 2)
        ⟨.character 'x', false, .release⟩ := by
  have live : ((ofMachine (.initial Config.standard (.scripted []))).after pressesBesideRun).runner.isLive = true := by
    decide +kernel
  have unrecorded :
      ((ofMachine (.initial Config.standard (.scripted []))).after pressesBesideRun).pressTime 0 = none := by
    decide +kernel
  have hne : ((ofMachine (.initial Config.standard (.scripted []))).after pressesBesideRun).pressTime 0 ≠
      some (.ofMilliseconds 2) := by
    rw [unrecorded]
    exact (Option.some_ne_none _).symm
  exact ⟨rfl, ⟨live, .inr ⟨0, by decide, hne⟩⟩, release_effect _ pressesBesideRun _ _ rfl rfl rfl⟩

/-- A release is not harmless everywhere: that of `x` beside a live loop presses the key 0 of the keypad. -/
theorem release_presses :
    ¬ ∀ (m : Machine) (history : List Event) (now : Duration) (e : KeyEvent), m.keypad = .released →
      e.stroke = .release → e.control = false →
        Harmless ((ofMachine m).after history) (((ofMachine m).after history).handle now e) := by
  intro hall
  have hharmless := hall (.initial Config.standard (.scripted [])) pressesBesideRun (.ofMilliseconds 2)
    ⟨.character 'x', false, .release⟩ rfl rfl rfl
  have hheld := hharmless.holds 0 (by decide +kernel)
  exact absurd hheld (by decide +kernel)

end Console

end Chip8
