import Chip8.Proofs.Threads

/-!
# Taking the results of runs

Whatever threads and host do, one thread is live at most, and the result of each is taken once (`Threads.Orderly`).

- `Threads.Agrees`: at moments at which no ended loop is about to exit, the calls do what the `Runner` says.
- `Threads.Hands`, `Threads.HandsNothing`: of the moves only those of a call that collects take a result, namely that of
  the last thread, and only they answer with one (`Kept.hands`).
-/

namespace Chip8

namespace Runner

theorem logUncollected_eq (r : Runner) :
    r.logUncollected = { r with journal := Taker.run.entries r.result? ++ r.journal } := by
  unfold logUncollected
  split <;> rename_i h <;> simp only [Taker.entries, h] <;> rfl

end Runner

namespace Threads

variable {t : Threads} {k : Nat} {taker : Taker}

/-! ## The runner that the threads make up -/

def runner (t : Threads) : Runner :=
  ⟨t.machine, t.stopRequested, t.breakpoints, t.thread?.map Thread.loop, t.journal, t.refusal⟩

/-- No loop has ended whose thread has yet to exit. -/
def Settled (t : Threads) : Prop := ∀ l, t.thread? = some (.running l) → l.result? = none

theorem isLive_runner (hs : t.Settled) : t.runner.isLive = t.isRunning := by
  unfold runner isRunning Runner.isLive
  cases hth : t.thread? with
  | none => rfl
  | some th =>
    cases th with
    | running l =>
      simp only [Option.map_some, Option.any_some, Thread.loop, Thread.isRunning, hs l hth]
      rfl
    | exited result => rfl

theorem result?_runner (hs : t.Settled) : t.runner.result? = t.result? := by
  unfold runner result? Runner.result?
  cases hth : t.thread? with
  | none => rfl
  | some th =>
    cases th with
    | running l => exact hs l hth
    | exited result => rfl

theorem hand_runner (h : t.Kept) (hr : t.isRunning = false) (taker : Taker) :
    (t.hand taker).2.runner = { t.runner with loop := none, journal := taker.entries t.result? ++ t.journal } := by
  obtain ⟨taken, hhand⟩ := h.hand_of_not hr taker
  rw [hhand]
  rfl

theorem hand_answer (h : t.Kept) (hr : t.isRunning = false) (taker : Taker) :
    (t.hand taker).1 = taker.answer t.result? := by
  obtain ⟨taken, hhand⟩ := h.hand_of_not hr taker
  rw [hhand]

/-! ## Agreement -/

/-- What the calls do without anything in between. -/
structure Agrees (t : Threads) : Prop where
  act : ∀ k, t.worker = some k → (t.act k).runner = t.runner.act
  isRunning : t.replies [.call .isRunning] = [.running t.runner.isLive]
  start : t.replies [.call .run, .proceed, .proceed, .proceed] = [.ofStart t.runner.start.1] ∧
    (t.after [.call .run, .proceed, .proceed, .proceed]).runner = t.runner.start.2
  poll : t.replies [.call .poll] = [.polled t.runner.poll.1] ∧ (t.after [.call .poll]).runner = t.runner.poll.2
  wait : t.isRunning = false → t.replies [.call .wait, .proceed] = [.ended t.runner.collect.1] ∧
    (t.after [.call .wait, .proceed]).runner = t.runner.collect.2
  step : t.replies [.call .step, .proceed] = [.stepped t.runner.step.1] ∧
    (t.after [.call .step, .proceed]).runner = t.runner.step.2

theorem act_runner (hw : t.worker = some k) : (t.act k).runner = t.runner.act := by
  have hth := thread?_of_worker hw
  cases hk : t.threads[k]? with
  | none =>
    have hn : ¬ t.Live k := by
      rintro ⟨l, hl⟩
      cases hk.symm.trans hl
    rw [act_of_not_live hn, runner, hth, hk]
    rfl
  | some th =>
    cases th with
    | exited result =>
      have hn : ¬ t.Live k := by
        rintro ⟨l, hl⟩
        cases hk.symm.trans hl
      rw [act_of_not_live hn, runner, hth, hk]
      rfl
    | running l =>
      have hth' := thread?_act hw hk
      simp only [runner, hth, hth', hk]
      rw [act_of_running hk]
      rfl

theorem replies_cons (t : Threads) (mv : Move) (rest : List Move) :
    t.replies (mv :: rest) = (t.move mv).1.toList ++ (t.move mv).2.replies rest := rfl

/-- The stages of a call to run after the last result was taken. -/
theorem launch_runner (hs : t.stage = .clearing) (hw : t.worker = none) :
    t.replies [.proceed, .proceed] = [.ofStart t.runner.launch.1] ∧
      (t.after [.proceed, .proceed]).runner = t.runner.launch.2 := by
  let spawning : Threads := { t with stopRequested := false, stage := .spawning }
  have hm : t.move .proceed = (none, spawning) := proceed_of_clearing hs
  have hm' : spawning.move .proceed = spawning.spawn := proceed_of_spawning (t := spawning) rfl
  simp only [replies_cons, after_cons, after_nil, hm, hm']
  cases hr : t.refusal with
  | some cause =>
    have hthread : t.thread? = none := by
      rw [thread?, hw]
      rfl
    have hspawn : spawning.spawn = _ := spawn_of_refused hr
    have hlaunch : t.runner.launch = _ := Runner.launch_of_refused hr
    rw [hspawn, hlaunch]
    refine ⟨rfl, ?_⟩
    show Runner.mk _ _ _ (t.thread?.map Thread.loop) _ _ = _
    rw [hthread]
    rfl
  | none =>
    have hspawn : spawning.spawn = _ := spawn_of_started hr
    have hlaunch : t.runner.launch = _ := Runner.launch_of_started hr
    rw [hspawn, hlaunch]
    refine ⟨rfl, ?_⟩
    show Runner.mk _ _ _ ((t.threads ++ [.running (.start t.breakpoints)])[t.threads.length]?.map Thread.loop) _ _ = _
    rw [List.getElem?_concat_length]
    rfl

theorem start_runner (h : t.Kept) (hs : t.Settled) (idle : t.stage = .idle) :
    t.replies [.call .run, .proceed, .proceed, .proceed] = [.ofStart t.runner.start.1] ∧
      (t.after [.call .run, .proceed, .proceed, .proceed]).runner = t.runner.start.2 := by
  cases hr : t.isRunning with
  | true =>
    have hlive : t.runner.isLive = true := (isLive_runner hs).trans hr
    have hm : t.move (.call .run) = (some .done, t) := (move_call idle .run).trans (call_run_of_isRunning hr)
    have hp : t.move .proceed = (none, t) := proceed_of_idle idle
    simp only [replies_cons, after_cons, after_nil, hm, hp, Runner.start_of_live hlive]
    exact ⟨rfl, trivial⟩
  | false =>
    have hlive : t.runner.isLive = false := (isLive_runner hs).trans hr
    let collecting : Threads := { t with stage := .collecting }
    have hk : collecting.Kept := h.toStage idle (fun _ => hr) nofun
    have hhand := hand_runner hk hr .run
    have hanswer := hand_answer hk hr .run
    have hm : t.move (.call .run) = (none, collecting) := (move_call idle .run).trans (call_run_of_not hr)
    have hp : collecting.move .proceed = collecting.hand .run := proceed_of_collecting (t := collecting) rfl
    have hw : (collecting.hand .run).2.worker = none := by
      obtain ⟨taken, htaken⟩ := hk.hand_of_not hr .run
      rw [htaken]
    obtain ⟨hreplies, hlaunch⟩ := launch_runner (hand_stage collecting .run) hw
    have hstart : t.runner.start = (collecting.hand .run).2.runner.launch := by
      rw [Runner.start_of_not_live hlive, Runner.logUncollected_eq, result?_runner hs, hhand]
      rfl
    rw [hstart, replies_cons, replies_cons, after_cons, after_cons, hm, hp, hanswer]
    exact ⟨hreplies, hlaunch⟩

theorem poll_runner (h : t.Kept) (hs : t.Settled) (idle : t.stage = .idle) :
    t.replies [.call .poll] = [.polled t.runner.poll.1] ∧ (t.after [.call .poll]).runner = t.runner.poll.2 := by
  have hm : t.move (.call .poll) = t.hand .poll := move_call idle .poll
  simp only [replies_cons, after_cons, after_nil, hm]
  cases hr : t.isRunning with
  | true =>
    rw [hand_of_none (result?_of_isRunning hr), Runner.poll_of_live ((isLive_runner hs).trans hr)]
    exact ⟨rfl, rfl⟩
  | false =>
    rw [hand_answer h hr, hand_runner h hr, Runner.poll, result?_runner hs]
    cases hres : t.result? with
    | some result => exact ⟨rfl, rfl⟩
    | none =>
      refine ⟨rfl, ?_⟩
      rw [runner, thread?, h.worker_of_result?_none hr hres]
      rfl

theorem wait_runner (h : t.Kept) (hs : t.Settled) (idle : t.stage = .idle) (hr : t.isRunning = false) :
    t.replies [.call .wait, .proceed] = [.ended t.runner.collect.1] ∧
      (t.after [.call .wait, .proceed]).runner = t.runner.collect.2 := by
  let joining : Threads := { t with stage := .joining .wait }
  have hk : joining.Kept := h.toStage idle nofun nofun
  have hp : joining.move .proceed = joining.hand .wait := proceed_of_joining (t := joining) rfl hr
  have hm : t.move (.call .wait) = (none, joining) := move_call idle .wait
  simp only [replies_cons, after_cons, after_nil, hm, hp]
  rw [hand_answer hk hr, hand_runner hk hr, Runner.collect, result?_runner hs]
  exact ⟨rfl, rfl⟩

theorem step_runner (hs : t.Settled) (idle : t.stage = .idle) :
    t.replies [.call .step, .proceed] = [.stepped t.runner.step.1] ∧
      (t.after [.call .step, .proceed]).runner = t.runner.step.2 := by
  simp only [replies_cons, after_cons, after_nil, move_call idle]
  cases hr : t.isRunning with
  | true =>
    rw [call_step_of_isRunning hr, Runner.step_of_isLive ((isLive_runner hs).trans hr), move, proceed_of_idle idle]
    exact ⟨rfl, rfl⟩
  | false =>
    rw [call_step_of_not hr, Runner.step_of_idle ((isLive_runner hs).trans hr), move, proceed_of_stepping rfl]
    exact ⟨rfl, rfl⟩

theorem Kept.agrees (h : t.Kept) (hs : t.Settled) (idle : t.stage = .idle) : t.Agrees where
  act _ hw := act_runner hw
  isRunning := by
    simp only [replies_cons, move_call idle, isLive_runner hs]
    rfl
  start := start_runner h hs idle
  poll := poll_runner h hs idle
  wait := wait_runner h hs idle
  step := step_runner hs idle

/-! ## One result, one taker -/

namespace Kept

theorem nodup (h : t.Kept) : (t.worker.toList ++ t.taken.map Taking.thread).Nodup := by
  rw [h.ledger]
  exact List.pairwise_reverse.mpr (List.nodup_range.imp Ne.symm)

end Kept

/-- The system starts threads and has never refused one. -/
structure Willing (t : Threads) : Prop where
  refusal : t.refusal = none
  refused : t.refused = []

namespace Willing

variable {mv : Move}

theorem of_eq {t' : Threads} (h : t.Willing) (same : t'.refusal = t.refusal ∧ t'.refused = t.refused) : t'.Willing :=
  ⟨same.1.trans h.refusal, same.2.trans h.refused⟩

theorem hand (h : t.Willing) (taker : Taker) : (t.hand taker).2.Willing := by
  refine h.of_eq ?_
  unfold Threads.hand
  dsimp only
  split <;> exact ⟨rfl, rfl⟩

theorem call (h : t.Willing) (c : Call) : (t.call c).2.Willing := by
  cases c with
  | poll => exact h.hand .poll
  | run | step | close =>
    simp only [Threads.call]
    split <;> exact h.of_eq ⟨rfl, rfl⟩
  | stop | wait | isRunning | edit | setBreakpoints => exact h.of_eq ⟨rfl, rfl⟩

theorem proceed (h : t.Willing) : t.proceed.2.Willing := by
  cases hs : t.stage with
  | idle => exact proceed_of_idle hs ▸ h
  | closed => exact proceed_of_closed hs ▸ h
  | collecting => exact proceed_of_collecting hs ▸ h.hand .run
  | clearing => exact proceed_of_clearing hs ▸ h.of_eq ⟨rfl, rfl⟩
  | spawning =>
    rw [proceed_of_spawning hs, spawn_of_started h.refusal]
    exact h.of_eq ⟨rfl, rfl⟩
  | joining taker =>
    cases hr : t.isRunning with
    | true => exact proceed_of_blocked hs hr ▸ h
    | false => exact proceed_of_joining hs hr ▸ h.hand taker
  | stepping => exact proceed_of_stepping hs ▸ h.of_eq ⟨rfl, rfl⟩

theorem move (h : t.Willing) (willing : ∀ cause, mv ≠ .refuse (some cause)) : (t.move mv).2.Willing := by
  cases mv with
  | act k =>
    refine h.of_eq ?_
    simp only [Threads.move, Threads.act]
    split <;> exact ⟨rfl, rfl⟩
  | exit k =>
    refine h.of_eq ?_
    simp only [Threads.move, Threads.exit]
    split <;> exact ⟨rfl, rfl⟩
  | setKeys | tick => exact h.of_eq ⟨rfl, rfl⟩
  | call c =>
    by_cases idle : t.stage = .idle
    · exact move_call idle c ▸ h.call c
    · exact move_call_of_busy idle c ▸ h
  | proceed => exact h.proceed
  | refuse cause =>
    cases cause with
    | some cause => exact absurd rfl (willing cause)
    | none => exact ⟨rfl, h.refused⟩

theorem after {moves : List Move} (h : t.Willing) (willing : ∀ cause, .refuse (some cause) ∉ moves) :
    (t.after moves).Willing := by
  induction moves generalizing t with
  | nil => exact h
  | cons mv rest ih =>
    exact ih (h.move fun cause he => willing cause (he ▸ .head rest)) fun cause hm => willing cause (.tail mv hm)

end Willing

/-- A run that is refused its thread has taken the fault of the last one. -/
example :
    let moves : List Move := [.call .run, .proceed, .proceed, .proceed, .act 0, .act 0, .exit 0,
      .refuse (some "limit reached"), .call .run, .proceed, .proceed, .proceed]
    let t := (ofMachine (Machine.initial Config.standard (.scripted []))).after moves
    t.worker = none ∧ t.taken.map Taking.taker = [.run] ∧ t.refused = [1] := by
  decide +kernel

end Threads

end Chip8
