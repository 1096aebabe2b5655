import Chip8.Proofs.Alike

/-!
# A runner and its threads

In a `Runner` a call of the host is one event, and there is room for one loop. `Threads` is the same runner seen closer:
every thread ever started is there and may act, a thread exits some time after its loop has ended, and a call of the
host is cut where threads, keys and timers may come in between. Whether there is one live thread, and whether the host
takes the result of each thread once, is up to the calls.

- `Threads.move`: one move of a thread, of the keypad, of a timer, of the host, or of the system, which may refuse to
  start threads.
- `Threads.Kept`: what every sequence of moves keeps (`Kept.move`, `Kept.after`). `worker :: taken` counts the threads
  down from the last one, so a result is taken once and in order; a thread that is not the worker has exited.
-/

namespace Chip8

/-! ## Threads and calls -/

inductive Thread
  | running (loop : RunLoop)
  | exited (result : RunEnd)
  deriving DecidableEq

namespace Thread

def isRunning : Thread → Bool
  | running _ => true
  | exited _ => false

/-- What joining the thread gives. -/
def result? : Thread → Option RunEnd
  | running _ => none
  | exited result => some result

/-- How the loop of the thread ended, whether the thread has exited or not. -/
def end? : Thread → Option RunEnd
  | running l => l.result?
  | exited result => some result

/-- The breakpoints of a loop that has ended decide nothing. -/
def loop : Thread → RunLoop
  | running l => l
  | exited result => ⟨.ended result, .empty⟩

end Thread

/-- Which call took a result. -/
inductive Taker
  | stop
  | wait
  | poll
  | run
  | close
  deriving DecidableEq

structure Taking where
  /-- The number of the thread, in the order in which threads were started. -/
  thread : Nat
  taker : Taker
  result : RunEnd
  deriving DecidableEq

/-- Where the host is in a call. -/
inductive Stage
  | idle
  /-- A run found no live thread and has yet to take what the last one left, … -/
  | collecting
  /-- … to withdraw the last request to stop, … -/
  | clearing
  /-- … and to start a thread. -/
  | spawning
  | joining (taker : Taker)
  /-- A step found no live thread and has yet to execute its instruction. -/
  | stepping
  | closed
  deriving DecidableEq

inductive Call
  | run
  | stop
  | wait
  | poll
  | isRunning
  | step
  | close
  | edit (f : Machine → Machine)
  | setBreakpoints (b : Breakpoints)

inductive Move
  | act (k : Nat)
  | exit (k : Nat)
  | setKeys (mask : UInt16)
  | tick
  | call (c : Call)
  /-- The host goes on with its call. -/
  | proceed
  /-- From now on the system starts no thread and gives this cause, or it starts threads again. -/
  | refuse (cause : Option String)

inductive Answer
  | done
  | failed (e : EngineError)
  | ended (result : RunEnd)
  | polled (result : Option RunEnd)
  | running (live : Bool)
  | stepped (outcome : Except EngineError Outcome)

/-- The answer to a run. -/
def Answer.ofStart : Except EngineError Unit → Answer
  | .ok () => .done
  | .error e => .failed e

namespace Stage

/-- The call found that no thread was live. -/
def foundIdle : Stage → Bool
  | collecting | stepping => true
  | _ => false

/-- Nothing is left for the host to join. -/
def joinedAll : Stage → Bool
  | clearing | spawning | closed => true
  | _ => false

/-- A run has taken the last result and has not started its thread. -/
def restarts : Stage → Bool
  | clearing | spawning => true
  | _ => false

theorem joinedAll_of_restarts {s : Stage} (h : s.restarts = true) : s.joinedAll = true := by
  cases s with
  | clearing | spawning => rfl
  | _ => cases h

end Stage

namespace Taker

def answer : Taker → Option RunEnd → Option Answer
  | stop, result | wait, result => some (.ended (result.getD .stopped))
  | poll, result => some (.polled result)
  | run, _ => none
  | close, _ => some .done

def entries : Taker → Option RunEnd → List LogEntry
  | stop, result | close, result => [.stopped (result.getD .stopped)]
  | run, result => ((result.bind RunEnd.error?).map .restarted).toList
  | wait, _ | poll, _ => []

def next : Taker → Stage
  | stop | wait | poll => .idle
  | run => .clearing
  | close => .closed

end Taker

structure Threads where
  machine : Machine
  stopRequested : Bool
  breakpoints : Breakpoints
  /-- Every thread ever started, the oldest first. -/
  threads : List Thread
  /-- The number of the thread that the host can join. -/
  worker : Option Nat
  stage : Stage
  journal : List LogEntry
  /-- The results taken so far, the newest first. -/
  taken : List Taking
  /-- Why the system starts no thread at present; none if it does. -/
  refusal : Option String
  /-- The numbers that the threads would have got that the system has refused. -/
  refused : List Nat

namespace Threads

def ofMachine (m : Machine) : Threads := ⟨m, false, .empty, [], none, .idle, [], [], none, []⟩

def Live (t : Threads) (k : Nat) : Prop := ∃ l, t.threads[k]? = some (.running l)

def thread? (t : Threads) : Option Thread := t.worker.bind fun k => t.threads[k]?

def isRunning (t : Threads) : Bool := t.thread?.any Thread.isRunning

/-- The result of a worker that has exited. -/
def result? (t : Threads) : Option RunEnd := t.thread?.bind Thread.result?

/-! ## Moves -/

def act (t : Threads) (k : Nat) : Threads :=
  match t.threads[k]? with
  | some (.running l) =>
    let (l, m, entry) := l.act t.stopRequested t.machine
    { t with machine := m, threads := t.threads.set k (.running l), journal := entry.toList ++ t.journal }
  | _ => t

def exit (t : Threads) (k : Nat) : Threads :=
  match t.threads[k]? with
  | some (.running ⟨.ended result, _⟩) => { t with threads := t.threads.set k (.exited result) }
  | _ => t

/-- Takes the result of the worker, if it has exited, and answers or goes on. -/
def hand (t : Threads) (taker : Taker) : Option Answer × Threads :=
  let next := { t with stage := taker.next, journal := taker.entries t.result? ++ t.journal }
  match t.worker, t.result? with
  | some k, some result =>
    (taker.answer (some result), { next with worker := none, taken := ⟨k, taker, result⟩ :: t.taken })
  | _, _ => (taker.answer none, next)

/-- Starts a thread, if the system does. -/
def spawn (t : Threads) : Option Answer × Threads :=
  match startThread "CPU" t.refusal with
  | .error e => (some (.failed e), { t with stage := .idle, refused := t.threads.length :: t.refused })
  | .ok () =>
    (some .done,
      { t with
        threads := t.threads ++ [.running (.start t.breakpoints)]
        worker := some t.threads.length
        stage := .idle
        journal := .running t.machine.config.cpuPeriod :: t.journal })

def call (t : Threads) : Call → Option Answer × Threads
  | .run => if t.isRunning then (some .done, t) else (none, { t with stage := .collecting })
  | .stop => (none, { t with stopRequested := true, stage := .joining .stop })
  | .wait => (none, { t with stage := .joining .wait })
  | .poll => t.hand .poll
  | .isRunning => (some (.running t.isRunning), t)
  | .step => if t.isRunning then (some (.stepped (.error .busy)), t) else (none, { t with stage := .stepping })
  | .close =>
    if t.worker.isSome then (none, { t with stopRequested := true, stage := .joining .close })
    else (some .done, { t with stage := .closed })
  | .edit f => (some .done, { t with machine := f t.machine })
  | .setBreakpoints b => (some .done, { t with breakpoints := b })

def proceed (t : Threads) : Option Answer × Threads :=
  match t.stage with
  | .collecting => t.hand .run
  | .clearing => (none, { t with stopRequested := false, stage := .spawning })
  | .spawning => t.spawn
  | .joining taker => if t.isRunning then (none, t) else t.hand taker
  | .stepping => (some (.stepped (.ok t.machine.step.1)), { t with machine := t.machine.step.2, stage := .idle })
  | .idle | .closed => (none, t)

/-- One move, with the answer of the call that it ends. There is no call while another one lasts. -/
def move (t : Threads) : Move → Option Answer × Threads
  | .act k => (none, t.act k)
  | .exit k => (none, t.exit k)
  | .setKeys mask => (none, { t with machine := t.machine.setKeys mask })
  | .tick => (none, { t with machine := t.machine.tick })
  | .call c => if t.stage = .idle then t.call c else (none, t)
  | .proceed => t.proceed
  | .refuse cause => (none, { t with refusal := cause })

def after (t : Threads) (moves : List Move) : Threads := moves.foldl (fun t mv => (t.move mv).2) t

@[simp] theorem after_nil (t : Threads) : t.after [] = t := rfl

@[simp] theorem after_cons (t : Threads) (mv : Move) (moves : List Move) :
    t.after (mv :: moves) = (t.move mv).2.after moves := rfl

/-- The answers that the host gets. -/
def replies : Threads → List Move → List Answer
  | _, [] => []
  | t, mv :: rest => (t.move mv).1.toList ++ replies (t.move mv).2 rest

/-! ## What a call does -/

variable {t : Threads} {k : Nat} {l : RunLoop} {taker : Taker}

theorem move_call (idle : t.stage = .idle) (c : Call) : t.move (.call c) = t.call c := if_pos idle

theorem move_call_of_busy (busy : t.stage ≠ .idle) (c : Call) : t.move (.call c) = (none, t) := if_neg busy

theorem call_run_of_isRunning (live : t.isRunning = true) : t.call .run = (some .done, t) := if_pos live

theorem call_run_of_not (h : t.isRunning = false) : t.call .run = (none, { t with stage := .collecting }) :=
  if_neg (Bool.eq_false_iff.mp h)

theorem call_step_of_isRunning (live : t.isRunning = true) : t.call .step = (some (.stepped (.error .busy)), t) :=
  if_pos live

theorem call_step_of_not (h : t.isRunning = false) : t.call .step = (none, { t with stage := .stepping }) :=
  if_neg (Bool.eq_false_iff.mp h)

theorem proceed_of_collecting (hs : t.stage = .collecting) : t.proceed = t.hand .run := by simp only [proceed, hs]

theorem proceed_of_clearing (hs : t.stage = .clearing) :
    t.proceed = (none, { t with stopRequested := false, stage := .spawning }) := by simp only [proceed, hs]

theorem proceed_of_spawning (hs : t.stage = .spawning) : t.proceed = t.spawn := by simp only [proceed, hs]

theorem spawn_of_refused {cause : String} (h : t.refusal = some cause) :
    t.spawn = (some (.failed (.spawn "CPU" cause)),
      { t with stage := .idle, refused := t.threads.length :: t.refused }) := by
  simp only [spawn, h, startThread]

theorem spawn_of_started (h : t.refusal = none) :
    t.spawn = (some .done,
      { t with
        threads := t.threads ++ [.running (.start t.breakpoints)]
        worker := some t.threads.length
        stage := .idle
        journal := .running t.machine.config.cpuPeriod :: t.journal }) := by
  simp only [spawn, h, startThread]

theorem proceed_of_stepping (hs : t.stage = .stepping) :
    t.proceed =
      (some (.stepped (.ok t.machine.step.1)), { t with machine := t.machine.step.2, stage := .idle }) := by
  simp only [proceed, hs]

/-- Joining a thread lasts until it exits. -/
theorem proceed_of_blocked (hs : t.stage = .joining taker) (live : t.isRunning = true) : t.proceed = (none, t) := by
  simp only [proceed, hs, live]
  rfl

theorem proceed_of_joining (hs : t.stage = .joining taker) (h : t.isRunning = false) : t.proceed = t.hand taker := by
  simp only [proceed, hs, h]
  rfl

theorem proceed_of_idle (hs : t.stage = .idle) : t.proceed = (none, t) := by simp only [proceed, hs]

theorem proceed_of_closed (hs : t.stage = .closed) : t.proceed = (none, t) := by simp only [proceed, hs]

/-! ## What a move of a thread does -/

theorem act_of_running (h : t.threads[k]? = some (.running l)) :
    t.act k = { t with
      machine := (l.act t.stopRequested t.machine).2.1
      threads := t.threads.set k (.running (l.act t.stopRequested t.machine).1)
      journal := (l.act t.stopRequested t.machine).2.2.toList ++ t.journal } := by
  simp only [act, h]

theorem act_of_not_live (h : ¬ t.Live k) : t.act k = t := by
  unfold act
  split
  · rename_i l hl
    exact absurd ⟨l, hl⟩ h
  · rfl

theorem act_stage (t : Threads) (k : Nat) : (t.act k).stage = t.stage := by
  unfold act
  split <;> rfl

theorem act_worker (t : Threads) (k : Nat) : (t.act k).worker = t.worker := by
  unfold act
  split <;> rfl

theorem act_stopRequested (t : Threads) (k : Nat) : (t.act k).stopRequested = t.stopRequested := by
  unfold act
  split <;> rfl

theorem exit_stage (t : Threads) (k : Nat) : (t.exit k).stage = t.stage := by
  unfold exit
  split <;> rfl

theorem exit_worker (t : Threads) (k : Nat) : (t.exit k).worker = t.worker := by
  unfold exit
  split <;> rfl

theorem exit_stopRequested (t : Threads) (k : Nat) : (t.exit k).stopRequested = t.stopRequested := by
  unfold exit
  split <;> rfl

theorem exit_of_ended {result : RunEnd} {b : Breakpoints}
    (h : t.threads[k]? = some (.running ⟨.ended result, b⟩)) :
    t.exit k = { t with threads := t.threads.set k (.exited result) } := by
  simp only [exit, h]

theorem exit_of_not_ended (h : ∀ result b, t.threads[k]? ≠ some (.running ⟨.ended result, b⟩)) : t.exit k = t := by
  unfold exit
  split
  · rename_i result b hl
    exact absurd hl (h result b)
  · rfl

theorem thread?_eq_some_iff {th : Thread} :
    t.thread? = some th ↔ ∃ k, t.worker = some k ∧ t.threads[k]? = some th := Option.bind_eq_some_iff

theorem thread?_of_worker (h : t.worker = some k) : t.thread? = t.threads[k]? := by
  rw [thread?, h]
  rfl

theorem thread?_act (hw : t.worker = some k) (h : t.threads[k]? = some (.running l)) :
    (t.act k).thread? = some (.running (l.act t.stopRequested t.machine).1) := by
  obtain ⟨hlt, -⟩ := List.getElem?_eq_some_iff.mp h
  rw [thread?_of_worker ((t.act_worker k).trans hw), act_of_running h]
  exact List.getElem?_set_self hlt

theorem thread?_exit {result : RunEnd} {b : Breakpoints} (hw : t.worker = some k)
    (h : t.threads[k]? = some (.running ⟨.ended result, b⟩)) : (t.exit k).thread? = some (.exited result) := by
  obtain ⟨hlt, -⟩ := List.getElem?_eq_some_iff.mp h
  rw [thread?_of_worker ((t.exit_worker k).trans hw), exit_of_ended h]
  exact List.getElem?_set_self hlt

theorem isRunning_iff : t.isRunning = true ↔ ∃ k, t.worker = some k ∧ t.Live k := by
  rw [isRunning, Option.any_eq_true]
  constructor
  · rintro ⟨th, hth, hr⟩
    obtain ⟨k, hw, hk⟩ := thread?_eq_some_iff.mp hth
    cases th with
    | running l => exact ⟨k, hw, l, hk⟩
    | exited result => cases hr
  · rintro ⟨k, hw, l, hl⟩
    exact ⟨_, thread?_eq_some_iff.mpr ⟨k, hw, hl⟩, rfl⟩

theorem isRunning_of_worker_none (h : t.worker = none) : t.isRunning = false := by
  rw [isRunning, thread?, h]
  rfl

theorem result?_eq_some_iff {result : RunEnd} :
    t.result? = some result ↔ ∃ k, t.worker = some k ∧ t.threads[k]? = some (.exited result) := by
  rw [result?, Option.bind_eq_some_iff]
  constructor
  · rintro ⟨th, hth, hr⟩
    obtain ⟨k, hw, hk⟩ := thread?_eq_some_iff.mp hth
    cases th with
    | running l => cases hr
    | exited r =>
      cases hr
      exact ⟨k, hw, hk⟩
  · rintro ⟨k, hw, hk⟩
    exact ⟨_, thread?_eq_some_iff.mpr ⟨k, hw, hk⟩, rfl⟩

theorem result?_of_worker_none (h : t.worker = none) : t.result? = none := by
  rw [result?, thread?, h]
  rfl

theorem result?_of_isRunning (h : t.isRunning = true) : t.result? = none := by
  obtain ⟨k, hw, l, hl⟩ := isRunning_iff.mp h
  rw [result?, thread?_of_worker hw, hl]
  rfl

theorem hand_stage (t : Threads) (taker : Taker) : (t.hand taker).2.stage = taker.next := by
  unfold hand
  dsimp only
  split <;> rfl

theorem hand_threads (t : Threads) (taker : Taker) : (t.hand taker).2.threads = t.threads := by
  unfold hand
  dsimp only
  split <;> rfl

theorem hand_stopRequested (t : Threads) (taker : Taker) : (t.hand taker).2.stopRequested = t.stopRequested := by
  unfold hand
  dsimp only
  split <;> rfl

theorem hand_of_none (h : t.result? = none) (taker : Taker) :
    t.hand taker = (taker.answer none, { t with stage := taker.next, journal := taker.entries none ++ t.journal }) := by
  simp only [hand, h]
  cases t.worker <;> rfl

theorem hand_of_some {result : RunEnd} (h : t.result? = some result) (taker : Taker) :
    ∃ k, t.worker = some k ∧ t.threads[k]? = some (.exited result) ∧
      t.hand taker = (taker.answer (some result),
        { t with
          worker := none
          taken := ⟨k, taker, result⟩ :: t.taken
          stage := taker.next
          journal := taker.entries (some result) ++ t.journal }) := by
  obtain ⟨k, hw, hk⟩ := result?_eq_some_iff.mp h
  exact ⟨k, hw, hk, by simp only [hand, h, hw]⟩

/-! ## What every move keeps -/

structure Kept (t : Threads) : Prop where
  /-- Counted down from the last thread: the worker, if there is one, and the threads whose results were taken. -/
  ledger : t.worker.toList ++ t.taken.map Taking.thread = (List.range t.threads.length).reverse
  taken : ∀ e ∈ t.taken, t.threads[e.thread]? = some (.exited e.result)
  quiet : t.stage.foundIdle = true → t.isRunning = false
  emptied : t.stage.joinedAll = true → t.worker = none
  restarted : ∀ e ∈ t.taken, e.taker = .run →
    t.stage.restarts = true ∨ e.thread + 1 < t.threads.length ∨ e.thread + 1 ∈ t.refused
  dropped : ∀ e ∈ t.taken, e.taker = .close → t.stage = .closed

namespace Kept

theorem worker_eq (h : t.Kept) (hw : t.worker = some k) : k + 1 = t.threads.length := by
  have hl := h.ledger
  rw [hw] at hl
  cases hn : t.threads.length with
  | zero =>
    rw [hn] at hl
    cases hl
  | succ n =>
    rw [hn, List.range_succ, List.reverse_append] at hl
    injection hl with hk
    omega

/-- There is nothing to join, a result to take, or a thread that runs. -/
theorem worker_cases (h : t.Kept) :
    t.worker = none ∨ (∃ k result, t.worker = some k ∧ t.threads[k]? = some (.exited result)) ∨
      ∃ k l, t.worker = some k ∧ t.threads[k]? = some (.running l) := by
  cases hw : t.worker with
  | none => exact .inl rfl
  | some k =>
    have hk := h.worker_eq hw
    have hth : t.threads[k]? = some t.threads[k] := List.getElem?_eq_getElem (by omega)
    cases hc : t.threads[k] with
    | exited result => exact .inr (.inl ⟨k, result, rfl, hc ▸ hth⟩)
    | running l => exact .inr (.inr ⟨k, l, rfl, hc ▸ hth⟩)

theorem worker_of_result?_none (h : t.Kept) (hr : t.isRunning = false) (hn : t.result? = none) : t.worker = none := by
  rcases h.worker_cases with hw | ⟨k, result, hw, hk⟩ | ⟨k, l, hw, hk⟩
  · exact hw
  · cases hn.symm.trans (result?_eq_some_iff.mpr ⟨k, hw, hk⟩)
  · cases hr.symm.trans (isRunning_iff.mpr ⟨k, hw, l, hk⟩)

/-- Handing over when no thread is live leaves no worker. -/
theorem hand_of_not (h : t.Kept) (hr : t.isRunning = false) (taker : Taker) :
    ∃ taken, t.hand taker = (taker.answer t.result?,
      { t with
        worker := none
        taken := taken
        stage := taker.next
        journal := taker.entries t.result? ++ t.journal }) := by
  cases hres : t.result? with
  | none =>
    refine ⟨t.taken, ?_⟩
    rw [hand_of_none hres, ← h.worker_of_result?_none hr hres]
  | some result =>
    obtain ⟨k, -, -, hhand⟩ := hand_of_some hres taker
    exact ⟨_, hhand⟩

/-- A thread that the host cannot join has exited, and its result was taken. -/
theorem mem_taken (h : t.Kept) (hk : k < t.threads.length) (hw : t.worker ≠ some k) :
    ∃ e ∈ t.taken, e.thread = k := by
  have hmem : k ∈ t.worker.toList ++ t.taken.map Taking.thread := by
    rw [h.ledger, List.mem_reverse]
    exact List.mem_range.mpr hk
  rcases List.mem_append.mp hmem with hm | hm
  · exact absurd (Option.mem_toList.mp hm) hw
  · exact List.mem_map.mp hm

theorem worker_of_live (h : t.Kept) (hk : t.Live k) : t.worker = some k := by
  obtain ⟨l, hl⟩ := hk
  refine Decidable.byContradiction fun hw => ?_
  obtain ⟨hlt, -⟩ := List.getElem?_eq_some_iff.mp hl
  obtain ⟨e, he, rfl⟩ := h.mem_taken hlt hw
  cases hl.symm.trans (h.taken e he)

theorem ofMachine (m : Machine) : (ofMachine m).Kept where
  ledger := rfl
  taken := nofun
  quiet := nofun
  emptied := nofun
  restarted := nofun
  dropped := nofun

/-- A live thread acts or exits. -/
theorem set {m : Machine} {th : Thread} {journal : List LogEntry} (h : t.Kept)
    (hk : t.threads[k]? = some (.running l)) :
    Kept { t with machine := m, threads := t.threads.set k th, journal := journal } where
  ledger := by
    show _ = (List.range (t.threads.set k th).length).reverse
    rw [List.length_set]
    exact h.ledger
  taken e he := by
    have he' := h.taken e he
    -- the thread that moves is live, and results are taken of threads that have exited
    have hne : k ≠ e.thread := by
      rintro rfl
      cases hk.symm.trans he'
    exact (List.getElem?_set_ne hne).trans he'
  quiet hq := by
    refine Bool.eq_false_iff.mpr fun hr => ?_
    obtain ⟨j, hw, l', hl'⟩ := isRunning_iff.mp hr
    have hj : t.Live j := by
      by_cases hkj : k = j
      · exact hkj ▸ ⟨l, hk⟩
      · exact ⟨l', (List.getElem?_set_ne hkj).symm.trans hl'⟩
    cases (h.quiet hq).symm.trans (isRunning_iff.mpr ⟨j, hw, hj⟩)
  emptied := h.emptied
  restarted e he hr := by
    show _ ∨ e.thread + 1 < (t.threads.set k th).length ∨ _
    rw [List.length_set]
    exact h.restarted e he hr
  dropped := h.dropped

theorem act (h : t.Kept) (k : Nat) : (t.act k).Kept := by
  by_cases hk : t.Live k
  · obtain ⟨l, hl⟩ := hk
    rw [act_of_running hl]
    exact h.set hl
  · rw [act_of_not_live hk]
    exact h

theorem exit (h : t.Kept) (k : Nat) : (t.exit k).Kept := by
  unfold Threads.exit
  split
  · rename_i hl
    exact h.set hl
  · exact h

/-- The host goes from one stage of its calls to another. -/
theorem toStage {stop : Bool} {s : Stage} (h : t.Kept) (idle : t.stage = .idle)
    (found : s.foundIdle = true → t.isRunning = false) (joined : s.joinedAll = true → t.worker = none) :
    Kept { t with stopRequested := stop, stage := s } where
  ledger := h.ledger
  taken := h.taken
  quiet := found
  emptied := joined
  restarted e he hr := by
    refine .inr ((h.restarted e he hr).resolve_left ?_)
    rw [idle]
    exact nofun
  dropped e he hc := by
    have hclosed := h.dropped e he hc
    rw [idle] at hclosed
    cases hclosed

/-- A result is taken, or there is none. -/
theorem hand (h : t.Kept) {taker : Taker} (joins : t.stage.joinedAll = false)
    (found : taker.next.joinedAll = true → t.isRunning = false) : (t.hand taker).2.Kept := by
  -- there is a worker to join, so no run is between its two threads and the host is not closed
  have restarted : ∀ e ∈ t.taken, e.taker = .run → e.thread + 1 < t.threads.length ∨ e.thread + 1 ∈ t.refused := by
    intro e he hr
    refine (h.restarted e he hr).resolve_left fun hs => ?_
    cases joins.symm.trans (Stage.joinedAll_of_restarts hs)
  have dropped : ∀ e ∈ t.taken, e.taker ≠ .close := by
    intro e he hc
    rw [h.dropped e he hc] at joins
    cases joins
  have quiet : taker.next.foundIdle = false := by cases taker <;> rfl
  cases hres : t.result? with
  | some result =>
    obtain ⟨k, hw, hk, hhand⟩ := hand_of_some hres taker
    rw [hhand]
    refine ⟨?_, ?_, fun hq => ?_, fun _ => rfl, ?_, ?_⟩
    · have hl := h.ledger
      rw [hw] at hl
      exact hl
    · intro e he
      rcases List.mem_cons.mp he with rfl | he
      · exact hk
      · exact h.taken e he
    · cases quiet.symm.trans hq
    · intro e he hr
      rcases List.mem_cons.mp he with rfl | he
      · exact .inl (by rw [show taker = .run from hr]; rfl)
      · exact .inr (restarted e he hr)
    · intro e he hc
      rcases List.mem_cons.mp he with rfl | he
      · show taker.next = .closed
        rw [show taker = .close from hc]
        rfl
      · exact absurd hc (dropped e he)
  | none =>
    rw [hand_of_none hres]
    refine ⟨h.ledger, h.taken, fun hq => ?_, fun hj => h.worker_of_result?_none (found hj) hres,
      fun e he hr => .inr (restarted e he hr), fun e he hc => absurd hc (dropped e he)⟩
    cases quiet.symm.trans hq

theorem spawn (h : t.Kept) (hs : t.stage = .spawning) : t.spawn.2.Kept := by
  have hw : t.worker = none := h.emptied (by rw [hs]; rfl)
  have lt : ∀ e ∈ t.taken, e.thread < t.threads.length := fun e he => (List.getElem?_eq_some_iff.mp (h.taken e he)).1
  have dropped : ∀ e ∈ t.taken, e.taker ≠ .close := by
    intro e he hc
    have hclosed := h.dropped e he hc
    rw [hs] at hclosed
    cases hclosed
  cases hr : t.refusal with
  | some cause =>
    rw [spawn_of_refused hr]
    refine ⟨h.ledger, h.taken, nofun, nofun, fun e he _ => .inr ?_, fun e he hc => absurd hc (dropped e he)⟩
    rcases Nat.lt_or_eq_of_le (lt e he) with hlt | heq
    · exact .inl hlt
    · exact .inr (List.mem_cons.mpr (.inl heq))
  | none =>
    rw [spawn_of_started hr]
    have hlength : (t.threads ++ [Thread.running (.start t.breakpoints)]).length = t.threads.length + 1 :=
      List.length_append
    refine ⟨?_, fun e he => ?_, nofun, nofun, fun e he _ => .inr (.inl ?_), fun e he hc => absurd hc (dropped e he)⟩
    · have hl := h.ledger
      rw [hw] at hl
      show t.threads.length :: t.taken.map Taking.thread = (List.range (t.threads ++ [_]).length).reverse
      rw [hlength, List.range_succ, List.reverse_append, ← hl]
      rfl
    · exact (List.getElem?_append_left (lt e he)).trans (h.taken e he)
    · show e.thread + 1 < (t.threads ++ [_]).length
      rw [hlength]
      exact Nat.succ_lt_succ (lt e he)

theorem call (h : t.Kept) (idle : t.stage = .idle) (c : Call) : (t.call c).2.Kept := by
  cases c with
  | run =>
    cases hr : t.isRunning with
    | true => exact call_run_of_isRunning hr ▸ h
    | false => exact call_run_of_not hr ▸ h.toStage idle (fun _ => hr) nofun
  | stop | wait => exact h.toStage idle nofun nofun
  | poll => exact h.hand (by rw [idle]; rfl) nofun
  | isRunning => exact h
  | step =>
    cases hr : t.isRunning with
    | true => exact call_step_of_isRunning hr ▸ h
    | false => exact call_step_of_not hr ▸ h.toStage idle (fun _ => hr) nofun
  | close =>
    show (if t.worker.isSome then _ else _ : Option Answer × Threads).2.Kept
    split
    · exact h.toStage idle nofun nofun
    · rename_i hw
      exact h.toStage idle nofun fun _ => Option.not_isSome_iff_eq_none.mp hw
  | edit f | setBreakpoints b => exact ⟨h.ledger, h.taken, h.quiet, h.emptied, h.restarted, h.dropped⟩

theorem proceed (h : t.Kept) : t.proceed.2.Kept := by
  have undropped : t.stage ≠ .closed → ∀ e ∈ t.taken, e.taker ≠ .close := fun hs e he hc => hs (h.dropped e he hc)
  cases hs : t.stage with
  | idle => exact proceed_of_idle hs ▸ h
  | closed => exact proceed_of_closed hs ▸ h
  | collecting =>
    rw [proceed_of_collecting hs]
    exact h.hand (by rw [hs]; rfl) fun _ => h.quiet (by rw [hs]; rfl)
  | clearing =>
    rw [proceed_of_clearing hs]
    exact ⟨h.ledger, h.taken, nofun, fun _ => h.emptied (by rw [hs]; rfl), fun _ _ _ => .inl rfl,
      fun e he hc => absurd hc (undropped (by rw [hs]; exact nofun) e he)⟩
  | spawning =>
    rw [proceed_of_spawning hs]
    exact h.spawn hs
  | joining taker =>
    cases hr : t.isRunning with
    | true => exact proceed_of_blocked hs hr ▸ h
    | false =>
      rw [proceed_of_joining hs hr]
      exact h.hand (by rw [hs]; rfl) fun _ => hr
  | stepping =>
    rw [proceed_of_stepping hs]
    refine ⟨h.ledger, h.taken, nofun, nofun, fun e he hr => .inr ((h.restarted e he hr).resolve_left ?_),
      fun e he hc => absurd hc (undropped (by rw [hs]; exact nofun) e he)⟩
    rw [hs]
    exact nofun

theorem move (h : t.Kept) (mv : Move) : (t.move mv).2.Kept := by
  cases mv with
  | act k => exact h.act k
  | exit k => exact h.exit k
  | setKeys | tick | refuse => exact ⟨h.ledger, h.taken, h.quiet, h.emptied, h.restarted, h.dropped⟩
  | call c =>
    by_cases idle : t.stage = .idle
    · exact move_call idle c ▸ h.call idle c
    · exact move_call_of_busy idle c ▸ h
  | proceed => exact h.proceed

theorem after (h : t.Kept) (moves : List Move) : (t.after moves).Kept := by
  induction moves generalizing t with
  | nil => exact h
  | cons mv rest ih => exact ih (h.move mv)

end Kept

end Threads

end Chip8
