import Chip8.Proofs.Collection
import Chip8.Proofs.RunMode

/-!
# Stopping a run

A stop sets the request and joins the thread; the loop may be anywhere at that moment.

- `RunLoop.endUnderStop`: how a loop ends that meets the request wherever it is. Nothing that happens while it goes on
  changes that (`endUnderStop_act`, `endUnderStop_eq`), and three actions are enough (`Phase.due`).
- `Threads.Stopping`: the host is in a stop. Each move keeps it and leaves the loop fewer steps and actions
  (`Stopping.move`).
- `Threads.AtRest`: nothing is live, and the host calls nothing that wakes the machine.
- `Threads.stop_prompt_final` puts this together, with the way back: a run withdraws the requests made before it.
-/

namespace Chip8

/-! ## A loop under a stop request -/

namespace Phase

/-- The most actions that a loop may yet do under a stop request. -/
def due : Phase → Nat
  | .ended _ => 0
  | .ready | .check _ => 1
  | .keyWait _ | .compare _ => 2
  | .execute => 3

theorem due_le (phase : Phase) : phase.due ≤ 3 := by
  cases phase <;> simp [due]

theorem eq_ended_of_due {phase : Phase} (h : phase.due = 0) : ∃ result, phase = .ended result := by
  cases phase with
  | ended result => exact ⟨result, rfl⟩
  | _ => cases h

end Phase

namespace RunLoop

/-- How the loop ends when it meets a stop request where it is. -/
def endUnderStop (m : Machine) : RunLoop → RunEnd
  | ⟨.ready, _⟩ | ⟨.keyWait _, _⟩ | ⟨.check _, _⟩ => .stopped
  | ⟨.execute, _⟩ => m.failure?.getD .stopped
  | ⟨.compare pc, b⟩ => if b.contains pc then .breakpoint pc else .stopped
  | ⟨.ended result, _⟩ => result

variable {m m' : Machine} {l : RunLoop}

theorem endUnderStop_eq (h : m.Alike m') : l.endUnderStop m' = l.endUnderStop m := by
  obtain ⟨phase, b⟩ := l
  cases phase with
  | execute => simp only [endUnderStop, h.failure?_eq]
  | _ => rfl

/-- The loop's own actions do not change how it ends. -/
theorem endUnderStop_act (l : RunLoop) (m : Machine) :
    (l.act true m).1.endUnderStop (l.act true m).2.1 = l.endUnderStop m := by
  obtain ⟨phase, b⟩ := l
  cases phase with
  | ready | keyWait | check | ended => rfl
  | compare pc =>
    cases hb : b.contains pc <;> simp [act, compare, endUnderStop, hb]
  | execute =>
    show endUnderStop (execute m).2.1 ⟨(execute m).1, b⟩ = m.failure?.getD .stopped
    rw [execute_phase, Machine.failure?]
    cases m.step.1 <;> rfl

theorem due_act (l : RunLoop) (m : Machine) : (l.act true m).1.phase.due ≤ l.phase.due - 1 := by
  obtain ⟨phase, b⟩ := l
  cases phase with
  | ready | keyWait | check | ended => exact Nat.le_refl _
  | compare pc =>
    cases hb : b.contains pc <;> simp [act, compare, Phase.due, hb]
  | execute =>
    show (execute m).1.due ≤ 2
    rw [execute_phase]
    cases m.step.1 <;> simp [Phase.due]

/-- Under a stop request no loop comes to execute an instruction. -/
theorem executes_act (l : RunLoop) (m : Machine) : (l.act true m).1.phase.executes = false := by
  obtain ⟨phase, b⟩ := l
  cases phase with
  | ready | keyWait | check | ended => rfl
  | compare pc =>
    cases hb : b.contains pc <;> simp [act, compare, Phase.executes, hb]
  | execute =>
    show (execute m).1.executes = false
    rw [execute_phase]
    cases m.step.1 <;> rfl

/-- A loop that nobody asks to stop does not end as stopped. -/
theorem result?_act_ne_stopped (m : Machine) (h : l.result? ≠ some .stopped) :
    (l.act false m).1.result? ≠ some .stopped := by
  obtain ⟨phase, b⟩ := l
  cases phase with
  | ready | check => simp [act, result?]
  | ended => exact h
  | keyWait pc =>
    cases hk : (m.keypad.look false).isSome <;> simp [act, result?, hk]
  | compare pc =>
    cases hb : b.contains pc <;> simp [act, compare, result?, hb]
  | execute =>
    show result? ⟨(execute m).1, b⟩ ≠ _
    rw [execute_phase]
    cases m.step.1 <;> simp [result?]

end RunLoop

namespace Runner

variable {r : Runner} {l : RunLoop}

/-- One action under a stop request. -/
theorem act_under_stop (hs : r.stopRequested = true) (hl : r.loop = some l) :
    ∃ l', r.act.loop = some l' ∧ r.act.stopRequested = true ∧
      l'.endUnderStop r.act.machine = l.endUnderStop r.machine ∧ l'.phase.due ≤ l.phase.due - 1 := by
  have hm := act_machine_eq hl
  rw [hs] at hm
  refine ⟨_, act_loop hl, r.act_stopRequested.trans hs, ?_, ?_⟩
  · rw [hs, hm]
    exact l.endUnderStop_act r.machine
  · rw [hs]
    exact l.due_act r.machine

/-- A stop gives the result of the loop, wherever that is. -/
theorem stop_fst (r : Runner) : r.stop.1 = (r.loop.map fun l => l.endUnderStop r.machine).getD .stopped := by
  cases hl : r.loop with
  | none =>
    obtain ⟨m, stop, b, loop, journal⟩ := r
    cases hl
    rfl
  | some l =>
    obtain ⟨l₁, hl₁, hs₁, he₁, hd₁⟩ := act_under_stop (r := r.requestStop) rfl hl
    obtain ⟨l₂, hl₂, hs₂, he₂, hd₂⟩ := act_under_stop hs₁ hl₁
    obtain ⟨l₃, hl₃, hs₃, he₃, hd₃⟩ := act_under_stop hs₂ hl₂
    have hdue := l.phase.due_le
    have hzero : l₃.phase.due = 0 := by omega
    obtain ⟨phase, b⟩ := l₃
    obtain ⟨result, rfl⟩ := Phase.eq_ended_of_due hzero
    have hresult : result = l.endUnderStop r.machine := he₃.trans (he₂.trans he₁)
    show r.requestStop.act.act.act.result?.getD .stopped = _
    rw [result?_of_loop hl₃, hresult]
    rfl

end Runner

/-! ## The host in a stop -/

namespace Move

def isProceed : Move → Bool
  | .proceed => true
  | _ => false

def isActOf (k : Nat) : Move → Bool
  | .act j => j == k
  | _ => false

def stops : Move → Bool
  | .call .stop | .call .close => true
  | _ => false

/-- The host sets the machine going or edits it. -/
def rouses : Move → Bool
  | .call .run | .call .step | .call (.edit _) => true
  | _ => false

end Move

namespace Threads

variable {t now : Threads} {mv : Move} {k : Nat} {w : Option Nat} {result : RunEnd}

/-- Whether the move makes a thread execute an instruction. -/
def executes (t : Threads) : Move → Bool
  | .act k => t.threads[k]?.any fun th => th.loop.phase.executes
  | _ => false

/-- The number of instructions that threads execute. -/
def stepsIn (t : Threads) : List Move → Nat
  | [] => 0
  | mv :: rest => (t.executes mv).toNat + (t.move mv).2.stepsIn rest

/-- How the worker ends under a stop request, `stopped` if there is none. -/
def lastEnd (t : Threads) : RunEnd := (t.thread?.map fun th => th.loop.endUnderStop t.machine).getD .stopped

def due (t : Threads) : Nat := (t.thread?.map fun th => th.loop.phase.due).getD 0

theorem due_le (t : Threads) : t.due ≤ 3 := by
  rw [due]
  cases t.thread? with
  | none => exact Nat.zero_le _
  | some th => exact th.loop.phase.due_le

/-- The worker is about to execute an instruction. -/
def mayExecute (t : Threads) : Bool := t.thread?.any fun th => th.loop.phase.executes

theorem executes_of_not_live (h : ¬ t.Live k) : t.executes (.act k) = false := by
  show (t.threads[k]?.any fun th => th.loop.phase.executes) = false
  cases hk : t.threads[k]? with
  | none => rfl
  | some th =>
    cases th with
    | running l => exact absurd ⟨l, hk⟩ h
    | exited result => rfl

theorem Kept.due_of_not (h : t.Kept) (hr : t.isRunning = false) : t.due = 0 := by
  rcases h.worker_cases with hw | ⟨k, result, hw, hk⟩ | ⟨k, l, hw, hk⟩
  · rw [due, thread?, hw]
    rfl
  · rw [due, thread?_of_worker hw, hk]
    rfl
  · cases hr.symm.trans (isRunning_iff.mpr ⟨k, hw, l, hk⟩)

theorem Kept.lastEnd_of_not (h : t.Kept) (hr : t.isRunning = false) : t.lastEnd = t.result?.getD .stopped := by
  cases hres : t.result? with
  | none =>
    rw [lastEnd, thread?, h.worker_of_result?_none hr hres]
    rfl
  | some result =>
    obtain ⟨k, hw, hk⟩ := result?_eq_some_iff.mp hres
    rw [lastEnd, thread?_of_worker hw, hk]
    rfl

/-- The host has made a stop request and joins the worker, which is to end with the result. -/
structure Stopping (w : Option Nat) (result : RunEnd) (now : Threads) : Prop where
  kept : now.Kept
  stage : now.stage = .joining .stop
  requested : now.stopRequested = true
  worker : now.worker = w
  lastEnd_eq : now.lastEnd = result

namespace Stopping

/-- The worker goes on as `th` instead. -/
theorem goOn {now' : Threads} {th th' : Thread} (h : now.Stopping w result) (hk : now'.Kept)
    (hs : now'.stage = now.stage) (hr : now'.stopRequested = now.stopRequested) (hw : now'.worker = now.worker)
    (hth : now.thread? = some th) (hth' : now'.thread? = some th')
    (he : th'.loop.endUnderStop now'.machine = th.loop.endUnderStop now.machine) : now'.Stopping w result := by
  refine ⟨hk, hs.trans h.stage, hr.trans h.requested, hw.trans h.worker, ?_⟩
  rw [← h.lastEnd_eq, lastEnd, lastEnd, hth, hth']
  exact he

/-- Nothing happens to the worker. -/
theorem same {now' : Threads} (h : now.Stopping w result) (hk : now'.Kept) (hs : now'.stage = now.stage)
    (hr : now'.stopRequested = now.stopRequested) (hw : now'.worker = now.worker)
    (hth : now'.thread? = now.thread?) (hm : now.machine.Alike now'.machine) : now'.Stopping w result := by
  refine ⟨hk, hs.trans h.stage, hr.trans h.requested, hw.trans h.worker, ?_⟩
  rw [← h.lastEnd_eq, lastEnd, lastEnd, hth]
  cases now.thread? with
  | none => simp only [Option.map_none]
  | some th =>
    simp only [Option.map_some]
    exact RunLoop.endUnderStop_eq hm

theorem act (h : now.Stopping w result) (k : Nat) :
    (now.act k).Stopping w result ∧
      (now.executes (.act k)).toNat + (now.act k).mayExecute.toNat ≤ now.mayExecute.toNat ∧
      ∀ j, w = some j → (now.act k).due ≤ now.due - (k == j).toNat := by
  by_cases hlive : now.Live k
  · obtain ⟨l, hl⟩ := hlive
    -- no thread but the worker is live, so the action is one under the stop request
    have hw := h.kept.worker_of_live ⟨l, hl⟩
    have hth := (thread?_of_worker hw).trans hl
    have hth' := thread?_act hw hl
    rw [h.requested] at hth'
    have hm' : (now.act k).machine = (l.act true now.machine).2.1 := by
      rw [act_of_running hl, h.requested]
    refine ⟨h.goOn (h.kept.act k) (now.act_stage k) (now.act_stopRequested k) (now.act_worker k) hth hth' ?_,
      ?_, fun j hj => ?_⟩
    · rw [hm']
      exact l.endUnderStop_act now.machine
    · simp only [executes, mayExecute, hl, hth, hth', Option.any_some, Thread.loop, RunLoop.executes_act]
      exact Nat.le_refl _
    · cases hw.symm.trans (h.worker.trans hj)
      simp only [due, hth, hth', Option.map_some, Option.getD_some, Thread.loop, beq_self_eq_true]
      exact l.due_act now.machine
  · rw [act_of_not_live hlive, executes_of_not_live hlive]
    refine ⟨h, Nat.le_of_eq (Nat.zero_add _), fun j hj => ?_⟩
    cases hkj : k == j with
    | false => exact Nat.le_refl _
    | true =>
      obtain rfl := eq_of_beq hkj
      have hr : now.isRunning = false := by
        refine Bool.eq_false_iff.mpr fun hr => ?_
        obtain ⟨i, hi, hlive'⟩ := isRunning_iff.mp hr
        cases hi.symm.trans (h.worker.trans hj)
        exact hlive hlive'
      rw [h.kept.due_of_not hr]
      exact Nat.zero_le _

theorem exit (h : now.Stopping w result) (k : Nat) :
    (now.exit k).Stopping w result ∧ (now.exit k).mayExecute = now.mayExecute ∧ (now.exit k).due = now.due := by
  by_cases hend : ∃ r b, now.threads[k]? = some (.running ⟨.ended r, b⟩)
  · obtain ⟨r, b, hl⟩ := hend
    have hw := h.kept.worker_of_live ⟨_, hl⟩
    have hth := (thread?_of_worker hw).trans hl
    have hth' := thread?_exit hw hl
    refine ⟨h.goOn (h.kept.exit k) (now.exit_stage k) (now.exit_stopRequested k) (now.exit_worker k) hth hth' rfl,
      ?_, ?_⟩
    · rw [mayExecute, mayExecute, hth, hth']
      rfl
    · rw [due, due, hth, hth']
      rfl
  · rw [exit_of_not_ended fun r b hl => hend ⟨r, b, hl⟩]
    exact ⟨h, rfl, rfl⟩

/-- The worker keeps its result, and has fewer instructions and actions left. -/
theorem move (h : now.Stopping w result) (hp : mv.isProceed = false) :
    (now.move mv).2.Stopping w result ∧
      (now.executes mv).toNat + (now.move mv).2.mayExecute.toNat ≤ now.mayExecute.toNat ∧
      ∀ k, w = some k → (now.move mv).2.due ≤ now.due - (mv.isActOf k).toNat := by
  have hkept := h.kept.move mv
  cases mv with
  | act j => exact h.act j
  | exit j =>
    obtain ⟨h', hx, hd⟩ := h.exit j
    have hx' : (now.move (.exit j)).2.mayExecute = now.mayExecute := hx
    refine ⟨h', ?_, fun k hw => Nat.le_of_eq hd⟩
    rw [hx']
    exact Nat.le_of_eq (Nat.zero_add _)
  | setKeys mask =>
    exact ⟨h.same hkept rfl rfl rfl rfl (.setKeys _ _), Nat.le_of_eq (Nat.zero_add _), fun _ _ => Nat.le_refl _⟩
  | tick => exact ⟨h.same hkept rfl rfl rfl rfl (.tick _), Nat.le_of_eq (Nat.zero_add _), fun _ _ => Nat.le_refl _⟩
  | call c =>
    have busy : now.stage ≠ .idle := by
      rw [h.stage]
      exact nofun
    rw [move_call_of_busy busy c]
    exact ⟨h, Nat.le_of_eq (Nat.zero_add _), fun _ _ => Nat.le_refl _⟩
  | refuse =>
    exact ⟨h.same hkept rfl rfl rfl rfl (.refl _), Nat.le_of_eq (Nat.zero_add _), fun _ _ => Nat.le_refl _⟩
  | proceed => cases hp

/-- While the host joins the worker, that executes one instruction at most, and each of its actions counts. -/
theorem after {later : List Move} (h : now.Stopping w result) (hp : ∀ mv ∈ later, mv.isProceed = false) :
    (now.after later).Stopping w result ∧ now.stepsIn later ≤ now.mayExecute.toNat ∧
      ∀ k, w = some k → (now.after later).due ≤ now.due - later.countP (Move.isActOf k) := by
  induction later generalizing now with
  | nil => exact ⟨h, Nat.zero_le _, fun _ _ => Nat.le_refl _⟩
  | cons mv rest ih =>
    obtain ⟨h', hx, hd⟩ := h.move (hp mv (.head rest))
    obtain ⟨h'', hx', hd'⟩ := ih h' fun mv' hm => hp mv' (.tail mv hm)
    refine ⟨h'', ?_, fun k hw => ?_⟩
    · rw [stepsIn]
      omega
    · have hfirst := hd k hw
      have hrest := hd' k hw
      have hone : (if mv.isActOf k = true then 1 else 0) = (mv.isActOf k).toNat := by
        cases mv.isActOf k <;> rfl
      rw [List.countP_cons, after_cons]
      omega

/-- The worker's three actions are over. -/
theorem exits (h : now.Stopping w result) (hw : w = some k) (hd : now.due = 0) : (now.exit k).isRunning = false := by
  have hw' := h.worker.trans hw
  rcases h.kept.worker_cases with hn | ⟨j, r, hj, hk⟩ | ⟨j, l, hj, hk⟩
  · cases hn.symm.trans hw'
  · cases hj.symm.trans hw'
    have hnot : now.exit k = now := exit_of_not_ended fun r' b hl => nomatch hk.symm.trans hl
    rw [hnot, isRunning, thread?_of_worker hw', hk]
    rfl
  · cases hj.symm.trans hw'
    rw [due, thread?_of_worker hw', hk] at hd
    obtain ⟨phase, b⟩ := l
    obtain ⟨r, rfl⟩ := Phase.eq_ended_of_due hd
    rw [isRunning, thread?_exit hw' hk]
    rfl

/-- The stop returns. -/
theorem returns (h : now.Stopping w result) (hr : now.isRunning = false) :
    ∃ taken, now.move .proceed = (some (.ended result),
      { now with worker := none, taken := taken, stage := .idle, journal := .stopped result :: now.journal }) := by
  obtain ⟨taken, hhand⟩ := h.kept.hand_of_not hr .stop
  have hres : now.result?.getD .stopped = result := (h.kept.lastEnd_of_not hr).symm.trans h.lastEnd_eq
  refine ⟨taken, ?_⟩
  show now.proceed = _
  rw [proceed_of_joining h.stage hr, hhand]
  simp only [Taker.answer, Taker.entries, Taker.next, hres]
  rfl

end Stopping

theorem Kept.stopping (h : t.Kept) (idle : t.stage = .idle) :
    (t.move (.call .stop)).2.Stopping t.worker t.lastEnd := by
  rw [move_call idle]
  exact ⟨h.call idle .stop, rfl, rfl, rfl, rfl⟩

/-! ## After a stop -/

/-- No thread is live, and the host is in no call that makes one or steps. -/
structure AtRest (t : Threads) : Prop where
  kept : t.Kept
  worker : t.worker = none
  stage : t.stage = .idle ∨ t.stage = .closed ∨ ∃ taker, taker ≠ .run ∧ t.stage = .joining taker

namespace AtRest

theorem not_live (h : t.AtRest) (k : Nat) : ¬ t.Live k := by
  intro hk
  cases h.worker.symm.trans (h.kept.worker_of_live hk)

theorem hand (h : t.AtRest) {taker : Taker} (hne : taker ≠ .run) (hk : (t.hand taker).2.Kept) :
    (t.hand taker).2.AtRest ∧ t.machine.Alike (t.hand taker).2.machine := by
  rw [hand_of_none (result?_of_worker_none h.worker)] at hk ⊢
  refine ⟨⟨hk, h.worker, ?_⟩, .refl _⟩
  cases taker with
  | run => exact absurd rfl hne
  | close => exact .inr (.inl rfl)
  | _ => exact .inl rfl

theorem call (h : t.AtRest) (idle : t.stage = .idle) {c : Call} (hr : (Move.call c).rouses = false) :
    (t.call c).2.AtRest ∧ t.machine.Alike (t.call c).2.machine := by
  have hk := h.kept.call idle c
  cases c with
  | run | step | edit => cases hr
  | stop => exact ⟨⟨hk, h.worker, .inr (.inr ⟨.stop, nofun, rfl⟩)⟩, .refl _⟩
  | wait => exact ⟨⟨hk, h.worker, .inr (.inr ⟨.wait, nofun, rfl⟩)⟩, .refl _⟩
  | poll => exact h.hand nofun hk
  | isRunning => exact ⟨h, .refl _⟩
  | close =>
    have hcall : t.call .close = (some .done, { t with stage := .closed }) := by
      simp only [Threads.call, h.worker]
      rfl
    rw [hcall] at hk ⊢
    exact ⟨⟨hk, h.worker, .inr (.inl rfl)⟩, .refl _⟩
  | setBreakpoints => exact ⟨⟨hk, h.worker, h.stage⟩, .refl _⟩

theorem move (h : t.AtRest) (hr : mv.rouses = false) :
    (t.move mv).2.AtRest ∧ t.machine.Alike (t.move mv).2.machine := by
  have hk := h.kept.move mv
  cases mv with
  | act k =>
    have hact : (t.move (.act k)).2 = t := act_of_not_live (h.not_live k)
    rw [hact]
    exact ⟨h, .refl _⟩
  | exit k =>
    have hexit : (t.move (.exit k)).2 = t := exit_of_not_ended fun _ _ hl => h.not_live k ⟨_, hl⟩
    rw [hexit]
    exact ⟨h, .refl _⟩
  | setKeys mask => exact ⟨⟨hk, h.worker, h.stage⟩, .setKeys _ _⟩
  | tick => exact ⟨⟨hk, h.worker, h.stage⟩, .tick _⟩
  | refuse => exact ⟨⟨hk, h.worker, h.stage⟩, .refl _⟩
  | call c =>
    by_cases idle : t.stage = .idle
    · rw [move_call idle]
      exact h.call idle hr
    · rw [move_call_of_busy idle]
      exact ⟨h, .refl _⟩
  | proceed =>
    have hk' : t.proceed.2.Kept := hk
    show t.proceed.2.AtRest ∧ t.machine.Alike t.proceed.2.machine
    rcases h.stage with hs | hs | ⟨taker, hne, hs⟩
    · rw [proceed_of_idle hs]
      exact ⟨h, .refl _⟩
    · rw [proceed_of_closed hs]
      exact ⟨h, .refl _⟩
    · rw [proceed_of_joining hs (isRunning_of_worker_none h.worker)] at hk' ⊢
      exact h.hand hne hk'

theorem after {rest : List Move} (h : t.AtRest) (hr : ∀ mv ∈ rest, mv.rouses = false) :
    (t.after rest).AtRest ∧ t.machine.Alike (t.after rest).machine := by
  induction rest generalizing t with
  | nil => exact ⟨h, .refl _⟩
  | cons mv rest ih =>
    obtain ⟨h', hm⟩ := h.move (hr mv (.head rest))
    obtain ⟨h'', hm'⟩ := ih h' fun mv' hmem => hr mv' (.tail mv hmem)
    exact ⟨h'', hm.trans hm'⟩

end AtRest

/-! ## Agreement with the runner -/

theorem lastEnd_eq_stop (t : Threads) : t.lastEnd = t.runner.stop.1 := by
  rw [Runner.stop_fst, lastEnd, runner, Option.map_map]
  rfl

theorem exit_runner (t : Threads) (k : Nat) :
    { (t.exit k).runner with loop := none } = { t.runner with loop := none } := by
  unfold exit
  split <;> rfl

/-- A stop during which the loop does what is left to it and nothing else happens. -/
theorem stop_runner (h : t.Kept) (idle : t.stage = .idle) (hw : t.worker = some k) :
    (t.after [.call .stop, .act k, .act k, .act k, .exit k, .proceed]).runner = t.runner.stop.2 := by
  let asked := (t.move (.call .stop)).2
  let last := asked.after [.act k, .act k, .act k]
  -- the loop has ended in `last`; exiting only drops its breakpoints, and the stop takes the loop away
  have hstop : asked.Stopping t.worker t.lastEnd := h.stopping idle
  obtain ⟨hlast, -, hdue⟩ : last.Stopping t.worker t.lastEnd ∧ _ ∧ _ :=
    hstop.after (by simp [Move.isProceed])
  have hzero : last.due = 0 := by
    have hle := asked.due_le
    have hthree : [Move.act k, .act k, .act k].countP (Move.isActOf k) = 3 := by simp [Move.isActOf]
    have hd := hdue k hw
    rw [hthree] at hd
    exact Nat.le_zero.mp (Nat.le_trans hd (by omega))
  have hrunner : last.runner = t.runner.requestStop.act.act.act := by
    have hw₀ : asked.worker = some k := hstop.worker.trans hw
    have hw₁ := (asked.act_worker k).trans hw₀
    have hw₂ := ((asked.act k).act_worker k).trans hw₁
    have hasked : asked.runner = t.runner.requestStop := by
      show (t.move (.call .stop)).2.runner = _
      rw [move_call idle]
      rfl
    show (((asked.act k).act k).act k).runner = _
    rw [act_runner hw₂, act_runner hw₁, act_runner hw₀, hasked]
  obtain ⟨hexit, -⟩ := hlast.exit k
  obtain ⟨taken, hreturns⟩ := hexit.returns (hlast.exits hw hzero)
  have hleft := last.exit_runner k
  rw [hrunner] at hleft
  show ((last.exit k).move .proceed).2.runner = _
  rw [hreturns, t.lastEnd_eq_stop]
  exact congrArg (fun r : Runner => r.log (.stopped t.runner.stop.1)) hleft

/-! ## Requests made before a run -/

/-- Thread number `n` is not started yet, or nobody has asked it to stop. -/
structure Uncancelled (n : Nat) (t : Threads) : Prop where
  withdrawn : t.stage = .spawning ∨ n < t.threads.length → t.stopRequested = false
  ends : ∀ th, t.threads[n]? = some th → th.end? ≠ some .stopped

namespace Uncancelled

variable {n : Nat}

theorem of_eq {t' : Threads} (h : t.Uncancelled n) (hth : t'.threads = t.threads)
    (hs : t'.stopRequested = t.stopRequested) (hstage : t'.stage = t.stage ∨ t'.stage ≠ .spawning) :
    t'.Uncancelled n := by
  refine ⟨fun hn => hs.trans (h.withdrawn ?_), fun th hl => h.ends th (hth ▸ hl)⟩
  rw [hth] at hn
  rcases hn with hn | hn
  · rcases hstage with hstage | hstage
    · exact .inl (hstage ▸ hn)
    · exact absurd hn hstage
  · exact .inr hn

theorem hand (h : t.Uncancelled n) (taker : Taker) : (t.hand taker).2.Uncancelled n := by
  refine h.of_eq (t.hand_threads taker) (t.hand_stopRequested taker) (.inr ?_)
  rw [t.hand_stage]
  cases taker <;> exact nofun

/-- A live thread goes on as another one. -/
theorem set {m : Machine} {th th' : Thread} {journal : List LogEntry} (h : t.Uncancelled n)
    (hk : t.threads[k]? = some th)
    (hend : t.stopRequested = false → th.end? ≠ some .stopped → th'.end? ≠ some .stopped) :
    Uncancelled n { t with machine := m, threads := t.threads.set k th', journal := journal } := by
  obtain ⟨hlt, -⟩ := List.getElem?_eq_some_iff.mp hk
  refine ⟨fun hn => h.withdrawn ?_, fun th'' hl => ?_⟩
  · rw [List.length_set] at hn
    exact hn
  · by_cases hkn : k = n
    · subst hkn
      cases (List.getElem?_set_self hlt).symm.trans hl
      exact hend (h.withdrawn (.inr hlt)) (h.ends th hk)
    · exact h.ends th'' ((List.getElem?_set_ne hkn).symm.trans hl)

theorem spawn (h : t.Uncancelled n) (hs : t.stage = .spawning) : t.spawn.2.Uncancelled n := by
  cases hr : t.refusal with
  | some cause =>
    rw [spawn_of_refused hr]
    exact h.of_eq rfl rfl (.inr nofun)
  | none =>
    rw [spawn_of_started hr]
    refine ⟨fun _ => h.withdrawn (.inl hs), fun th hl => ?_⟩
    have hl' : (t.threads ++ [.running (.start t.breakpoints)])[n]? = some th := hl
    rcases Nat.lt_trichotomy n t.threads.length with hlt | heq | hgt
    · rw [List.getElem?_append_left hlt] at hl'
      exact h.ends th hl'
    · subst heq
      rw [List.getElem?_concat_length] at hl'
      cases hl'
      exact nofun
    · rw [List.getElem?_eq_none (by simp; omega)] at hl'
      cases hl'

theorem call (h : t.Uncancelled n) {c : Call} (hs : (Move.call c).stops = false) :
    (t.call c).2.Uncancelled n := by
  cases c with
  | stop | close => cases hs
  | run =>
    cases hr : t.isRunning with
    | true => exact call_run_of_isRunning hr ▸ h
    | false => exact call_run_of_not hr ▸ h.of_eq rfl rfl (.inr nofun)
  | step =>
    cases hr : t.isRunning with
    | true => exact call_step_of_isRunning hr ▸ h
    | false => exact call_step_of_not hr ▸ h.of_eq rfl rfl (.inr nofun)
  | wait => exact h.of_eq rfl rfl (.inr nofun)
  | poll => exact h.hand .poll
  | isRunning | edit | setBreakpoints => exact h.of_eq rfl rfl (.inl rfl)

theorem proceed (h : t.Uncancelled n) : t.proceed.2.Uncancelled n := by
  cases hs : t.stage with
  | idle => exact proceed_of_idle hs ▸ h
  | closed => exact proceed_of_closed hs ▸ h
  | collecting => exact proceed_of_collecting hs ▸ h.hand .run
  | clearing =>
    rw [proceed_of_clearing hs]
    exact ⟨fun _ => rfl, h.ends⟩
  | spawning => exact proceed_of_spawning hs ▸ h.spawn hs
  | joining taker =>
    cases hr : t.isRunning with
    | true => exact proceed_of_blocked hs hr ▸ h
    | false => exact proceed_of_joining hs hr ▸ h.hand taker
  | stepping => exact proceed_of_stepping hs ▸ h.of_eq rfl rfl (.inr nofun)

theorem move (h : t.Uncancelled n) (hs : mv.stops = false) : (t.move mv).2.Uncancelled n := by
  cases mv with
  | act k =>
    show (t.act k).Uncancelled n
    by_cases hk : t.Live k
    · obtain ⟨l, hl⟩ := hk
      rw [act_of_running hl]
      refine h.set hl fun hflag hend => ?_
      rw [hflag]
      exact RunLoop.result?_act_ne_stopped t.machine hend
    · rw [act_of_not_live hk]
      exact h
  | exit k =>
    show (t.exit k).Uncancelled n
    unfold exit
    split
    · rename_i hl
      exact h.set hl fun _ hend => hend
    · exact h
  | setKeys | tick | refuse => exact h.of_eq rfl rfl (.inl rfl)
  | call c =>
    by_cases idle : t.stage = .idle
    · rw [move_call idle]
      exact h.call hs
    · rw [move_call_of_busy idle]
      exact h
  | proceed => exact h.proceed

theorem after {rest : List Move} (h : t.Uncancelled n) (hs : ∀ mv ∈ rest, mv.stops = false) :
    (t.after rest).Uncancelled n := by
  induction rest generalizing t with
  | nil => exact h
  | cons mv rest ih => exact ih (h.move (hs mv (.head rest))) fun mv' hm => hs mv' (.tail mv hm)

end Uncancelled

/-- Before the call that starts thread number `n`. -/
theorem uncancelled (idle : t.stage = .idle) : t.Uncancelled t.threads.length where
  withdrawn hn := by
    rcases hn with hn | hn
    · cases idle.symm.trans hn
    · exact absurd hn (Nat.lt_irrefl _)
  ends th hl := by
    obtain ⟨hlt, -⟩ := List.getElem?_eq_some_iff.mp hl
    exact absurd hlt (Nat.lt_irrefl _)

/-! ## A stop and what follows -/

/-- What comes of a stop called in `t` when `now` is reached while it lasts. -/
structure StopsAmid (t : Threads) (later : List Move) (now : Threads) : Prop where
  one_step : (t.move (.call .stop)).2.stepsIn later ≤ 1
  /-- Three actions of the worker are enough for it to exit. -/
  prompt : ∀ k, t.worker = some k → 3 ≤ later.countP (Move.isActOf k) → (now.exit k).isRunning = false
  blocked : now.isRunning = true → now.move .proceed = (none, now)
  answer : now.isRunning = false → (now.move .proceed).1 = some (.ended t.lastEnd)
  none_live : now.isRunning = false → ∀ k, ¬ (now.move .proceed).2.Live k
  /-- From then on only keys and timers change, until the host sets the machine going or edits it. -/
  final : now.isRunning = false → ∀ rest : List Move, (∀ mv ∈ rest, mv.rouses = false) →
    now.machine.Alike ((now.move .proceed).2.after rest).machine

theorem Stopping.atRest (h : now.Stopping w result) (hr : now.isRunning = false) :
    (now.move .proceed).2.AtRest ∧ (now.move .proceed).2.machine = now.machine := by
  have hk := h.kept.move .proceed
  obtain ⟨taken, hreturns⟩ := h.returns hr
  rw [hreturns] at hk ⊢
  exact ⟨⟨hk, rfl, .inl rfl⟩, rfl⟩

theorem Kept.stopsAmid (h : t.Kept) (idle : t.stage = .idle) {later : List Move}
    (hp : ∀ mv ∈ later, mv.isProceed = false) : t.StopsAmid later ((t.move (.call .stop)).2.after later) := by
  obtain ⟨hnow, hsteps, hdue⟩ := (h.stopping idle).after hp
  refine ⟨?_, fun k hw ha => hnow.exits hw ?_, proceed_of_blocked hnow.stage, fun hr => ?_, fun hr => ?_,
    fun hr rest hrest => ?_⟩
  · exact Nat.le_trans hsteps (Bool.toNat_le _)
  · have hle := (t.move (.call .stop)).2.due_le
    have hd := hdue k hw
    omega
  · obtain ⟨taken, hreturns⟩ := hnow.returns hr
    rw [hreturns]
  · exact (hnow.atRest hr).1.not_live
  · obtain ⟨hrest', hm⟩ := hnow.atRest hr
    rw [← hm]
    exact (hrest'.after hrest).2

/-- A stop ends the run in which it is called, whatever happens meanwhile, and no later one: the loop executes one more
instruction at most and is gone when the stop returns, with the result that `Runner.stop` gives. -/
theorem stop_prompt_final {m : Machine} {moves : List Move} (idle : ((ofMachine m).after moves).stage = .idle) :
    let t := (ofMachine m).after moves
    (∀ later : List Move, (∀ mv ∈ later, mv.isProceed = false) →
      t.StopsAmid later ((t.move (.call .stop)).2.after later)) ∧
    t.lastEnd = t.runner.stop.1 ∧
    (∀ k, t.worker = some k →
      (t.after [.call .stop, .act k, .act k, .act k, .exit k, .proceed]).runner = t.runner.stop.2) ∧
    ∀ rest : List Move, (∀ mv ∈ rest, mv.stops = false) →
      ∀ th, ((t.move (.call .run)).2.after rest).threads[t.threads.length]? = some th → th.end? ≠ some .stopped := by
  intro t
  have h : t.Kept := (Kept.ofMachine m).after moves
  refine ⟨fun later hp => h.stopsAmid idle hp, t.lastEnd_eq_stop, fun k hw => stop_runner h idle hw,
    fun rest hs => ?_⟩
  exact (((uncancelled idle).move rfl).after hs).ends

/-- A program that waits for a key: the stop comes while the loop is about to execute the instruction. -/
theorem stop_prompt_final_keyWait :
    let m : Machine := { Machine.initial Config.standard (.scripted []) with
      memory := Memory.zero.writeMany 0x200 [0xF3, 0x0A] }
    let moves : List Move := [.call .run, .proceed, .proceed, .proceed, .act 0]
    let t := (ofMachine m).after moves
    let later : List Move := [.act 0, .setKeys 0x20, .act 0, .act 0, .exit 0]
    t.stage = .idle ∧ t.worker = some 0 ∧ t.executes (.act 0) = true ∧
      t.StopsAmid later ((t.move (.call .stop)).2.after later) ∧ t.lastEnd = .stopped := by
  intro m moves t later
  have idle : t.stage = .idle := by decide +kernel
  refine ⟨idle, by decide +kernel, by decide +kernel, ?_, by decide +kernel⟩
  exact (stop_prompt_final idle).1 later (by simp [later, Move.isProceed])

end Threads

end Chip8
