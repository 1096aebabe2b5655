import Chip8.Proofs.Pace

/-!
# Faults come again

A step that does not execute leaves the machine as it was. So a lasting fault is met again by whatever steps the machine
next, until the host edits it (`stable_faults`), and a run that is started on such a machine ends with the fault as
its first instruction is executed (`Runner.Doomed`, and with the clock of the loop `Paced.Doomed`). Put together for a
runner: `Runner.Reports`.
-/

namespace Chip8

/-- Nothing but an edit of the host takes a lasting fault away. -/
theorem Machine.stable_faults {f : Fault} (lasting : f.lasts = true) (c : Config) :
    Stable c fun m => m.config = c ∧ m.Faults f where
  config_eq h := h.1
  step h := by
    rw [step_of_faults h.2, if_pos lasting]
    exact h
  setKeys _ h := ⟨h.1, h.2.congr lasting rfl rfl rfl rfl⟩
  tick h := ⟨h.1, h.2.congr lasting rfl rfl rfl rfl⟩

theorem RunLoop.execute_of_faults {m : Machine} {f : Fault} (h : m.Faults f) :
    (RunLoop.execute m).1 = .ended (.faulted f) := by
  rw [execute_phase, Machine.step_of_faults h]

namespace Runner

/-! ## A run that cannot execute its first instruction -/

/-- The loop after so many actions, where the first instruction faults with `f`. -/
inductive Doomed (f : Fault) (r : Runner) : Nat → Prop
  | ready {b : Breakpoints} : r.loop = some ⟨.ready, b⟩ → r.stopRequested = false → Doomed f r 0
  | execute {b : Breakpoints} : r.loop = some ⟨.execute, b⟩ → Doomed f r 1
  | ended {b : Breakpoints} {acts : Nat} : r.loop = some ⟨.ended (.faulted f), b⟩ → Doomed f r (acts + 2)

namespace Doomed

variable {f : Fault} {r : Runner} {n : Nat}

theorem act (hf : r.machine.Faults f) (h : Doomed f r n) : Doomed f r.act (n + 1) := by
  cases h with
  | @ready b hl hs =>
    refine .execute (b := b) ?_
    rw [act_loop hl, hs]
    rfl
  | @execute b hl =>
    refine .ended (b := b) ?_
    rw [act_loop hl]
    show some (⟨(RunLoop.execute r.machine).1, b⟩ : RunLoop) = _
    rw [RunLoop.execute_of_faults hf]
  | @ended b acts hl =>
    refine .ended (b := b) ?_
    rw [act_loop hl]
    rfl

/-- No event but the start of another run or the collection of the result holds the loop back. A stop request comes too
late once the loop has looked at it. -/
theorem happen {e : Event} (hr : e.callsRun = false) (hs : n = 0 → e.asksStop = false) (hf : r.machine.Faults f)
    (h : Doomed f r n) : Doomed f (r.happen e) (n + Event.acts [e]) := by
  cases ha : e.isAct with
  | true =>
    obtain rfl := Event.eq_act_of_isAct ha
    exact h.act hf
  | false =>
    have hl := (r.happen_run ha hr).1
    rw [Event.acts_of_not_isAct ha, Nat.add_zero]
    cases h with
    | ready h hq => exact .ready (hl.trans h) ((r.happen_stopRequested hr (hs rfl)).trans hq)
    | execute h => exact .execute (hl.trans h)
    | ended h => exact .ended (hl.trans h)

theorem isReady_iff (h : Doomed f r n) : r.isReady = true ↔ n = 0 := by
  cases h with
  | ready hl hs => simp [isReady, hl, Phase.isReady]
  | execute hl | ended hl => simp [isReady, hl, Phase.isReady]

theorem isLive_of_zero (h : Doomed f r 0) : r.isLive = true := by
  cases h with
  | ready hl hs =>
    rw [isLive, hl]
    rfl

theorem result? (h : Doomed f r n) (hn : 2 ≤ n) : r.result? = some (.faulted f) := by
  cases h with
  | ready | execute => omega
  | ended hl => exact result?_of_loop hl

end Doomed

end Runner

namespace Paced

/-- The same of a paced loop, whose first action sets a tick that the clock counts. -/
inductive Doomed (c : Config) (f : Fault) (p : Paced) : Nat → Prop
  | start : p.runner.Doomed f 0 → p.timed = false → (p.due.later 1 c.cpuPeriod).isCounted = true → Doomed c f p 0
  | ticked {acts : Nat} : p.runner.Doomed f acts → (acts = 0 → p.timed = true) → Doomed c f p (acts + 1)

namespace Doomed

variable {c : Config} {f : Fault} {p : Paced} {t : Timed} {n : Nat}

theorem happen (hr : t.event.callsRun = false) (hs : n ≤ 1 → t.event.asksStop = false)
    (hm : p.runner.machine.config = c ∧ p.runner.machine.Faults f) (h : Doomed c f p n) :
    Doomed c f (p.happen t) (n + Event.acts [t.event]) := by
  cases h with
  | start h untimed counted =>
    cases ha : t.event.isAct with
    | true =>
      have hsets : p.setsIn t = true := by rw [setsIn, ha, sets, h.isReady_iff.mpr rfl, untimed]; rfl
      have hnext : (p.runner.nextTick p.due).isCounted = true := by rw [Runner.nextTick, hm.1]; exact counted
      rw [happen_of_setsIn hsets, pace_of_counted _ _ hnext, Event.eq_act_of_isAct ha]
      exact .ticked h fun _ => rfl
    | false =>
      have h' := h.happen hr (fun _ => hs (Nat.zero_le _)) hm.2
      rw [Event.acts_of_not_isAct ha] at h' ⊢
      rw [happen_of_not_isAct ha, if_pos h.isLive_of_zero]
      exact .start h' untimed counted
  | @ticked acts h timed =>
    have hsets : p.setsIn t = false := by
      refine Bool.eq_false_iff.mpr fun hsets => ?_
      obtain ⟨hready, untimed⟩ := Bool.and_eq_true_iff.mp (Bool.and_eq_true_iff.mp hsets).2
      rw [timed (h.isReady_iff.mp hready)] at untimed
      cases untimed
    have h' := h.happen hr (fun h0 => hs (by omega)) hm.2
    rw [← happen_runner hsets] at h'
    rw [Nat.add_right_comm]
    refine .ticked h' fun h0 => ?_
    -- the loop has yet to look at the stop request, so nothing has happened to its tick
    cases ha : t.event.isAct with
    | true =>
      rw [Event.eq_act_of_isAct ha] at h0
      cases h0
    | false =>
      obtain rfl : acts = 0 := by omega
      rw [happen_of_not_isAct ha, if_pos h.isLive_of_zero]
      exact timed rfl

theorem after {history : List Timed} (lasting : f.lasts = true) (hr : ∀ t ∈ history, t.event.callsRun = false)
    (hs : n ≤ 1 → ∀ t ∈ history, t.event.asksStop = false) (he : ∀ t ∈ history, t.event.edits c = false)
    (hm : p.runner.machine.config = c ∧ p.runner.machine.Faults f) (h : Doomed c f p n) :
    Doomed c f (p.after history) (n + Timed.acts history) ∧
      (p.after history).runner.machine.config = c ∧ (p.after history).runner.machine.Faults f := by
  induction history generalizing p n with
  | nil => exact ⟨h, hm⟩
  | cons t rest ih =>
    rw [Timed.acts_cons, ← Nat.add_assoc]
    refine ih (fun t' h' => hr t' (.tail t h')) (fun hn t' h' => ?_) (fun t' h' => he t' (.tail t h')) ?_ ?_
    · exact hs (by omega) t' (.tail t h')
    · exact (Machine.stable_faults lasting c).happen_paced (he t (.head rest)) hm
    · exact h.happen (hr t (.head rest)) (fun hn => hs hn t (.head rest)) hm

theorem result? (h : Doomed c f p n) (hn : 3 ≤ n) : p.runner.result? = some (.faulted f) := by
  cases h with
  | start => omega
  | ticked h _ => exact h.result? (by omega)

end Doomed

end Paced

namespace Runner

/-! ## What the host is told -/

/-- Every step and every fresh run of the runner reports the fault. -/
structure Reports (r : Runner) (f : Fault) : Prop where
  machine : r.machine.step = (.faulted f, r.machine)
  step : r.isLive = false → r.step = (.ok (.faulted f), r)
  /-- The loop first sets its tick, which the clock counts, then looks at the stop request. If it finds none, it ends
  with the fault as it acts again. -/
  run : r.isLive = false → r.refusal = none → ∀ first : Duration, (r.nextTick first).isCounted = true →
    ∀ before later : List Timed,
      (∀ t ∈ before, t.event.callsRun = false ∧ t.event.asksStop = false ∧ t.event.edits r.machine.config = false) →
      (∀ t ∈ later, t.event.callsRun = false ∧ t.event.edits r.machine.config = false) →
      2 ≤ Timed.acts before → 0 < Timed.acts later →
      ((Paced.start first r).after (before ++ later)).runner.result? = some (.faulted f)

theorem doomed_start {r : Runner} {f : Fault} (idle : r.isLive = false) (started : r.refusal = none) {first : Duration}
    (counted : (r.nextTick first).isCounted = true) : (Paced.start first r).Doomed r.machine.config f 0 := by
  obtain ⟨hstop, hloop⟩ := start_of_idle idle started
  exact .start (.ready hloop hstop) rfl counted

theorem result?_of_doomed {r : Runner} {f : Fault} (hf : r.machine.Faults f) (lasting : f.lasts = true)
    (idle : r.isLive = false) (started : r.refusal = none) {first : Duration}
    (counted : (r.nextTick first).isCounted = true) {before later : List Timed}
    (hb : ∀ t ∈ before, t.event.callsRun = false ∧ t.event.asksStop = false ∧ t.event.edits r.machine.config = false)
    (hl : ∀ t ∈ later, t.event.callsRun = false ∧ t.event.edits r.machine.config = false)
    (looked : 2 ≤ Timed.acts before) (acts : 0 < Timed.acts later) :
    ((Paced.start first r).after (before ++ later)).runner.result? = some (.faulted f) := by
  have hm : (Paced.start first r).runner.machine.config = r.machine.config ∧
      (Paced.start first r).runner.machine.Faults f := by
    show r.start.2.machine.config = _ ∧ r.start.2.machine.Faults f
    rw [r.start_machine]
    exact ⟨rfl, hf⟩
  obtain ⟨hdoomed, hm'⟩ := (doomed_start idle started counted).after lasting (fun t h => (hb t h).1)
    (fun _ t h => (hb t h).2.1) (fun t h => (hb t h).2.2) hm
  -- a request that is made after the look comes too late
  obtain ⟨hdoomed', -⟩ := hdoomed.after lasting (fun t h => (hl t h).1) (fun hn => by omega) (fun t h => (hl t h).2) hm'
  rw [Paced.after_append]
  exact hdoomed'.result? (by omega)

/-- Whatever does not edit a machine that meets a lasting fault leaves a runner that reports the fault. -/
theorem reports_after {r : Runner} {f : Fault} (hf : r.machine.Faults f) (lasting : f.lasts = true)
    {history : List Event} (unedited : ∀ e ∈ history, e.edits r.machine.config = false) :
    Reports (r.after history) f := by
  have h := ((Machine.stable_faults lasting r.machine.config).after unedited ⟨rfl, hf⟩).2
  have hm : (r.after history).machine.step = (.faulted f, (r.after history).machine) := by
    rw [Machine.step_of_faults h, if_pos lasting]
  refine ⟨hm, fun idle => ?_, fun idle started first counted before later hb hl looked acts => ?_⟩
  · rw [step_of_idle idle, hm]
  · exact result?_of_doomed h lasting idle started counted hb hl looked acts

end Runner

/-! ## No trace -/

/-- A step that does not execute leaves no trace. It is known which instructions do not execute, the fault tells where
the instruction is, at most the random source has gone on, and a lasting fault is reported until the host edits the
machine. -/
theorem Machine.step_without_trace (m : Machine) :
    (∀ f, m.step.1 = .faulted f ↔ m.Faults f) ∧
      (m.step.1 = .awaitingKey ↔ m.Waits) ∧
      (∀ f, m.step.1 = .faulted f →
        f.address = m.pc ∧ f.word = m.fetch ∧ m.step.2 = if f.lasts then m else { m with random := m.random.next.2 }) ∧
      (m.step.1 = .awaitingKey → m.step.2 = m) ∧
      ∀ f, m.step.1 = .faulted f → f.lasts = true → ∀ r : Runner, r.machine = m →
        ∀ history : List Event, (∀ e ∈ history, e.edits m.config = false) → (r.after history).Reports f := by
  refine ⟨fun f => step_faulted_iff, step_awaitingKey_iff, fun f h => ?_, fun h => ?_, ?_⟩
  · have hf := step_faulted_iff.mp h
    refine ⟨hf.place.1, hf.place.2, ?_⟩
    rw [step_of_faults hf]
    rfl
  · rw [step_of_waits (step_awaitingKey_iff.mp h)]
  · rintro f h lasting r rfl history unedited
    exact Runner.reports_after (step_faulted_iff.mp h) lasting unedited

/-- A machine without a program meets the word zero, which is no instruction. So does a fresh run after the first one,
on a host that has been up for a day. -/
theorem Machine.step_without_trace_empty :
    let r := (Runner.ofMachine (initial Config.standard (.scripted []))).after [.step, .start, .act, .act]
    (initial Config.standard (.scripted [])).step.1 = .faulted (.unknownInstruction 0x200 0) ∧
      r.Reports (.unknownInstruction 0x200 0) ∧ r.isLive = false ∧ r.refusal = none ∧
      (r.nextTick (.ofParts 86400 0)).isCounted = true := by
  intro r
  have h : (initial Config.standard (.scripted [])).step.1 = .faulted (.unknownInstruction 0x200 0) := by
    decide +kernel
  refine ⟨h, (step_without_trace _).2.2.2.2 _ h rfl _ rfl _ ?_, ?_, ?_, ?_⟩ <;> decide +kernel

/-- A fresh run need not come to the instruction that faults: the host may stop it before. -/
theorem Machine.run_without_fault :
    let now : Duration := .ofParts 86400 0
    let r : Runner := .ofMachine (initial Config.standard (.scripted []))
    r.machine.step.1 = .faulted (.unknownInstruction 0x200 0) ∧ r.isLive = false ∧ r.refusal = none ∧
      (r.nextTick now).isCounted = true ∧
      ((Paced.start now r).after [⟨.requestStop, now, now⟩, ⟨.act, now, now⟩, ⟨.act, now, now⟩]).runner.result? =
        some .stopped := by
  refine ⟨?_, rfl, rfl, ?_, ?_⟩ <;> decide +kernel

end Chip8
