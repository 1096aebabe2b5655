import Chip8.Proofs.Keys

/-!
# Breakpoints over a history

What an event says about the breakpoint at an address is a mark: it is set, it is cleared, or nothing is said
(`Event.mark?`). All else that may happen to a runner, its runs included, leaves the breakpoints alone, so an address is
a breakpoint just when the latest mark sets it (`Runner.contains_after`). Read off the history, it was set, and since
then neither it nor all were cleared (`Event.IsSet`, `Event.latestMark?_eq_some_true_iff`).

A list of the breakpoints shows these addresses in rising order. That is what sorting makes of them in whatever order
they are gone through, and it does not tell in which order two addresses were set or cleared
(`Debugger.breakpoints_listed`).
-/

namespace Chip8

open Debugger (Command)

/-! ## Marks -/

/-- The command sets or clears the breakpoint at `a`. -/
def Debugger.Command.IsAt (a : UInt16) (c : Command) : Prop := c = .setBreakpoint a ∨ c = .clearBreakpoint a

namespace Event

/-- Whether the event sets or clears the breakpoint at `a`, if it does either. -/
def mark? (a : UInt16) : Event → Option Bool
  | .command (.setBreakpoint b) => if b = a then some true else none
  | .command (.clearBreakpoint b) => if b = a then some false else none
  | .command .clearBreakpoints => some false
  | _ => none

/-- The last mark at `a`. -/
def latestMark? (a : UInt16) (history : List Event) : Option Bool := history.reverse.findSome? (mark? a)

/-- The breakpoint at `a` was set, and since then neither it nor all were cleared. -/
def IsSet (history : List Event) (a : UInt16) : Prop :=
  ∃ before since, history = before ++ .command (.setBreakpoint a) :: since ∧
    .command (.clearBreakpoint a) ∉ since ∧ .command .clearBreakpoints ∉ since

section Marks

variable {a : UInt16} {e : Event}

theorem mark?_eq_some_true_iff : e.mark? a = some true ↔ e = .command (.setBreakpoint a) := by
  constructor
  · intro h
    unfold mark? at h
    split at h <;> simp_all
  · rintro rfl
    exact if_pos rfl

theorem mark?_eq_some_false_iff :
    e.mark? a = some false ↔ e = .command (.clearBreakpoint a) ∨ e = .command .clearBreakpoints := by
  constructor
  · intro h
    unfold mark? at h
    split at h <;> simp_all
  · rintro (rfl | rfl)
    · exact if_pos rfl
    · rfl

theorem latestMark?_append (before since : List Event) :
    latestMark? a (before ++ since) = (latestMark? a since).or (latestMark? a before) := by
  rw [latestMark?, List.reverse_append, List.findSome?_append]
  rfl

theorem latestMark?_cons (since : List Event) :
    latestMark? a (e :: since) = (latestMark? a since).or (e.mark? a) := by
  rw [latestMark?, List.reverse_cons, List.findSome?_append, List.findSome?_singleton]
  rfl

theorem latestMark?_eq_none {between : List Event} (h : ∀ e ∈ between, e.mark? a = none) :
    latestMark? a between = none :=
  List.findSome?_eq_none_iff.mpr fun e he => h e (List.mem_reverse.mp he)

/-- The breakpoint is set just when the last mark sets it. -/
theorem latestMark?_eq_some_true_iff {history : List Event} :
    latestMark? a history = some true ↔ IsSet history a := by
  constructor
  · intro h
    obtain ⟨since, e, before, hsplit, hmark, hlater⟩ := List.findSome?_eq_some_iff.mp h
    refine ⟨before.reverse, since.reverse, ?_, ?_, ?_⟩
    · rw [← List.reverse_reverse history, hsplit, mark?_eq_some_true_iff.mp hmark]
      simp
    · intro hmem
      have hnone := hlater _ (List.mem_reverse.mp hmem)
      rw [mark?_eq_some_false_iff.mpr (.inl rfl)] at hnone
      cases hnone
    · intro hmem
      have hnone := hlater _ (List.mem_reverse.mp hmem)
      rw [mark?_eq_some_false_iff.mpr (.inr rfl)] at hnone
      cases hnone
  · rintro ⟨before, since, rfl, hclear, hclearAll⟩
    rw [latestMark?_append, latestMark?_cons, mark?_eq_some_true_iff.mpr rfl]
    -- a later mark can only set it again
    cases h : latestMark? a since with
    | none => rfl
    | some mark =>
      obtain ⟨e, he, hmark⟩ := List.exists_of_findSome?_eq_some h
      cases mark with
      | true => rfl
      | false =>
        rcases mark?_eq_some_false_iff.mp hmark with rfl | rfl
        · exact absurd (List.mem_reverse.mp he) hclear
        · exact absurd (List.mem_reverse.mp he) hclearAll

theorem mark?_of_isAt {b : UInt16} {c : Command} (h : c.IsAt a) (hne : a ≠ b) : (command c).mark? b = none := by
  rcases h with rfl | rfl
  · exact if_neg hne
  · exact if_neg hne

/-- Commands at different addresses change places. -/
theorem latestMark?_exchange (before since : List Event) {between : List Event} {b : UInt16} {c c' : Command}
    (hc : c.IsAt a) (hc' : c'.IsAt b) (hne : a ≠ b)
    (apart : ∀ e ∈ between, e.mark? a = none ∧ e.mark? b = none) (x : UInt16) :
    latestMark? x (before ++ .command c :: between ++ .command c' :: since) =
      latestMark? x (before ++ .command c' :: between ++ .command c :: since) := by
  simp only [latestMark?_append, latestMark?_cons, Option.or_assoc]
  congr 1
  by_cases ha : a = x
  · -- nothing but the first of the two is about `x`, and nothing between them
    have hb : b ≠ x := fun h => hne (ha.trans h.symm)
    have hbetween : latestMark? x between = none := latestMark?_eq_none fun e he => ha ▸ (apart e he).1
    rw [mark?_of_isAt hc' hb, hbetween]
    simp only [Option.none_or]
  · rw [mark?_of_isAt hc ha, Option.none_or, Option.none_or]
    by_cases hb : b = x
    · have hbetween : latestMark? x between = none := latestMark?_eq_none fun e he => hb ▸ (apart e he).2
      rw [hbetween, Option.none_or, Option.none_or]
    · rw [mark?_of_isAt hc' hb, Option.none_or, Option.none_or]

end Marks

end Event

/-! ## The breakpoints of a runner -/

namespace Breakpoints

variable (b : Breakpoints) (a c : UInt16)

theorem contains_iff {b : Breakpoints} {a : UInt16} : b.contains a = true ↔ a ∈ b.addresses := List.contains_iff_mem

theorem contains_insert : (b.insert a).contains c = if a = c then true else b.contains c := by
  rw [Bool.eq_iff_iff, contains_iff, mem_insert]
  split
  · next h => simp [h]
  · next h => rw [contains_iff, or_iff_right (Ne.symm h)]

theorem contains_erase : (b.erase a).contains c = if a = c then false else b.contains c := by
  rw [Bool.eq_iff_iff, contains_iff, mem_erase]
  split
  · next h => simp [h]
  · next h => rw [contains_iff, and_iff_right (Ne.symm h)]

theorem nodup : b.addresses.Nodup := b.increasing.imp UInt16.ne_of_lt

/-- A rising list is known by its members. -/
theorem ext_contains {b c : Breakpoints} (h : ∀ a, b.contains a = c.contains a) : b.addresses = c.addresses := by
  have hmem (a : UInt16) : a ∈ b.addresses ↔ a ∈ c.addresses := by rw [← contains_iff, h, contains_iff]
  have hperm := (List.perm_ext_iff_of_nodup b.nodup c.nodup).mpr hmem
  exact hperm.eq_of_pairwise (fun _ _ _ _ hlt hgt => absurd hgt (UInt16.lt_asymm hlt)) b.increasing c.increasing

/-- Sorting finds the rising list again, in whatever order its addresses come. -/
theorem mergeSort_eq {b : Breakpoints} {order : List UInt16} (once : order.Nodup)
    (same : ∀ a, a ∈ order ↔ a ∈ b.addresses) :
    order.mergeSort (fun x y => decide (x ≤ y)) = b.addresses := by
  have hperm : order.Perm b.addresses := (List.perm_ext_iff_of_nodup once b.nodup).mpr same
  have hsorted : (order.mergeSort fun x y => decide (x ≤ y)).Pairwise fun x y => decide (x ≤ y) = true := by
    refine List.pairwise_mergeSort (fun x y z hxy hyz => ?_) (fun x y => ?_) order
    · exact decide_eq_true (UInt16.le_trans (of_decide_eq_true hxy) (of_decide_eq_true hyz))
    · simpa using UInt16.le_total x y
  refine ((List.mergeSort_perm order _).trans hperm).eq_of_pairwise ?_ hsorted ?_
  · intro x y _ _ hxy hyx
    exact UInt16.le_antisymm (of_decide_eq_true hxy) (of_decide_eq_true hyx)
  · exact b.increasing.imp fun hlt => decide_eq_true (UInt16.le_of_lt hlt)

theorem sorted_eq : b.sorted = b.addresses := mergeSort_eq b.nodup fun _ => .rfl

end Breakpoints

namespace Runner

variable (r : Runner)

/-- What marks no breakpoint leaves them alone. -/
theorem happen_breakpoints (e : Event) (h : ∀ a, e.mark? a = none) : (r.happen e).breakpoints = r.breakpoints := by
  cases e with
  | act => exact r.act_breakpoints
  | start => exact r.start_breakpoints
  | requestStop | setKeys | tick | refuse => rfl
  | stop => exact r.stop_breakpoints
  | collect =>
    simp only [happen]
    split <;> rfl
  | poll =>
    simp only [happen, poll]
    split <;> rfl
  | step =>
    simp only [happen, step]
    split <;> rfl
  | load program =>
    simp only [happen, load]
    cases r.machine.load program <;> rfl
  | command c =>
    cases c with
    | run =>
      rw [happen, Debugger.execute, r.debugger_run_snd]
      exact r.start_breakpoints
    | pause =>
      rw [happen, Debugger.execute, r.debugger_pause_snd]
      exact r.stop_breakpoints
    | step =>
      rw [happen, Debugger.execute, r.debugger_step_snd, step]
      split <;> rfl
    | set target value =>
      simp only [happen, Debugger.execute]
      split <;> rfl
    | setBreakpoint a => cases (h a).symm.trans (if_pos rfl)
    | clearBreakpoint a => cases (h a).symm.trans (if_pos rfl)
    | clearBreakpoints => cases h 0
    | listBreakpoints | mem | disasm | quit => rfl

theorem contains_happen (e : Event) (a : UInt16) :
    (r.happen e).breakpoints.contains a = (e.mark? a).getD (r.breakpoints.contains a) := by
  have same (h : ∀ b, e.mark? b = none) :
      (r.happen e).breakpoints.contains a = (e.mark? a).getD (r.breakpoints.contains a) := by
    rw [r.happen_breakpoints e h, h a]
    rfl
  cases e with
  | command c =>
    cases c with
    | setBreakpoint b =>
      refine (r.breakpoints.contains_insert b a).trans ?_
      rw [Event.mark?, apply_ite (Option.getD · _)]
      rfl
    | clearBreakpoint b =>
      refine (r.breakpoints.contains_erase b a).trans ?_
      rw [Event.mark?, apply_ite (Option.getD · _)]
      rfl
    | clearBreakpoints => rfl
    | run | pause | step | listBreakpoints | set | mem | disasm | quit => exact same fun _ => rfl
  | act | start | requestStop | stop | collect | poll | step | load | setKeys | tick | refuse => exact same fun _ => rfl

theorem contains_after (history : List Event) (a : UInt16) :
    (r.after history).breakpoints.contains a = (Event.latestMark? a history).getD (r.breakpoints.contains a) := by
  induction history generalizing r with
  | nil => rfl
  | cons e rest ih =>
    rw [after_cons, ih, contains_happen, Event.latestMark?_cons]
    cases Event.latestMark? a rest <;> rfl

end Runner

/-! ## Lists -/

namespace Debugger

theorem mem_breakpoints_iff (m : Machine) (history : List Event) (a : UInt16) :
    a ∈ ((Runner.ofMachine m).after history).breakpoints.addresses ↔ Event.IsSet history a := by
  rw [← Breakpoints.contains_iff, Runner.contains_after, ← Event.latestMark?_eq_some_true_iff]
  cases h : Event.latestMark? a history with
  | none => simp [Runner.ofMachine, Breakpoints.empty, Breakpoints.contains]
  | some mark => simp

/-- What a list of the breakpoints shows after a history. -/
structure Listed (history : List Event) (addresses : List UInt16) : Prop where
  increasing : addresses.Pairwise (· < ·)
  mem_iff (a : UInt16) : a ∈ addresses ↔ Event.IsSet history a
  /-- In whatever order the breakpoints are gone through, they are sorted into the list. -/
  sorted {order : List UInt16} : order.Nodup → (∀ a, a ∈ order ↔ Event.IsSet history a) →
    order.mergeSort (fun x y => decide (x ≤ y)) = addresses

/-- **A list shows the breakpoints that were set and not cleared since**, whatever else the runner was asked to do.
Two commands at different addresses may change places, if nothing between them is about either address. -/
theorem breakpoints_listed (m : Machine) :
    (∀ history, ∃ addresses,
      execute ((Runner.ofMachine m).after history) .listBreakpoints =
          (.ok (.breakpoints addresses), (Runner.ofMachine m).after history) ∧
        Listed history addresses) ∧
      ∀ (before between since : List Event) (a b : UInt16) (c c' : Command), c.IsAt a → c'.IsAt b → a ≠ b →
        (∀ e ∈ between, e.mark? a = none ∧ e.mark? b = none) →
          (execute ((Runner.ofMachine m).after (before ++ .command c :: between ++ .command c' :: since))
              .listBreakpoints).1 =
            (execute ((Runner.ofMachine m).after (before ++ .command c' :: between ++ .command c :: since))
              .listBreakpoints).1 := by
  constructor
  · intro history
    have hmem := mem_breakpoints_iff m history
    refine ⟨_, rfl, ?_⟩
    rw [Breakpoints.sorted_eq]
    refine ⟨Breakpoints.increasing _, hmem, fun once same => ?_⟩
    exact Breakpoints.mergeSort_eq once fun a => (same a).trans (hmem a).symm
  · intro before between since a b c c' hc hc' hne apart
    have hmarks := Event.latestMark?_exchange before since hc hc' hne apart
    simp only [execute, Breakpoints.sorted_eq]
    rw [Breakpoints.ext_contains fun x => ?_]
    rw [Runner.contains_after, Runner.contains_after, hmarks]

/-- A breakpoint is set twice and then cleared, with a run and another breakpoint in between. -/
def setsAndClears : List Event :=
  [.command (.setBreakpoint 0x300), .command .run, .act, .command (.setBreakpoint 0x202), .act,
    .command (.setBreakpoint 0x300), .command .pause, .command (.clearBreakpoint 0x300)]

/-- The second breakpoint is left. The two commands that set one for the first time may change places. -/
theorem breakpoints_listed_setsAndClears :
    (∃ addresses, execute ((Runner.ofMachine (.initial Config.standard (.scripted []))).after setsAndClears)
        .listBreakpoints = (.ok (.breakpoints addresses),
          (Runner.ofMachine (.initial Config.standard (.scripted []))).after setsAndClears) ∧
      Listed setsAndClears addresses ∧ addresses = [0x202]) ∧
    (execute ((Runner.ofMachine (.initial Config.standard (.scripted []))).after setsAndClears)
        .listBreakpoints).1 =
      (execute ((Runner.ofMachine (.initial Config.standard (.scripted []))).after
        (.command (.setBreakpoint 0x202) :: .command .run :: .act :: .command (.setBreakpoint 0x300) ::
          setsAndClears.drop 4)) .listBreakpoints).1 := by
  obtain ⟨hlists, hexchange⟩ := breakpoints_listed (.initial Config.standard (.scripted []))
  constructor
  · obtain ⟨addresses, hreply, hlisted⟩ := hlists setsAndClears
    refine ⟨addresses, hreply, hlisted, ?_⟩
    have hshown : ((Runner.ofMachine (.initial Config.standard (.scripted []))).after
        setsAndClears).breakpoints.sorted = [0x202] := by
      rw [Breakpoints.sorted_eq]
      decide +kernel
    exact (Reply.breakpoints.inj (Except.ok.inj (congrArg Prod.fst hreply))).symm.trans hshown
  · exact hexchange [] [.command .run, .act] (setsAndClears.drop 4) 0x300 0x202 _ _ (.inl rfl) (.inl rfl) (by decide)
      (by decide)

end Debugger

end Chip8
