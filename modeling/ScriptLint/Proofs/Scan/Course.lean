import Mathlib.Logic.Relation
import ScriptLint.Pass
import ScriptLint.Proofs.Scan.Events
import ScriptLint.Proofs.Scan.Steps

/-!
# The course of a scan

`State.run` iterates `State.step` to the end.  This module says so with the steps in
the open: a run passes through **reached** states, and its outcome is that of the last
one.  An invariant of the legs on tracks is then an invariant of every reached state,
and holds of the outcome.

## Main definitions

* `State.Reaches` — any number of steps

## Main statements

* `State.run_outcome` — the outcome of a run is that of a step from a reached state
* `State.Reaches.invariant` — what legs keep holds of every reached state
* `State.Reaches.keeps`, `State.run_keeps` — what steps keep whatever their outcome holds of every
  reached state, and where a run ends
* `State.within_of_run` — the events of a run concern the lines gone over
* `reached_of_completed` — the tokens of a completed scan
* `abort_of_failed` — the abort of a pass whose scan fails
-/

namespace ScriptLint

open Track

namespace State

/-- Any number of steps, none of them the last. -/
def Reaches : State → State → Prop :=
  Relation.ReflTransGen fun s t => s.step = .next t

theorem run_of_next {s t : State} (h : s.step = .next t) : s.run = t.run := by
  rw [run]
  split <;> simp_all

theorem run_of_completed {s t : State} (h : s.step = .completed t) : s.run = (t, none) := by
  rw [run]
  split <;> simp_all

theorem run_of_failed {s t : State} {fault : Finding} (h : s.step = .failed t fault) :
    s.run = (t, some fault) := by
  rw [run]
  split <;> simp_all

/-- A run goes on from every state it reaches. -/
theorem run_of_reaches {s t : State} (h : Reaches s t) : s.run = t.run := by
  induction h with
  | refl => rfl
  | tail _ hstep ih => exact ih.trans (run_of_next hstep)

/-- **The outcome of a run** is that of the step from the last state reached. -/
theorem run_outcome (s : State) :
    ∃ t, Reaches s t ∧
      ((∃ u, t.step = .completed u ∧ s.run = (u, none)) ∨
        ∃ u fault, t.step = .failed u fault ∧ s.run = (u, some fault)) := by
  fun_induction run s with
  | case1 s u hu ih =>
    obtain ⟨t, hreach, houtcome⟩ := ih
    exact ⟨t, .head hu hreach, houtcome⟩
  | case2 s u hu => exact ⟨s, .refl, .inl ⟨u, hu, rfl⟩⟩
  | case3 s u fault hu => exact ⟨s, .refl, .inr ⟨u, fault, hu, rfl⟩⟩

/-- What every leg keeps holds of the track of every reached state. -/
theorem Reaches.invariant {P : Track → Prop} (hleg : ∀ s t, P s → Leg s t → P t) {s t : State}
    (h : Reaches s t) (hs : P s.track) : P t.track := by
  induction h with
  | refl => exact hs
  | tail _ hstep ih => exact hleg _ _ ih (leg_of_step hstep)

/-- What every step keeps, whatever its outcome, holds of every reached state. -/
theorem Reaches.keeps {P : State → Prop} (hstep : ∀ s : State, P s → P s.step.state)
    {s t : State} (h : Reaches s t) (hs : P s) : P t := by
  induction h with
  | refl => exact hs
  | @tail u v _ hnext ih =>
    have hkept := hstep u ih
    rwa [hnext] at hkept

/-- What every step keeps, whatever its outcome, holds of the state that a run ends in. -/
theorem run_keeps {P : State → Prop} (hstep : ∀ s : State, P s → P s.step.state) {s : State}
    (hs : P s) : P s.run.1 := by
  fun_induction run s with
  | case1 s u hu ih =>
    refine ih ?_
    have hkept := hstep s hs
    rwa [hu] at hkept
  | case2 s u hu =>
    have hkept := hstep s hs
    rwa [hu] at hkept
  | case3 s u fault hu =>
    have hkept := hstep s hs
    rwa [hu] at hkept

/-- Before the first step a scan has recorded what concerns the line it stands on. -/
theorem records_initial (lines : List Line) : State.Records { below := lines } (initial lines) := by
  unfold initial
  extract_lets s
  split
  · exact .refl _
  · next line below =>
    split
    · obtain ⟨t, hline, hevents, ht⟩ := s.records_enter line below
      have hs : s.Records t := ⟨hline ▸ Nat.le_succ _, [], hevents, by simp⟩
      exact (hs.trans ht).trans (records_of_eq rfl rfl)
    · exact .refl _

/-- What is recorded from the start on concerns the lines gone over. -/
theorem within_of_records {lines : List Line} {s : State}
    (h : State.Records { below := lines } s) : ∀ e ∈ s.events, e.Within 0 s.line := by
  obtain ⟨newer, hnewer, hwithin⟩ := h.events
  intro e he
  rw [hnewer, List.append_nil] at he
  exact hwithin e he

/-- What a run records concerns the lines it goes over. -/
theorem records_run (s : State) : s.Records s.run.1 :=
  run_keeps (P := s.Records) (fun u hu => hu.trans u.records_step) (.refl s)

/-- The events of a run concern the lines gone over. -/
theorem within_of_run (lines : List Line) :
    ∀ e ∈ (initial lines).run.1.events, e.Within 0 (initial lines).run.1.line :=
  within_of_records ((records_initial lines).trans (records_run _))

theorem records_of_reaches {s t : State} (h : Reaches s t) : s.Records t :=
  h.keeps (P := s.Records) (fun u hu => hu.trans u.records_step) (.refl s)

/-- The events of a reached state concern the lines gone over. -/
theorem within_of_reaches {lines : List Line} {s : State} (h : Reaches (.initial lines) s) :
    ∀ e ∈ s.events, e.Within 0 s.line :=
  within_of_records ((records_initial lines).trans (records_of_reaches h))

/-- A run is stopped at a fatal rule. -/
theorem fatal_of_run {s : State} {fault : Finding} (h : s.run.2 = some fault) :
    fault.rule.Fatal := by
  obtain ⟨t, -, ⟨u, -, hrun⟩ | ⟨u, fault', hstep, hrun⟩⟩ := run_outcome s
  · rw [hrun] at h
    cases h
  · rw [hrun] at h
    obtain rfl := Option.some.inj h
    exact (placesFault_of_step hstep).fatal

end State

/-- **The end of a completed scan**: every reached state goes on to one at the end of the
source, outside of every template; its tokens and the end of the source are the tokens of the
scan. -/
theorem reached_of_completed {source : Source} (h : (scan source).fault = none) {s : State}
    (hreach : State.Reaches (.initial source.lines.toList) s) :
    ∃ t : State, State.Reaches s t ∧ t.mode = .code ∧ t.rest = [] ∧ t.below = [] ∧
      ∃ e : Token, e.kind = .eof ∧ Spans t.track t.track e ∧
        (scan source).tokens = (e :: t.tokens).reverse := by
  have hrun := State.run_of_reaches hreach
  obtain ⟨t, hon, ⟨u, hstep, houtcome⟩ | ⟨u, fault, hstep, houtcome⟩⟩ := State.run_outcome s
  · obtain ⟨hmode, hrest, hbelow, e, hkind, hspans, htrack⟩ := State.completed_of_step hstep
    have htokens : u.tokens = e :: t.tokens := congrArg Track.tokens htrack
    refine ⟨t, hon, hmode, hrest, hbelow, e, hkind, hspans, ?_⟩
    rw [← htokens]
    simp [scan, hrun, houtcome]
  · simp [scan, hrun, houtcome] at h

/-- The fault of a scan is what its pass reports as the abort. -/
theorem fault_eq_none_of_abort {settings : Settings} {text : String}
    (h : (Pass.run settings text).abort = none) : (scan (.ofString text)).fault = none := by
  simpa [Pass.run, Pass.ofSource] using h

/-- A step that fails aborts the pass at its fault. -/
theorem abort_of_failed (settings : Settings) {text : String} {s t : State} {fault : Finding}
    (hreach : State.Reaches (.initial (Source.ofString text).lines.toList) s)
    (hstep : s.step = .failed t fault) : (Pass.run settings text).abort =
      some { rule := fault.rule
             line := (Source.ofString text).clampLine fault.line
             column := (Source.ofString text).clampColumn
               ((Source.ofString text).clampLine fault.line) fault.column } := by
  have hrun := (State.run_of_reaches hreach).trans (State.run_of_failed hstep)
  simp [Pass.run, Pass.ofSource, scan, hrun]

end ScriptLint
