import ScriptLint.Proofs.Accounts

/-!
# Lexers in lockstep

A lexer asks its reporter all the time: how long a line may be, whether a task is let pass, at
which level a finding is reported.  Two lexers over one source under different settings get
different answers from the first step on, and so their diagnostics and globals differ.

They still run in **lockstep**.  What they have read is the same, and so is what directives have
set, because an answer decides whether something is reported and never where the lexer goes on.
Every step keeps that, and when a fault stops one lexer it stops the other at the same place,
whether or not its rule is on.

## Main definitions

* `Reporter.Alike` — reporters on one source that heard the same directives
* `Lexer.Lockstep` — lexers that have read the same, with reporters that are alike
* `Lexer.Turn.Lockstep` — steps that come to the same

## Main statements

* `Lexer.Lockstep.step`, `Lexer.Lockstep.run` — steps and runs keep lexers in lockstep
* `lexing_independent_of_settings` — settings change neither tokens nor properties nor aborts
-/

namespace ScriptLint

/-- **Alike**: reporters on one source, with accounts that are alike. -/
structure Reporter.Alike (r q : Reporter) : Prop where
  source : r.source = q.source
  account : r.account.Alike q.account

namespace Reporter.Alike

variable {r q : Reporter}

theorem recordAll (h : r.Alike q) (events : List Event) :
    (r.recordAll events).Alike (q.recordAll events) :=
  ⟨h.source, h.account.recordAll events⟩

/-- A fault is reported or not. -/
theorem fatal (h : r.Alike q) (fault : Finding) : (r.fatal fault).1.Alike (q.fatal fault).1 :=
  ⟨h.source, ((Account.alike_reportFault r.source r.settings _ fault).symm.trans h.account).trans
    (Account.alike_reportFault q.source q.settings _ fault)⟩

/-- It stops the pass at the same place in any case. -/
theorem abort_eq (h : r.Alike q) (fault : Finding) : (r.fatal fault).2 = (q.fatal fault).2 := by
  simp only [Reporter.fatal, Reporter.abortAt, h.source]

/-- The reporters of one source before their first finding. -/
theorem ofSettings (source : Source) (c d : Settings) :
    (Reporter.ofSettings c source).Alike (.ofSettings d source) :=
  ⟨rfl, rfl, rfl, rfl⟩

end Reporter.Alike

namespace Lexer

/-- **Lockstep**: lexers that have read the same, with reporters that are alike. -/
structure Lockstep (l m : Lexer) : Prop where
  state : l.state = m.state
  reporter : l.reporter.Alike m.reporter

/-- **Steps in lockstep** come to the same. -/
inductive Turn.Lockstep : Turn → Turn → Prop
  | next {l m : Lexer} (h : l.Lockstep m) : Turn.Lockstep (.next l) (.next m)
  | completed {l m : Lexer} (h : l.Lockstep m) : Turn.Lockstep (.completed l) (.completed m)
  | aborted {l m : Lexer} {abort : Abort} (h : l.Lockstep m) :
      Turn.Lockstep (.aborted l abort) (.aborted m abort)

variable {r q : Reporter} {l m : Lexer}

/-- Lexers at one state of a scan are in lockstep. -/
theorem lockstep_lexer (h : r.Alike q) (s : State) : (s.lexer r).Lockstep (s.lexer q) :=
  ⟨rfl, h.recordAll s.events.reverse⟩

/-- One step of a scan is one step of either lexer. -/
theorem lockstep_turn (h : r.Alike q) (step : Step) :
    Turn.Lockstep (step.turn r) (step.turn q) := by
  cases step with
  | next s => exact .next (lockstep_lexer h s)
  | completed s => exact .completed (lockstep_lexer h s)
  | failed s fault =>
    have hlexer := lockstep_lexer h s
    dsimp only [Step.turn]
    rw [hlexer.reporter.abort_eq fault]
    exact .aborted ⟨rfl, hlexer.reporter.fatal fault⟩

/-- **A step keeps lexers in lockstep**, whatever the reporters answer. -/
theorem Lockstep.step (h : l.Lockstep m) : Turn.Lockstep l.step m.step := by
  have hl : l.step = l.state.step.turn l.reporter := State.step_lexer l.state l.reporter
  have hm : m.step = l.state.step.turn m.reporter := by
    rw [h.state]
    exact State.step_lexer m.state m.reporter
  rw [hl, hm]
  exact lockstep_turn h.reporter l.state.step

/-- **Lexers in lockstep stay so**, and end for the same reason. -/
theorem Lockstep.run (h : l.Lockstep m) : l.run.1.Lockstep m.run.1 ∧ l.run.2 = m.run.2 := by
  fun_induction Lexer.run l generalizing m with
  | case1 l l' hl ih =>
    have hstep := h.step
    rw [hl] at hstep
    cases hm : m.step with
    | next m' =>
      rw [hm] at hstep
      obtain ⟨hnext⟩ := hstep
      rw [run_of_next hm]
      exact ih hnext
    | completed m' => rw [hm] at hstep; cases hstep
    | aborted m' abort => rw [hm] at hstep; cases hstep
  | case2 l l' hl =>
    have hstep := h.step
    rw [hl] at hstep
    cases hm : m.step with
    | next m' => rw [hm] at hstep; cases hstep
    | completed m' =>
      rw [hm] at hstep
      obtain - | ⟨hend⟩ := hstep
      rw [run_of_completed hm]
      exact ⟨hend, rfl⟩
    | aborted m' abort => rw [hm] at hstep; cases hstep
  | case3 l l' abort hl =>
    have hstep := h.step
    rw [hl] at hstep
    cases hm : m.step with
    | next m' => rw [hm] at hstep; cases hstep
    | completed m' => rw [hm] at hstep; cases hstep
    | aborted m' abort' =>
      rw [hm] at hstep
      obtain - | - | ⟨hend⟩ := hstep
      rw [run_of_aborted hm]
      exact ⟨hend, rfl⟩

/-- The lexers of one source begin in lockstep. -/
theorem lockstep_start (source : Source) (c d : Settings) :
    (start c source).Lockstep (start d source) := by
  rw [start_eq, start_eq]
  exact lockstep_lexer ((Reporter.Alike.ofSettings source c d).recordAll _) _

end Lexer

/-- **Settings cannot change what is lexed.**  Passes over one text under any two settings give
the same tokens and the same properties, and abort for the same reason at the same place or not
at all.  In particular a rule that is switched off still aborts.  And the pass that reports while it
reads is the account of a scan, which asks for no settings. -/
theorem lexing_independent_of_settings (c d : Settings) (text : String) :
    (lex c text).abort = (lex d text).abort ∧
      (lex c text).tokens = (lex d text).tokens ∧
      (lex c text).properties = (lex d text).properties ∧
      (∀ rule, (lex (c.setLevel rule .off) text).abort = (lex c text).abort) ∧
      lex c text = Pass.run c text := by
  have hsame (c d : Settings) : (lex c text).abort = (lex d text).abort ∧
      (lex c text).tokens = (lex d text).tokens ∧
      (lex c text).properties = (lex d text).properties := by
    obtain ⟨hend, habort⟩ := (Lexer.lockstep_start (.ofString text) c d).run
    refine ⟨habort, ?_, ?_⟩
    · exact congrArg (fun s : State => s.tokens.reverse) hend.state
    · simp only [lex, Lexer.pass, hend.reporter.account.properties]
  obtain ⟨habort, htokens, hproperties⟩ := hsame c d
  exact ⟨habort, htokens, hproperties, fun rule => (hsame _ _).1, lex_eq_run c text⟩

end ScriptLint
