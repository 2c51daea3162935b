import ScriptLint.Lexer.Comment
import ScriptLint.Scan

/-!
# Lexing a source

The pass over a source as it runs: one lexer cuts the source into tokens and reports while it
does so.  It asks its reporter how long a line may be, whether a task is let pass and at which
level a finding is reported, and directives that it meets change the answers.

The same pass comes of a scan, which asks nothing, and the account of its events afterwards
(`lex_eq_run`): each operation of the lexer is that of the scan seen through the reporter.

## Main definitions

* `Lexer.Turn` — what a step comes to
* `Lexer.step`, `Lexer.run` — one step, and the steps to the end
* `lex` — the pass over a text
* `verify` — the diagnostics of a pass

## Main statements

* `State.step_lexer` — a step of the lexer is the step of the scan, reported
* `lex_eq_run` — a pass is the account of a scan
-/

namespace ScriptLint

namespace Lexer

/-- The outcome of a step. -/
inductive Turn
  /-- The pass goes on. -/
  | next (l : Lexer)
  /-- The source ended. -/
  | completed (l : Lexer)
  /-- A fault stopped the pass. -/
  | aborted (l : Lexer) (abort : Abort)

/-! ### Tokens -/

/-- Stops at a fault, which is reported; the current line is finished before. -/
def stop (l : Lexer) (fault : Finding) : Turn :=
  let l := l.leaveLine
  let (reporter, abort) := l.reporter.fatal fault
  .aborted { l with reporter := reporter } abort

/-- Stops at a fault with a rule and a place. -/
def fail (l : Lexer) (rule : Rule) (line column : Nat) (args : List String := []) : Turn :=
  l.stop { rule, line, column, args }

/-- Stops at the fault of a literal. -/
def failWith (l : Lexer) (halt : Halt) : Turn := (l.reportAll halt.findings).stop halt.fault

/-- Ends the pass, unless a template is open. -/
def finish (l : Lexer) : Turn :=
  match l.mode.opening? with
  | some opening => l.fail .unclosedMega opening.line (opening.column + 1)
  | none =>
    let l := l.leaveLine
    .completed (l.push (l.state.token .eof "" l.state.position))

/-- The lexer after a token of `n` characters. -/
def pushNext (l : Lexer) (n : Nat) (kind : TokenKind) (value : String) : Lexer :=
  let m := l.advance n
  m.push (m.state.token kind value l.state.position)

/-- Reads an identifier or keyword of `n` characters. After a dot a reserved word is a
property name. -/
def identifier (l : Lexer) (n : Nat) : Lexer :=
  let value := l.state.slice n
  let keyword := reserved? value
  let precededByDot := l.state.afterDot
  let kind := if keyword.isSome && !precededByDot then .keyword else .identifier
  let m := l.advance n
  m.push { m.state.token kind value l.state.position with keyword, precededByDot }

/-- Reads a number whose lead has `lead` characters. -/
def number (l : Lexer) (lead : Nat) : Turn :=
  match ({ rest := l.rest } : Strand).number (l.state.surroundings 0) lead with
  | .error halt => l.failWith halt
  | .ok read => .next ((l.reportAll read.findings).pushNext read.taken.length .number read.text)

/-- Reads a string from its opening quote on. -/
def string (l : Lexer) (quote : Char) : Turn :=
  match ({ rest := l.rest.tail } : Strand).quoted (l.state.surroundings 1) quote with
  | .error halt => l.failWith halt
  | .ok read =>
    let m := (l.reportAll read.findings).advance (read.taken.length + 2)
    .next (m.push { m.state.token .string read.text l.state.position with quote := some quote })

/-- Reads a regular expression from its opening slash on. -/
def regex (l : Lexer) (role : SlashRole) : Turn :=
  let l := { l with regexSeen := true }
  match ({ rest := l.rest.tail } : Strand).regex (l.state.surroundings 1) with
  | .error halt => l.failWith halt
  | .ok (read, missesFlag) =>
    let value := "/" ++ read.text
    let m := (l.reportAll read.findings).pushNext (read.taken.length + 1) .regex value
    let m := m.noteIf missesFlag .missingM m.column
    match role with
    | .suspectRegex =>
      .next (m.report { rule := .unexpectedA, line := m.line, column := m.column,
                        args := [value], unset := .error })
    | .bareRegex => .next (m.note .wrapRegexp m.column)
    | _ => .next m

/-- Reads a slash that divides, with an equals sign after it. -/
def division (l : Lexer) : Lexer :=
  if l.rest.tail.head? = some '=' then
    (l.note .unexpectedA (l.column + 2) ["/="]).pushNext 2 .operator "/="
  else l.pushNext 1 .operator "/"

/-- Reads a slash that opens no comment. -/
def slash (l : Lexer) : Turn :=
  match slashRole l.state.preceding with
  | .division => .next l.division
  | role => l.regex role

/-- Reads the backtick that opens a template. Templates do not nest. -/
def backtick (l : Lexer) : Turn :=
  if l.state.inTemplate then l.fail .expectedAB l.line (l.column + 1) ["\x7d", "\x60"]
  else .next { l.pushNext 1 .operator "\x60" with mode := .template l.state.position }

/-- Reads any other operator of `n` characters. In an interpolation a closing brace ends it,
and there are no opening braces. -/
def punctuation (l : Lexer) (n : Nat) : Turn :=
  let value := l.state.slice n
  let m := l.pushNext n .operator value
  match l.mode with
  | .interpolation opening =>
    if value = "\x7d" then .next { m with mode := .template opening }
    else if value = "\x7b" then m.fail .expectedAB m.line m.column ["\x7d", "\x7b"]
    else .next m
  | _ => .next m

/-- Reads what an operator of `n` characters opens, or the operator. -/
def operator (l : Lexer) (n : Nat) : Turn :=
  match l.rest with
  | '"' :: _ => l.string '"'
  | '\'' :: _ => l.string '\''
  | '\x60' :: _ => l.backtick
  | '/' :: '/' :: _ => .next l.lineComment
  | '/' :: '*' :: _ =>
    match l.blockComment with
    | .error m => m.fail .unclosedComment l.line (l.column + 1)
    | .ok m => .next m
  | '/' :: _ => l.slash
  | _ => l.punctuation n

/-- Reads the token that starts with the next character. Outside of templates it makes the
length limit concern its line. -/
def readToken (l : Lexer) (c : Char) : Turn :=
  let l := { l with exempt := l.exempt && l.state.inTemplate }
  if identifierLength l.rest ≠ 0 then .next (l.identifier (identifierLength l.rest))
  else if numberLength l.rest ≠ 0 then l.number (numberLength l.rest)
  else if operatorLength l.rest ≠ 0 then l.operator (operatorLength l.rest)
  else l.fail .unexpectedCharA l.line (l.column + 1) [c.toString]

/-- Reads the text of a template up to its next interpolation or its end, and what opens the
one or makes the other. -/
def templatePart (l : Lexer) (opening : Position) : Turn :=
  match l.templateText [] with
  | .error m => m.fail .unclosedMega opening.line (opening.column + 1)
  | .ok (text, stop, m) =>
    let part := m.state.token .string (String.ofList text.reverse) l.state.position
    let m := m.push { part with quote := some '\x60' }
    match stop with
    | .interpolation =>
      .next { m.pushNext 2 .operator "$\x7b" with mode := .interpolation opening }
    | _ => .next { m.pushNext 1 .operator "\x60" with mode := .code }

/-- **One step** of a pass. -/
def step (l : Lexer) : Turn :=
  match l.mode with
  | .template opening => l.templatePart opening
  | _ =>
    match l.rest with
    | [] =>
      match l.nextLine? with
      | some m => .next m
      | none => l.finish
    | c :: _ =>
      if isBlank c then .next (l.advance (l.rest.takeWhile isBlank).length) else l.readToken c

end Lexer

/-! ### Steps seen from a scan -/

/-- The turn of a lexer at a step of a scan. -/
def Step.turn (r : Reporter) : Step → Lexer.Turn
  | .next s => .next (s.lexer r)
  | .completed s => .completed (s.lexer r)
  | .failed s fault =>
    .aborted { s.lexer r with reporter := ((s.lexer r).reporter.fatal fault).1 }
      ((s.lexer r).reporter.fatal fault).2

namespace State

variable (s : State) (r : Reporter)

theorem fail_lexer (rule : Rule) (line column : Nat) (args : List String) :
    (s.lexer r).fail rule line column args = (s.fail rule line column args).turn r := by
  unfold Lexer.fail Lexer.stop
  rw [leaveLine_lexer]
  rfl

theorem failWith_lexer (halt : Halt) : (s.lexer r).failWith halt = (s.failWith halt).turn r := by
  unfold Lexer.failWith Lexer.stop
  rw [reportAll_lexer, leaveLine_lexer]
  rfl

theorem finish_lexer : (s.lexer r).finish = s.finish.turn r := by
  have hmode : (s.lexer r).mode = s.mode := rfl
  unfold Lexer.finish finish
  rw [hmode]
  cases s.mode.opening? with
  | some opening => exact fail_lexer s r _ _ _ _
  | none =>
    simp only [leaveLine_lexer]
    exact congrArg Lexer.Turn.completed (push_lexer s.leaveLine r _)

@[simp] theorem pushNext_lexer (n : Nat) (kind : TokenKind) (value : String) :
    (s.lexer r).pushNext n kind value = (s.pushNext n kind value).lexer r :=
  push_lexer (s.advance n) r _

theorem identifier_lexer (n : Nat) : (s.lexer r).identifier n = (s.identifier n).lexer r :=
  push_lexer (s.advance n) r _

theorem number_lexer (lead : Nat) : (s.lexer r).number lead = (s.number lead).turn r := by
  have hread : ({ rest := (s.lexer r).rest } : Strand).number ((s.lexer r).state.surroundings 0)
      lead = ({ rest := s.rest } : Strand).number (s.surroundings 0) lead := rfl
  unfold Lexer.number number
  rw [hread]
  cases ({ rest := s.rest } : Strand).number (s.surroundings 0) lead with
  | error halt => exact failWith_lexer s r halt
  | ok read =>
    simp only [reportAll_lexer, pushNext_lexer]
    rfl

theorem string_lexer (quote : Char) : (s.lexer r).string quote = (s.string quote).turn r := by
  have hread : ({ rest := (s.lexer r).rest.tail } : Strand).quoted
      ((s.lexer r).state.surroundings 1) quote =
      ({ rest := s.rest.tail } : Strand).quoted (s.surroundings 1) quote := rfl
  unfold Lexer.string string
  rw [hread]
  cases ({ rest := s.rest.tail } : Strand).quoted (s.surroundings 1) quote with
  | error halt => exact failWith_lexer s r halt
  | ok read =>
    simp only [reportAll_lexer]
    exact congrArg Lexer.Turn.next
      (push_lexer ((s.noteAll read.findings).advance (read.taken.length + 2)) r _)

theorem regex_lexer (role : SlashRole) : (s.lexer r).regex role = (s.regex role).turn r := by
  unfold Lexer.regex regex
  extract_lets l u
  have hl : l = u.lexer r := rfl
  have hread : ({ rest := (u.lexer r).rest.tail } : Strand).regex
      ((u.lexer r).state.surroundings 1) =
      ({ rest := u.rest.tail } : Strand).regex (u.surroundings 1) := rfl
  rw [hl, hread]
  cases ({ rest := u.rest.tail } : Strand).regex (u.surroundings 1) with
  | error halt => exact failWith_lexer u r halt
  | ok read =>
    obtain ⟨read, missesFlag⟩ := read
    simp only [reportAll_lexer, pushNext_lexer]
    let t := (u.noteAll read.findings).pushNext (read.taken.length + 1) .regex ("/" ++ read.text)
    have hflag : (t.lexer r).noteIf missesFlag .missingM (t.lexer r).column =
        (t.noteIf missesFlag .missingM t.column).lexer r := noteIf_lexer t r _ _ _ _
    rw [hflag]
    cases role with
    | regex => rfl
    | division => rfl
    | suspectRegex => exact congrArg Lexer.Turn.next (report_lexer _ r _)
    | bareRegex => exact congrArg Lexer.Turn.next (note_lexer _ r _ _ _)

theorem division_lexer : (s.lexer r).division = s.division.lexer r := by
  unfold Lexer.division division
  rw [note_lexer, pushNext_lexer, pushNext_lexer]
  exact (apply_ite (fun t : State => t.lexer r) _ _ _).symm

theorem slash_lexer : (s.lexer r).slash = s.slash.turn r := by
  have hpreceding : (s.lexer r).state.preceding = s.preceding := rfl
  unfold Lexer.slash slash
  rw [hpreceding, division_lexer]
  cases slashRole s.preceding with
  | division => rfl
  | regex => exact regex_lexer s r _
  | suspectRegex => exact regex_lexer s r _
  | bareRegex => exact regex_lexer s r _

theorem backtick_lexer : (s.lexer r).backtick = s.backtick.turn r := by
  have htemplate : (s.lexer r).state.inTemplate = s.inTemplate := rfl
  unfold Lexer.backtick backtick
  rw [htemplate, pushNext_lexer]
  split
  · exact fail_lexer s r _ _ _ _
  · rfl

theorem punctuation_lexer (n : Nat) : (s.lexer r).punctuation n = (s.punctuation n).turn r := by
  have hmode : (s.lexer r).mode = s.mode := rfl
  unfold Lexer.punctuation punctuation
  extract_lets value m value' t
  have hvalue : value = value' := rfl
  have hm : m = t.lexer r := pushNext_lexer s r n .operator value
  rw [hm, hmode, hvalue]
  cases s.mode with
  | code => rfl
  | template opening => rfl
  | interpolation opening =>
    simp only [fail_lexer]
    by_cases hclose : value' = "\x7d"
    · simp only [if_pos hclose]
      rfl
    · by_cases hopen : value' = "\x7b"
      · simp only [if_neg hclose, if_pos hopen]
        rfl
      · simp only [if_neg hclose, if_neg hopen]
        rfl

theorem operator_lexer (n : Nat) : (s.lexer r).operator n = (s.operator n).turn r := by
  unfold Lexer.operator operator
  rw [rest_lexer, blockComment_lexer]
  generalize s.rest = text
  split
  · exact string_lexer s r _
  · exact string_lexer s r _
  · exact backtick_lexer s r
  · exact congrArg Lexer.Turn.next (lineComment_lexer s r)
  · cases s.blockComment with
    | error t => exact fail_lexer t r _ _ _ _
    | ok t => rfl
  · simp only [slash_lexer]
  · simp only [punctuation_lexer]

theorem readToken_lexer (c : Char) : (s.lexer r).readToken c = (s.readToken c).turn r := by
  unfold Lexer.readToken readToken
  extract_lets l u
  have hl : l = u.lexer r := rfl
  rw [hl, identifier_lexer, number_lexer, operator_lexer, fail_lexer]
  simp only [apply_ite (Step.turn r)]
  rfl

theorem templatePart_lexer (opening : Position) :
    (s.lexer r).templatePart opening = (s.templatePart opening).turn r := by
  unfold Lexer.templatePart templatePart
  rw [templateText_lexer]
  cases s.templateText [] with
  | error t => exact fail_lexer t r _ _ _ _
  | ok read =>
    obtain ⟨text, stop, t⟩ := read
    let part : Token :=
      { t.token .string (String.ofList text.reverse) s.position with quote := some '\x60' }
    have hnext (n : Nat) (value : String) :
        ((t.lexer r).push part).pushNext n .operator value =
          ((t.push part).pushNext n .operator value).lexer r := by
      rw [push_lexer, pushNext_lexer]
    cases stop with
    | interpolation =>
      exact congrArg (fun l : Lexer => Lexer.Turn.next { l with mode := .interpolation opening })
        (hnext 2 "$\x7b")
    | close | lineEnd =>
      exact congrArg (fun l : Lexer => Lexer.Turn.next { l with mode := .code }) (hnext 1 "\x60")

/-- **A step of the lexer** is the step of the scan, reported. -/
theorem step_lexer : (s.lexer r).step = s.step.turn r := by
  have hmode : (s.lexer r).mode = s.mode := rfl
  unfold Lexer.step step
  rw [hmode, rest_lexer, nextLine?_lexer, finish_lexer, advance_lexer]
  simp only [readToken_lexer]
  cases s.mode with
  | template opening => exact templatePart_lexer s r opening
  | code | interpolation opening =>
    cases s.rest with
    | nil => cases s.nextLine? <;> rfl
    | cons c rest =>
      dsimp only
      split <;> rfl

end State

/-! ### Passes -/

namespace Lexer

/-- What is left of the source. -/
def size (l : Lexer) : Nat := l.state.size

/-- **Progress**: a step that is not the last leaves less of the source. -/
theorem size_of_step {l m : Lexer} (h : l.step = .next m) : m.size < l.size := by
  rw [← State.lexer_state l, State.step_lexer] at h
  cases hstep : l.state.step with
  | next t =>
    rw [hstep] at h
    obtain rfl := Turn.next.inj h
    exact show t.size < l.state.size from State.size_of_step hstep
  | completed t => rw [hstep] at h; cases h
  | failed t fault => rw [hstep] at h; cases h

/-- The steps of a pass to its end: the lexer there, and the abort if a fault stopped it. -/
def run (l : Lexer) : Lexer × Option Abort :=
  match _h : l.step with
  | .next m => m.run
  | .completed m => (m, none)
  | .aborted m abort => (m, some abort)
termination_by l.size
decreasing_by exact size_of_step _h

theorem run_of_next {l m : Lexer} (h : l.step = .next m) : l.run = m.run := by
  rw [run]
  split <;> simp_all

theorem run_of_completed {l m : Lexer} (h : l.step = .completed m) : l.run = (m, none) := by
  rw [run]
  split <;> simp_all

theorem run_of_aborted {l m : Lexer} {abort : Abort} (h : l.step = .aborted m abort) :
    l.run = (m, some abort) := by
  rw [run]
  split <;> simp_all

/-- The lexer before some lines. A first line that starts with `#!` is read but not scanned. -/
def initial (reporter : Reporter) (lines : List Line) : Lexer :=
  let l : Lexer := { reporter := reporter, below := lines }
  match lines with
  | [] => l
  | line :: below =>
    if "#!".toList.isPrefixOf line.text.toList then
      { (l.enter line below).skipLine with exempt := true }
    else l

/-- The lexer before a source. The issues of its region markers are reported first. -/
def start (settings : Settings) (source : Source) : Lexer :=
  let reporter := source.issues.foldl
    (fun r issue => r.report { rule := issue.rule, line := issue.line, column := 1 })
    (.ofSettings settings source)
  initial reporter source.lines.toList

/-- What a lexer at its end has come to. -/
def pass (outcome : Lexer × Option Abort) : Pass where
  tokens := outcome.1.tokens.reverse
  diagnostics := outcome.1.reporter.account.diagnostics.reverse
  globals := outcome.1.reporter.account.globals
  properties := (outcome.1.reporter.account.properties.eraseDups).mergeSort (· ≤ ·)
  abort := outcome.2

end Lexer

/-- **The pass over a text.** -/
def lex (settings : Settings) (text : String) : Pass :=
  Lexer.pass (Lexer.start settings (.ofString text)).run

/-- The diagnostics of a pass over a text. -/
def verify (settings : Settings) (text : String) : List Diagnostic :=
  (lex settings text).diagnostics

/-! ### A pass is the account of a scan -/

namespace State

/-- The lexer at the end of a scan, and the abort at its fault. -/
def ended (r : Reporter) : State × Option Finding → Lexer × Option Abort
  | (s, none) => (s.lexer r, none)
  | (s, some fault) =>
    ({ s.lexer r with reporter := ((s.lexer r).reporter.fatal fault).1 },
      some ((s.lexer r).reporter.fatal fault).2)

/-- **The run of the lexer** is the run of the scan, reported. -/
theorem run_lexer (r : Reporter) (s : State) : (s.lexer r).run = ended r s.run := by
  fun_induction run s with
  | case1 s t ht ih =>
    have hstep : (s.lexer r).step = .next (t.lexer r) := by rw [step_lexer, ht]; rfl
    rw [Lexer.run_of_next hstep, ih]
  | case2 s t ht =>
    have hstep : (s.lexer r).step = .completed (t.lexer r) := by rw [step_lexer, ht]; rfl
    rw [Lexer.run_of_completed hstep]
    rfl
  | case3 s t fault ht =>
    have hstep : (s.lexer r).step = (Step.failed t fault).turn r := by rw [step_lexer, ht]
    exact Lexer.run_of_aborted hstep

end State

/-- The lexer before some lines is that of the scan. -/
theorem Lexer.initial_eq (r : Reporter) (lines : List Line) :
    Lexer.initial r lines = (State.initial lines).lexer r := by
  unfold Lexer.initial State.initial
  cases lines with
  | nil => rfl
  | cons line below =>
    have henter : ({ reporter := r, below := line :: below } : Lexer).enter line below =
        (({ below := line :: below } : State).enter line below).lexer r :=
      State.enter_lexer { below := line :: below } r line below
    simp only [henter]
    split <;> rfl

/-- The issues of the region markers are reported like events of the scan. -/
theorem Lexer.start_eq (settings : Settings) (source : Source) :
    Lexer.start settings source = (State.initial source.lines.toList).lexer
      ((Reporter.ofSettings settings source).recordAll source.issueEvents) := by
  have hissues (r : Reporter) (issues : List LineIssue) :
      issues.foldl (fun r issue =>
          r.report { rule := issue.rule, line := issue.line, column := 1 }) r =
        r.recordAll (issues.map fun issue =>
          .found { rule := issue.rule, line := issue.line, column := 1 }) := by
    induction issues generalizing r with
    | nil => rfl
    | cons issue issues ih => exact ih _
  unfold Lexer.start
  rw [hissues, Lexer.initial_eq]
  rfl

/-- Events before a scan are recorded before its own. -/
theorem State.lexer_recordAll (s : State) (r : Reporter) (events : List Event) :
    s.lexer (r.recordAll events) =
      { s.lexer r with reporter := r.recordAll (events ++ s.events.reverse) } := by
  rw [Reporter.recordAll_append]
  rfl

/-- **A pass is the account of a scan**: to report while the source is read comes to the same as to
scan it first. -/
theorem lex_eq_run (settings : Settings) (text : String) :
    lex settings text = Pass.run settings text := by
  unfold lex Pass.run Pass.ofSource Account.ofScan scan
  rw [Lexer.start_eq, State.run_lexer]
  rcases (State.initial (Source.ofString text).lines.toList).run with ⟨t, fault⟩
  cases fault with
  | none => simp only [State.ended, State.lexer_recordAll]; rfl
  | some fault => simp only [State.ended, State.lexer_recordAll]; rfl

theorem verify_eq_run (settings : Settings) (text : String) :
    verify settings text = (Pass.run settings text).diagnostics :=
  congrArg Pass.diagnostics (lex_eq_run settings text)

end ScriptLint
