import ScriptLint.Lexer.Reporter

/-!
# Lexers

The state of a pass between two tokens, and the moves it is made of.  A lexer reads the source
and reports at once, so every move may ask its reporter.

A lexer shows a scanner state, and a scanner state shows a lexer once a reporter has taken note
of its events.  Every move of the lexer is the move of the scan seen that way: what a move asks
of the reporter decides what is reported and nothing else.

## Main definitions

* `Lexer` — the place reached, the tokens so far, and the reporter
* `Lexer.nextLine?`, `Lexer.leaveLine`, `Lexer.push` — from line to line, and adding a token
* `Lexer.state` — what a lexer has read
* `State.lexer` — the lexer at a state of a scan

## Main statements

* `State.leaveLine_lexer`, `State.nextLine?_lexer`, `State.push_lexer` — moves seen from a scan
-/

namespace ScriptLint

/-- **Lexer**: the state of a pass that reports while it reads. -/
structure Lexer where
  /-- What is reported to. -/
  reporter : Reporter
  /-- Number of the current line, 0 before the first. -/
  line : Nat := 0
  /-- Number of characters of the line read. -/
  column : Nat := 0
  /-- The rest of the line, with spaces for tabs outside of templates. -/
  rest : List Char := []
  /-- The lines below. -/
  below : List Line
  /-- The current template, if any. -/
  mode : Mode := .code
  /-- The current line is not subject to the length limit. -/
  exempt : Bool := false
  /-- A regular expression starts on the current line. -/
  regexSeen : Bool := false
  /-- The first token opens an object or an array. -/
  json : Bool := false
  /-- The tokens, newest first. -/
  tokens : List Token := []

namespace Lexer

/-- What a lexer has read. -/
def state (l : Lexer) : State where
  line := l.line
  column := l.column
  rest := l.rest
  below := l.below
  mode := l.mode
  exempt := l.exempt
  regexSeen := l.regexSeen
  json := l.json
  tokens := l.tokens

/-! ### Reports -/

/-- Reports a finding. -/
def report (l : Lexer) (finding : Finding) : Lexer :=
  { l with reporter := l.reporter.report finding }

/-- Reports a finding on the current line. -/
def note (l : Lexer) (rule : Rule) (column : Nat) (args : List String := []) : Lexer :=
  l.report { rule, line := l.line, column, args }

/-- Reports a finding on the current line if a condition holds. -/
def noteIf (l : Lexer) (p : Bool) (rule : Rule) (column : Nat) (args : List String := []) :
    Lexer :=
  if p then l.note rule column args else l

/-- Reports findings listed newest first. -/
def reportAll (l : Lexer) (findings : List Finding) : Lexer :=
  findings.foldr (fun finding l => l.report finding) l

/-! ### Moves -/

/-- Goes on by `n` characters. -/
def advance (l : Lexer) (n : Nat) : Lexer :=
  { l with column := l.column + n, rest := l.rest.drop n }

/-- Goes on to the end of the line. -/
def skipLine (l : Lexer) : Lexer :=
  { l with column := l.column + l.rest.length, rest := [] }

/-- Finishes the current line. It is too long beyond the limit of the settings, unless it is
exempt, holds a regular expression or belongs to a JSON text. -/
def leaveLine (l : Lexer) : Lexer :=
  if l.line = 0 ∨ l.exempt ∨ l.regexSeen ∨ l.json then l
  else if l.reporter.source.lengthAt l.line > l.reporter.maxLineLength then
    l.note .noLongLines l.reporter.maxLineLength [toString l.reporter.maxLineLength]
  else l

/-- Checks a line for tabs and for blanks at its end. -/
def checkBlanks (l : Lexer) (text : List Char) : Lexer :=
  let tab := (text.takeWhile (· != '\t')).length
  let kept := (trimBlankEnd text).length
  (l.noteIf (tab < text.length) .noTabs (tab + 1)).noteIf (kept < text.length)
    .noIrregularWhitespace (kept + 1)

/-- Starts a line. Inside a template its tabs and blanks are text, and it is exempt from the
length limit; outside they are checked. -/
def enter (l : Lexer) (line : Line) (below : List Line) : Lexer :=
  let text := line.text.toList
  let m : Lexer :=
    { l with line := l.line + 1, column := 0, rest := text, below := below, regexSeen := false,
             exempt := l.state.inTemplate }
  if l.state.inTemplate then m else { m.checkBlanks text with rest := State.untabbed text }

/-- Leaves the current line for the next one, if there is one. -/
def nextLine? (l : Lexer) : Option Lexer :=
  match l.below with
  | [] => none
  | line :: below => some (l.leaveLine.enter line below)

/-- Checks a token against the one before: two comment-like tokens, or one and a slash, should
not touch, and a number should not follow a dot. -/
def checkNeighbours (l : Lexer) (t : Token) : Lexer :=
  match l.tokens with
  | [] => l
  | p :: _ =>
    let touching := p.stop = t.start && p.isCommentLike && (t.isCommentLike || t.isOperator "/")
    (l.noteIf touching .noIrregularWhitespace l.column [p.value, t.value]).noteIf
      (p.isOperator "." && t.kind == .number) .noFloatingDecimal l.column [t.value]

/-- Adds a token. The first one decides whether the source is a JSON text. -/
def push (l : Lexer) (t : Token) : Lexer :=
  let l := l.checkNeighbours t
  { l with
    tokens := t :: l.tokens
    json := l.json || (l.tokens.isEmpty && (t.isOperator "\x7b" || t.isOperator "[")) }

end Lexer

/-! ### Moves seen from a scan -/

namespace State

/-- **The lexer at a state of a scan**, once a reporter has taken note of its events. -/
def lexer (s : State) (r : Reporter) : Lexer where
  reporter := r.recordAll s.events.reverse
  line := s.line
  column := s.column
  rest := s.rest
  below := s.below
  mode := s.mode
  exempt := s.exempt
  regexSeen := s.regexSeen
  json := s.json
  tokens := s.tokens

variable (s : State) (r : Reporter)

/-- A lexer stands at the state that it has read. -/
theorem lexer_state (l : Lexer) : l.state.lexer l.reporter = l := rfl

@[simp] theorem rest_lexer : (s.lexer r).rest = s.rest := rfl

@[simp] theorem below_lexer : (s.lexer r).below = s.below := rfl

/-- An event is reported at once. -/
theorem lexer_emit (event : Event) :
    (s.emit event).lexer r = { s.lexer r with reporter := (s.lexer r).reporter.record event } := by
  unfold lexer emit
  simp only [List.reverse_cons, Reporter.recordAll_concat]

@[simp] theorem report_lexer (finding : Finding) :
    (s.lexer r).report finding = (s.emit (.found finding)).lexer r :=
  (lexer_emit s r (.found finding)).symm

@[simp] theorem note_lexer (rule : Rule) (column : Nat) (args : List String) :
    (s.lexer r).note rule column args = (s.note rule column args).lexer r :=
  report_lexer s r _

@[simp] theorem noteIf_lexer (p : Bool) (rule : Rule) (column : Nat) (args : List String) :
    (s.lexer r).noteIf p rule column args = (s.noteIf p rule column args).lexer r := by
  unfold Lexer.noteIf noteIf
  rw [note_lexer]
  split <;> rfl

@[simp] theorem reportAll_lexer (findings : List Finding) :
    (s.lexer r).reportAll findings = (s.noteAll findings).lexer r := by
  induction findings with
  | nil => rfl
  | cons finding findings ih =>
    show ((s.lexer r).reportAll findings).report finding = _
    rw [ih]
    exact report_lexer (s.noteAll findings) r finding

@[simp] theorem advance_lexer (n : Nat) : (s.lexer r).advance n = (s.advance n).lexer r := rfl

/-- **Finishing a line**: the limit decides whether the line is reported. -/
@[simp] theorem leaveLine_lexer : (s.lexer r).leaveLine = s.leaveLine.lexer r := by
  unfold Lexer.leaveLine leaveLine
  by_cases hfree : s.line = 0 ∨ s.exempt ∨ s.regexSeen ∨ s.json
  · rw [if_pos hfree]
    exact if_pos hfree
  · rw [if_neg hfree, lexer_emit, Reporter.record_lineLeft]
    refine (if_neg hfree).trans ?_
    by_cases hlong :
      (s.lexer r).reporter.source.lengthAt s.line > (s.lexer r).reporter.maxLineLength
    · rw [if_pos hlong]
      exact if_pos hlong
    · rw [if_neg hlong]
      exact if_neg hlong

@[simp] theorem checkBlanks_lexer (text : List Char) :
    (s.lexer r).checkBlanks text = (s.checkBlanks text).lexer r := by
  unfold Lexer.checkBlanks checkBlanks
  simp only [noteIf_lexer]

@[simp] theorem enter_lexer (line : Line) (below : List Line) :
    (s.lexer r).enter line below = (s.enter line below).lexer r := by
  have htemplate : (s.lexer r).state.inTemplate = s.inTemplate := rfl
  let t : State :=
    { s with line := s.line + 1, column := 0, rest := line.text.toList, below := below,
             regexSeen := false, exempt := s.inTemplate }
  unfold Lexer.enter enter
  simp only [htemplate]
  split
  · rfl
  · exact congrArg (fun l : Lexer => { l with rest := untabbed line.text.toList })
      (checkBlanks_lexer t r line.text.toList)

@[simp] theorem nextLine?_lexer :
    (s.lexer r).nextLine? = s.nextLine?.map fun t => t.lexer r := by
  unfold Lexer.nextLine? nextLine?
  rw [below_lexer]
  cases s.below with
  | nil => rfl
  | cons line below =>
    rw [leaveLine_lexer]
    exact congrArg some (enter_lexer s.leaveLine r line below)

@[simp] theorem checkNeighbours_lexer (t : Token) :
    (s.lexer r).checkNeighbours t = (s.checkNeighbours t).lexer r := by
  have htokens : (s.lexer r).tokens = s.tokens := rfl
  unfold Lexer.checkNeighbours checkNeighbours
  rw [htokens]
  cases s.tokens with
  | nil => rfl
  | cons p tokens =>
    simp only [noteIf_lexer]
    rfl

@[simp] theorem push_lexer (t : Token) : (s.lexer r).push t = (s.push t).lexer r := by
  unfold Lexer.push push
  rw [checkNeighbours_lexer]
  rfl

end State

end ScriptLint
