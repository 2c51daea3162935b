import ScriptLint.Finding
import ScriptLint.Literal.Strand
import ScriptLint.Source
import ScriptLint.Token

/-!
# Scanner states

The state of a scan between two tokens, and the moves it is made of: going on
inside a line, reading the next line, adding a token, recording an event.

## Main definitions

* `Mode` — in code, in the text of a template, or in one of its interpolations
* `State` — the place reached, the tokens and the events so far
* `State.nextLine?`, `State.leaveLine` — from line to line
* `State.push` — adds a token with the checks on its neighbours
* `State.size` — what is left of the source

## Design notes

Templates do not nest, so the mode remembers one opening backtick. Tokens and
events are kept newest first.
-/

namespace ScriptLint

/-- Where the scan stands with respect to template literals. -/
inductive Mode
  /-- Outside of any. -/
  | code
  /-- In the text of the one opened at a place. -/
  | template (opening : Position)
  /-- In an interpolation of the one opened at a place. -/
  | interpolation (opening : Position)
deriving DecidableEq, Repr

/-- The opening backtick of the current template. -/
def Mode.opening? : Mode → Option Position
  | code => none
  | template opening => some opening
  | interpolation opening => some opening

/-- The state of a scan. -/
structure State where
  /-- Number of the current line, 0 before the first. -/
  line : Nat := 0
  /-- Number of characters of the line read. -/
  column : Nat := 0
  /-- The rest of the line, with spaces for tabs outside of templates. -/
  rest : List Char := []
  /-- The lines below. -/
  below : List Line
  /-- The current template, if any. -/
  mode : Mode := .code
  /-- The current line is not subject to the length limit. -/
  exempt : Bool := false
  /-- A regular expression starts on the current line. -/
  regexSeen : Bool := false
  /-- The first token opens an object or an array. -/
  json : Bool := false
  /-- The tokens, newest first. -/
  tokens : List Token := []
  /-- The events, newest first. -/
  events : List Event := []

namespace State

/-! ### Views -/

/-- The place reached. -/
def position (s : State) : Position := ⟨s.line, s.column⟩

/-- The current template is open. -/
def inTemplate (s : State) : Bool := s.mode.opening?.isSome

/-- The last token that is no comment. -/
def preceding (s : State) : Option Token := s.tokens.find? (·.kind != .comment)

/-- The last token that is no comment is a single dot. -/
def afterDot (s : State) : Bool := s.preceding.any (·.isOperator ".")

/-- **Directive window**: only comments so far. -/
def directivesOpen (s : State) : Bool := s.preceding.isNone

/-- What is left: the characters, with a line end before each line below. -/
def size (s : State) : Nat :=
  s.rest.length + (s.below.flatMap fun line => '\n' :: line.text.toList).length

/-! ### Events -/

/-- Records an event. -/
def emit (s : State) (event : Event) : State :=
  { s with events := event :: s.events }

/-- Records a finding on the current line. -/
def note (s : State) (rule : Rule) (column : Nat) (args : List String := []) : State :=
  s.emit (.found { rule, line := s.line, column, args })

/-- Records a finding on the current line if a condition holds. -/
@[inline] def noteIf (s : State) (p : Bool) (rule : Rule) (column : Nat)
    (args : List String := []) : State :=
  if p then s.note rule column args else s

/-- Records findings listed newest first. -/
def noteAll (s : State) (findings : List Finding) : State :=
  { s with events := findings.map .found ++ s.events }

/-! ### Moves -/

/-- Goes on by `n` characters. -/
def advance (s : State) (n : Nat) : State :=
  { s with column := s.column + n, rest := s.rest.drop n }

/-- Goes on to the end of the line. -/
def skipLine (s : State) : State :=
  { s with column := s.column + s.rest.length, rest := [] }

/-- Finishes the current line: the length limit concerns it unless it is exempt, holds a
regular expression or belongs to a JSON text. -/
def leaveLine (s : State) : State :=
  if s.line = 0 ∨ s.exempt ∨ s.regexSeen ∨ s.json then s else s.emit (.lineLeft s.line)

/-- A line with spaces for its tabs. -/
def untabbed (text : List Char) : List Char :=
  text.map fun c => if c = '\t' then ' ' else c

/-- Checks a line for tabs and for blanks at its end. -/
def checkBlanks (s : State) (text : List Char) : State :=
  let tab := (text.takeWhile (· != '\t')).length
  let kept := (trimBlankEnd text).length
  (s.noteIf (tab < text.length) .noTabs (tab + 1)).noteIf (kept < text.length)
    .noIrregularWhitespace (kept + 1)

/-- Starts a line. Inside a template its tabs and blanks are text, and it is exempt from the
length limit; outside they are checked. -/
def enter (s : State) (line : Line) (below : List Line) : State :=
  let text := line.text.toList
  let t : State :=
    { s with line := s.line + 1, column := 0, rest := text, below := below, regexSeen := false,
             exempt := s.inTemplate }
  if s.inTemplate then t else { t.checkBlanks text with rest := untabbed text }

/-- Leaves the current line for the next one, if there is one. -/
def nextLine? (s : State) : Option State :=
  match s.below with
  | [] => none
  | line :: below => some (s.leaveLine.enter line below)

/-! ### Tokens -/

/-- The text of the next `n` characters. -/
def slice (s : State) (n : Nat) : String := String.ofList (s.rest.take n)

/-- A token from a place to the place reached. -/
def token (s : State) (kind : TokenKind) (value : String) (start : Position) : Token where
  kind := kind
  value := value
  start := start
  stop := s.position
  nr := match s.tokens with
    | [] => 0
    | t :: _ => t.nr + 1

/-- Checks a token against the one before: two comment-like tokens, or one and a slash, should
not touch, and a number should not follow a dot. -/
def checkNeighbours (s : State) (t : Token) : State :=
  match s.tokens with
  | [] => s
  | p :: _ =>
    let touching := p.stop = t.start && p.isCommentLike && (t.isCommentLike || t.isOperator "/")
    (s.noteIf touching .noIrregularWhitespace s.column [p.value, t.value]).noteIf
      (p.isOperator "." && t.kind == .number) .noFloatingDecimal s.column [t.value]

/-- Adds a token. The first one decides whether the source is a JSON text. -/
def push (s : State) (t : Token) : State :=
  let s := s.checkNeighbours t
  { s with
    tokens := t :: s.tokens
    json := s.json || (s.tokens.isEmpty && (t.isOperator "\x7b" || t.isOperator "[")) }

/-- What a literal stands in that starts `offset` characters ahead. -/
def surroundings (s : State) (offset : Nat) : Surroundings where
  line := s.line
  origin := s.column + offset
  json := s.json
  inTemplate := s.inTemplate

/-! ### What the moves leave -/

@[simp] theorem size_emit (s : State) (event : Event) : (s.emit event).size = s.size := rfl

@[simp] theorem size_note (s : State) (rule : Rule) (column : Nat) (args : List String) :
    (s.note rule column args).size = s.size := rfl

@[simp] theorem size_noteIf (s : State) (p : Bool) (rule : Rule) (column : Nat)
    (args : List String) : (s.noteIf p rule column args).size = s.size := by
  unfold noteIf; split <;> rfl

@[simp] theorem size_noteAll (s : State) (findings : List Finding) :
    (s.noteAll findings).size = s.size := rfl

@[simp] theorem size_checkNeighbours (s : State) (t : Token) :
    (s.checkNeighbours t).size = s.size := by
  unfold checkNeighbours; split <;> simp

@[simp] theorem size_push (s : State) (t : Token) : (s.push t).size = s.size := by
  have := size_checkNeighbours s t
  simpa [push, size] using this

@[simp] theorem rest_noteIf (s : State) (p : Bool) (rule : Rule) (column : Nat)
    (args : List String) : (s.noteIf p rule column args).rest = s.rest := by
  unfold noteIf; split <;> rfl

@[simp] theorem rest_push (s : State) (t : Token) : (s.push t).rest = s.rest := by
  unfold push checkNeighbours; split <;> simp

theorem size_advance_le (s : State) (n : Nat) : (s.advance n).size ≤ s.size := by
  simp [size, advance]

theorem size_advance_lt (s : State) {n : Nat} (hn : 0 < n) (hs : s.rest ≠ []) :
    (s.advance n).size < s.size := by
  have : 0 < s.rest.length := List.length_pos_iff.mpr hs
  simp [size, advance]; omega

theorem size_skipLine_lt (s : State) (hs : s.rest ≠ []) : s.skipLine.size < s.size := by
  have : 0 < s.rest.length := List.length_pos_iff.mpr hs
  simp [size, skipLine]; omega

@[simp] theorem below_noteIf (s : State) (p : Bool) (rule : Rule) (column : Nat)
    (args : List String) : (s.noteIf p rule column args).below = s.below := by
  unfold noteIf; split <;> rfl

@[simp] theorem below_enter (s : State) (line : Line) (below : List Line) :
    (s.enter line below).below = below := by
  unfold enter; split <;> simp [checkBlanks]

@[simp] theorem length_rest_enter (s : State) (line : Line) (below : List Line) :
    (s.enter line below).rest.length = line.length := by
  have : line.text.toList.length = line.length := String.length_toList
  unfold enter; split <;> simp [untabbed, this]

theorem size_of_nextLine? {s t : State} (h : s.nextLine? = some t) : t.size < s.size := by
  unfold nextLine? at h
  split at h
  · simp at h
  · next line below hb =>
    obtain rfl := Option.some.inj h
    have : line.text.toList.length = line.length := String.length_toList
    simp only [size, below_enter, length_rest_enter, hb, List.flatMap_cons, List.length_append,
      List.length_cons, this]
    omega

theorem below_of_nextLine? {s t : State} (h : s.nextLine? = some t) :
    t.below.length < s.below.length := by
  unfold nextLine? at h
  split at h
  · simp at h
  · next line below hb =>
    obtain rfl := Option.some.inj h
    simp [hb]

end State

end ScriptLint
