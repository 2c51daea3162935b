import ScriptLint.Scan

/-!
# The track of a scan

A scan state carries two kinds of data: what its steps go by, and what only the
reports read.  The **track** is the first kind — the place reached, the rest of the
source, the mode and the tokens.  Every operation of a scan is, on the track, one
of four: it leaves the track alone, goes on inside the line, enters the next line,
or adds a token.  The lemmas of this module say which, so that what follows argues
about tracks and never opens a report again.

## Main definitions

* `Track`, `State.track` — the track of a state
* `Mode.after` — the mode after a token, as a function of the token
* `Track.advance`, `Track.enter`, `Track.add` — the operations
* `Track.Crosses` — reading on over whole lines
-/

namespace ScriptLint

/-! ### Modes -/

/-- **The mode after a token.**  A backtick opens or closes a template, `${` opens an
interpolation and `}` ends it; every other token leaves the mode alone.  It is the
automaton that the scan runs on its own tokens. -/
def Mode.after (mode : Mode) (t : Token) : Mode :=
  match mode with
  | .code => if t.isOperator "\x60" then .template t.start else .code
  | .template opening =>
    if t.isOperator "\x60" then .code
    else if t.isOperator "$\x7b" then .interpolation opening
    else .template opening
  | .interpolation opening =>
    if t.isOperator "\x7d" then .template opening else .interpolation opening

/-- Only operators change the mode. -/
theorem Mode.after_of_kind_ne {t : Token} (h : t.kind ≠ .operator) (mode : Mode) :
    mode.after t = mode := by
  have hop : ∀ value, t.isOperator value = false := by
    intro value
    simp [Token.isOperator, h]
  cases mode <;> simp [Mode.after, hop]

/-- The template open after a token was open before, unless the token opened it in code. -/
theorem Mode.opening_after {mode : Mode} {t : Token} {opening : Position}
    (h : (mode.after t).opening? = some opening) :
    mode.opening? = some opening ∨ mode = .code ∧ opening = t.start := by
  cases mode with
  | code =>
    simp only [after] at h
    split at h
    · exact .inr ⟨rfl, (Option.some.inj h).symm⟩
    · cases h
  | template _ =>
    simp only [after] at h
    split at h
    · cases h
    · split at h
      · exact .inl h
      · exact .inl h
  | interpolation _ =>
    simp only [after] at h
    split at h
    · exact .inl h
    · exact .inl h

/-! ### Tracks -/

/-- What the steps of a scan go by, and the tokens they leave. -/
structure Track where
  /-- Number of the current line, 0 before the first. -/
  line : Nat
  /-- Number of characters of the line read. -/
  column : Nat
  /-- The rest of the line. -/
  rest : List Char
  /-- The lines below. -/
  below : List Line
  /-- The current template, if any. -/
  mode : Mode
  /-- The tokens, newest first. -/
  tokens : List Token

/-- The track of a state: all but the events and the flags of the length limit and of JSON. -/
def State.track (s : State) : Track :=
  ⟨s.line, s.column, s.rest, s.below, s.mode, s.tokens⟩

namespace Track

/-- The place reached. -/
def position (s : Track) : Position := ⟨s.line, s.column⟩

/-- A template is open. -/
def inTemplate (s : Track) : Bool := s.mode.opening?.isSome

/-- The number of the next token. -/
def nextNr (s : Track) : Nat :=
  match s.tokens with
  | [] => 0
  | t :: _ => t.nr + 1

/-- Goes on by `n` characters. -/
def advance (s : Track) (n : Nat) : Track :=
  { s with column := s.column + n, rest := s.rest.drop n }

/-- Enters a line: verbatim inside a template, with spaces for tabs outside. -/
def enter (s : Track) (line : Line) (below : List Line) : Track :=
  { s with
    line := s.line + 1
    column := 0
    rest := if s.inTemplate then line.text.toList else State.untabbed line.text.toList
    below := below }

/-- Before the first line. -/
def start (lines : List Line) : Track := ⟨0, 0, [], lines, .code, []⟩

/-- Adds a token, which decides the mode. -/
def add (s : Track) (t : Token) : Track :=
  { s with tokens := t :: s.tokens, mode := s.mode.after t }

/-- **Crossing lines**: the rest of a line is given up for the start of the next one, any
number of times. -/
inductive Crosses : Track → Track → Prop
  /-- No line is crossed. -/
  | here (s : Track) : Crosses s s
  /-- The next line is entered, and more may follow. -/
  | next {s t : Track} {line : Line} {below : List Line} (hbelow : s.below = line :: below)
      (hcross : Crosses (s.enter line below) t) : Crosses s t

/-- Crossing lines adds no token. -/
theorem crosses_tokens {s t : Track} (h : Crosses s t) : t.tokens = s.tokens := by
  induction h with
  | here => rfl
  | next _ _ ih => exact ih

/-- Crossing lines leaves the mode alone. -/
theorem crosses_mode {s t : Track} (h : Crosses s t) : t.mode = s.mode := by
  induction h with
  | here => rfl
  | next _ _ ih => exact ih

end Track

/-! ### Reports leave no track -/

namespace State

@[simp] theorem track_position (s : State) : s.track.position = s.position := rfl

@[simp] theorem track_emit (s : State) (event : Event) : (s.emit event).track = s.track := rfl

@[simp] theorem track_note (s : State) (rule : Rule) (column : Nat) (args : List String) :
    (s.note rule column args).track = s.track := rfl

@[simp] theorem track_noteIf (s : State) (p : Bool) (rule : Rule) (column : Nat)
    (args : List String) : (s.noteIf p rule column args).track = s.track := by
  unfold noteIf
  split <;> rfl

@[simp] theorem track_noteAll (s : State) (findings : List Finding) :
    (s.noteAll findings).track = s.track := rfl

@[simp] theorem track_leaveLine (s : State) : s.leaveLine.track = s.track := by
  unfold leaveLine
  split <;> rfl

@[simp] theorem track_checkBlanks (s : State) (text : List Char) :
    (s.checkBlanks text).track = s.track := by
  simp [checkBlanks]

@[simp] theorem track_checkNeighbours (s : State) (t : Token) :
    (s.checkNeighbours t).track = s.track := by
  unfold checkNeighbours
  split <;> simp

@[simp] theorem track_inspectComment (s : State) (value : List Char) (start : Position) :
    (s.inspectComment value start).track = s.track := by
  unfold inspectComment
  extract_lets line column t
  have ht : t.track = s.track := by
    simp only [t]
    split <;> rfl
  split
  · exact ht
  · split
    · exact ht
    · exact ht

@[simp] theorem track_noteNested (s : State) (part : List Char) :
    (s.noteNested part).track = s.track := by
  unfold noteNested
  split <;> simp

@[simp] theorem track_noteNestedLast (s : State) (part : List Char) :
    (s.noteNestedLast part).track = s.track := by
  unfold noteNestedLast
  split <;> simp

/-! ### Moves leave theirs -/

@[simp] theorem track_advance (s : State) (n : Nat) :
    (s.advance n).track = s.track.advance n := rfl

theorem track_skipLine (s : State) : s.skipLine.track = s.track.advance s.rest.length := by
  simp [skipLine, track, Track.advance]

@[simp] theorem track_enter (s : State) (line : Line) (below : List Line) :
    (s.enter line below).track = s.track.enter line below := by
  have hin : s.track.inTemplate = s.inTemplate := rfl
  have hrest (u : State) (rest : List Char) :
      State.track { u with rest := rest } = { u.track with rest := rest } := rfl
  unfold enter Track.enter
  rw [hin]
  split
  · rfl
  · rw [hrest, track_checkBlanks]
    rfl

theorem track_push (s : State) (t : Token) :
    (s.push t).track = { s.track with tokens := t :: s.tokens } := by
  have h := track_checkNeighbours s t
  simp only [track, Track.mk.injEq] at h
  simp [push, track, h]

/-- A token that leaves the mode alone is added. -/
theorem track_push_of_after {s : State} {t : Token} (h : s.mode.after t = s.mode) :
    (s.push t).track = s.track.add t := by
  rw [track_push]
  simp [Track.add, track, h]

/-- A token that changes the mode is added together with the change. -/
theorem track_push_with_mode {s : State} {t : Token} {mode : Mode}
    (h : s.mode.after t = mode) :
    State.track { s.push t with mode := mode } = s.track.add t := by
  have hpush := track_push s t
  simp only [track, Track.mk.injEq] at hpush
  simp [Track.add, track, h, hpush]

theorem track_of_nextLine? {s t : State} (h : s.nextLine? = some t) :
    ∃ line below, s.below = line :: below ∧ t.track = s.track.enter line below := by
  unfold nextLine? at h
  split at h
  · simp at h
  · next line below hbelow =>
    obtain rfl := Option.some.inj h
    exact ⟨line, below, hbelow, by simp⟩

/-- What crosses lines from the next line crosses lines from this one. -/
theorem crosses_of_nextLine? {s t : State} {u : Track} (h : s.nextLine? = some t)
    (hcross : Track.Crosses t.track u) : Track.Crosses s.track u := by
  obtain ⟨line, below, hbelow, henter⟩ := track_of_nextLine? h
  rw [henter] at hcross
  exact .next hbelow hcross

theorem below_eq_nil_of_nextLine? {s : State} (h : s.nextLine? = none) : s.below = [] := by
  unfold nextLine? at h
  split at h
  · assumption
  · simp at h

/-- A scan begins before the first line, or at the end of a first line that starts with
`#!`. -/
theorem track_initial (lines : List Line) :
    (initial lines).track = .start lines ∨
      ∃ line below, lines = line :: below ∧ "#!".toList.isPrefixOf line.text.toList = true ∧
        (initial lines).track =
          ((Track.start lines).enter line below).advance
            ((Track.start lines).enter line below).rest.length := by
  unfold initial
  extract_lets s
  split
  · exact .inl rfl
  · next line below =>
    split
    · next hmark =>
      refine .inr ⟨line, below, rfl, hmark, ?_⟩
      have henter : (s.enter line below).track = (Track.start (line :: below)).enter line below :=
        track_enter s line below
      have hskip := track_skipLine (s.enter line below)
      rw [show (s.enter line below).rest = (s.enter line below).track.rest from rfl,
        henter] at hskip
      exact hskip
    · exact .inl rfl

/-- A scan begins without tokens. -/
theorem tokens_initial (lines : List Line) : (initial lines).track.tokens = [] := by
  rcases track_initial lines with h | ⟨line, below, -, -, h⟩
  · rw [h]
    rfl
  · rw [h]
    rfl

end State

end ScriptLint
