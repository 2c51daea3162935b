import ScriptLint.Comment
import ScriptLint.Scan.State

/-!
# Comments in a scan

Line comments end with their line. Block comments may span lines. Both are
searched for tasks and directives.

## Main definitions

* `State.lineComment`, `State.blockComment` — read a comment and add its token
* `Directive.events` — what a directive changes, and its mistakes
-/

namespace ScriptLint

/-- Index of the first place where `a` is followed by `b`. -/
def findPair (a b : Char) (text : List Char) : Option Nat :=
  go 0 text
where
  /-- The index, counted from `i`. -/
  go (i : Nat) : List Char → Option Nat
    | c :: d :: rest => if c = a ∧ d = b then some i else go (i + 1) (d :: rest)
    | _ => none

/-! ### Directives -/

/-- What one entry of a directive at a place changes, and what is wrong with it.

A flag and a rule are on unless the entry says `false`. A declared global takes no
value. -/
def DirectiveItem.events (item : DirectiveItem) (directive : Directive) (line column : Nat) :
    List Event :=
  match directive with
  | .globals =>
    (if item.value.isSome then [.found { rule := .badOptionA, line, column, args := [item.render] }]
      else []) ++ [.globalDeclared item.key]
  | .property => [.propertyNamed item.key]
  | .options =>
    let on := item.value.getD true
    match OptionFlag.ofName? item.key, Rule.ofName? item.key with
    | some flag, _ => [.flagSet flag on]
    | none, some rule => [.levelSet rule (if on then rule.enabledLevel else .off)]
    | none, none => [.found { rule := .badOptionA, line, column, args := [item.key] }]

/-- What a directive at a place changes, in the order of its entries, and what is wrong with
it. -/
def Directive.events (directive : Directive) (body : List Char) (line column : Nat) :
    List Event :=
  let (items, rest) := directiveItems body
  items.flatMap (·.events directive line column) ++
    if rest.isEmpty then []
    else [.found { rule := .badDirectiveA, line, column, args := [String.ofList rest] }]

namespace State

/-- Searches a comment for a task and a directive. A directive outside of the directive window
is a finding and changes nothing. -/
def inspectComment (s : State) (value : List Char) (start : Position) : State :=
  let line := start.line
  let column := start.column + 1
  let s := if namesTask value then s.emit (.todo line column) else s
  match Directive.split? value with
  | none => s
  | some (directive, body) =>
    if s.directivesOpen then
      { s with events := (directive.events body line column).reverse ++ s.events }
    else
      s.emit (.found { rule := .misplacedDirectiveA, line, column, args := [directive.key] })

/-- Reads a comment from its `//` to the end of the line. In an interpolation it is out of
place. -/
def lineComment (s : State) : State :=
  let value := s.rest.drop 2
  let t := s.skipLine
  let t := t.push (t.token .comment (String.ofList value) s.position)
  (t.noteIf t.inTemplate .unexpectedComment t.column).inspectComment value s.position

/-- Notes a comment opener on the part of a block comment that a line holds. -/
def noteNested (s : State) (part : List Char) : State :=
  match findPair '/' '*' part with
  | some i => s.note .nestedComment (s.column + i + 1)
  | none => s

/-- Notes a comment opener on the part of a block comment before its closing `*/`; a slash at
its end opens one with the star of the closing. -/
def noteNestedLast (s : State) (part : List Char) : State :=
  match findPair '/' '*' part with
  | some i => s.note .nestedComment (s.column + i + 1)
  | none => s.noteIf (part.getLast? == some '/') .nestedComment (s.column + part.length)

/-- The rest of a block comment, with the parts on earlier lines newest first. The result is
its text and the state after it, or the state at the end of the source. -/
def closeComment (parts : List String) (s : State) : Except State (String × State) :=
  match findPair '*' '/' s.rest with
  | some i =>
    let part := s.rest.take i
    let text := " ".intercalate (String.ofList part :: parts).reverse
    .ok (text, (s.noteNestedLast part).advance (i + 2))
  | none =>
    let s' := s.noteNested s.rest
    match _h : s'.nextLine? with
    | some t => closeComment (String.ofList s.rest :: parts) t
    | none => .error s'
termination_by s.below.length
decreasing_by
  have hb : s'.below = s.below := by simp only [s', noteNested]; split <;> rfl
  simpa [hb] using below_of_nextLine? _h

/-- Reads a comment from its `/*` to the first `*/` after it. -/
def blockComment (s : State) : Except State State :=
  let opened := s.advance 2
  let opened := opened.noteIf (opened.rest.head? == some '/') .unexpectedA opened.column ["/"]
  match opened.closeComment [] with
  | .error t => .error t
  | .ok (text, t) =>
    .ok ((t.push (t.token .comment text s.position)).inspectComment text.toList s.position)

/-! ### Comments leave less of the source -/

@[simp] theorem size_inspectComment (s : State) (value : List Char) (start : Position) :
    (s.inspectComment value start).size = s.size := by
  unfold inspectComment
  extract_lets line column t
  have : t.size = s.size := by simp only [t]; split <;> rfl
  split
  · exact this
  · split <;> exact this

theorem size_lineComment_lt (s : State) (hs : s.rest ≠ []) : s.lineComment.size < s.size := by
  simpa [lineComment] using size_skipLine_lt s hs

theorem size_of_closeComment {parts : List String} {s t : State} {text : String}
    (h : s.closeComment parts = .ok (text, t)) : t.size ≤ s.size := by
  fun_induction closeComment parts s with
  | case1 parts s i hi part =>
    obtain ⟨-, rfl⟩ := Prod.mk.inj (Except.ok.inj h)
    have : (s.noteNestedLast part).size = s.size := by
      unfold noteNestedLast; split <;> simp
    exact this ▸ size_advance_le _ _
  | case2 parts s hi s' u hu ih =>
    have hs' : s'.size = s.size := by simp only [s', noteNested]; split <;> simp
    have := size_of_nextLine? hu
    have := ih h
    omega
  | case3 => simp at h

theorem size_of_blockComment {s t : State} (hs : s.rest ≠ [])
    (h : s.blockComment = .ok t) : t.size < s.size := by
  have hadv := size_advance_lt s (n := 2) (by decide) hs
  unfold blockComment at h
  extract_lets opened opened' at h
  split at h
  · simp at h
  · next text u hu =>
    obtain rfl := Except.ok.inj h
    have := size_of_closeComment hu
    simp only [opened', opened, size_noteIf] at this
    simp only [size_inspectComment, size_push]
    omega

end State

end ScriptLint
