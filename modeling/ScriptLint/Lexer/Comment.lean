import ScriptLint.Lexer.Moves
import ScriptLint.Scan.Comment
import ScriptLint.Scan.Template

/-!
# Comments and templates in a lexer

Comments are where a lexer asks and tells its reporter most: a task is reported unless sources
are under development at the moment, and a directive sets levels, flags, globals and properties
from there on.  Template literals are read here too, since they also go from line to line.

## Main definitions

* `Lexer.lineComment`, `Lexer.blockComment` — read a comment and add its token
* `Lexer.inspectComment` — searches a comment for a task and a directive
* `Lexer.applyDirective` — sets what a directive says
* `Lexer.templateText` — the text of a template up to what stops it

## Main statements

* `Lexer.applyDirective_eq` — a directive sets what its events set
* `State.inspectComment_lexer`, `State.blockComment_lexer`, `State.templateText_lexer` — comments
  and templates seen from a scan
-/

namespace ScriptLint

namespace Lexer

/-! ### Directives -/

/-- Applies one entry of a directive at a place.

A flag and a rule are on unless the entry says `false`. A declared global takes no value. -/
def applyItem (directive : Directive) (line column : Nat) (l : Lexer) (item : DirectiveItem) :
    Lexer :=
  match directive with
  | .globals =>
    let l :=
      if item.value.isSome then
        l.report { rule := .badOptionA, line, column, args := [item.render] }
      else l
    { l with reporter := l.reporter.declareGlobal item.key }
  | .property => { l with reporter := l.reporter.nameProperty item.key }
  | .options =>
    let on := item.value.getD true
    match OptionFlag.ofName? item.key, Rule.ofName? item.key with
    | some flag, _ => { l with reporter := l.reporter.setFlag flag on }
    | none, some rule =>
      { l with reporter := l.reporter.setLevel rule (if on then rule.enabledLevel else .off) }
    | none, none => l.report { rule := .badOptionA, line, column, args := [item.key] }

/-- Applies the entries of a directive at a place, in order, and reports what is left of its
body. -/
def applyDirective (l : Lexer) (directive : Directive) (body : List Char) (line column : Nat) :
    Lexer :=
  let (items, rest) := directiveItems body
  let l := items.foldl (applyItem directive line column) l
  if rest.isEmpty then l
  else l.report { rule := .badDirectiveA, line, column, args := [String.ofList rest] }

/-- Searches a comment for a task and a directive. A task is let pass while sources are under
development. A directive outside of the directive window is a finding and sets nothing. -/
def inspectComment (l : Lexer) (value : List Char) (start : Position) : Lexer :=
  let line := start.line
  let column := start.column + 1
  let l :=
    if namesTask value && !l.reporter.flag .devel then
      l.report { rule := .todoComment, line, column }
    else l
  match Directive.split? value with
  | none => l
  | some (directive, body) =>
    if l.state.directivesOpen then l.applyDirective directive body line column
    else l.report { rule := .misplacedDirectiveA, line, column, args := [directive.key] }

/-! ### Comments -/

/-- Reads a comment from its `//` to the end of the line. In an interpolation it is out of
place. -/
def lineComment (l : Lexer) : Lexer :=
  let value := l.rest.drop 2
  let m := l.skipLine
  let m := m.push (m.state.token .comment (String.ofList value) l.state.position)
  (m.noteIf m.state.inTemplate .unexpectedComment m.column).inspectComment value l.state.position

/-- Notes a comment opener on the part of a block comment that a line holds. -/
def noteNested (l : Lexer) (part : List Char) : Lexer :=
  match findPair '/' '*' part with
  | some i => l.note .nestedComment (l.column + i + 1)
  | none => l

/-- Notes a comment opener on the part of a block comment before its closing `*/`; a slash at
its end opens one with the star of the closing. -/
def noteNestedLast (l : Lexer) (part : List Char) : Lexer :=
  match findPair '/' '*' part with
  | some i => l.note .nestedComment (l.column + i + 1)
  | none => l.noteIf (part.getLast? == some '/') .nestedComment (l.column + part.length)

end Lexer

/-! ### Directives seen from a scan -/

namespace Lexer

variable (l : Lexer) (directive : Directive) (line column : Nat)

/-- An entry sets what its events set. -/
theorem applyItem_eq (item : DirectiveItem) :
    l.applyItem directive line column item =
      { l with reporter := l.reporter.recordAll (item.events directive line column) } := by
  unfold applyItem DirectiveItem.events
  cases directive with
  | globals => cases item.value <;> rfl
  | property => rfl
  | options =>
    cases OptionFlag.ofName? item.key with
    | some flag => rfl
    | none => cases Rule.ofName? item.key <;> rfl

theorem foldl_applyItem_eq (items : List DirectiveItem) :
    items.foldl (applyItem directive line column) l =
      { l with
        reporter := l.reporter.recordAll (items.flatMap (·.events directive line column)) } := by
  induction items generalizing l with
  | nil => rfl
  | cons item items ih =>
    rw [List.foldl_cons, ih, applyItem_eq, List.flatMap_cons, Reporter.recordAll_append]

/-- **A directive sets what its events set**, at once. -/
theorem applyDirective_eq (body : List Char) :
    l.applyDirective directive body line column =
      { l with reporter := l.reporter.recordAll (directive.events body line column) } := by
  unfold applyDirective Directive.events
  simp only [foldl_applyItem_eq, Reporter.recordAll_append]
  cases (directiveItems body).2 <;> rfl

end Lexer

/-! ### Comments seen from a scan -/

namespace State

variable (s : State) (r : Reporter)

/-- Events are reported at once. -/
theorem lexer_events (events : List Event) :
    ({ s with events := events.reverse ++ s.events } : State).lexer r =
      { s.lexer r with reporter := (s.lexer r).reporter.recordAll events } := by
  unfold lexer
  simp only [List.reverse_append, List.reverse_reverse, Reporter.recordAll_append]

/-- **Tasks and directives**: whether sources are under development decides what is reported. -/
@[simp] theorem inspectComment_lexer (value : List Char) (start : Position) :
    (s.lexer r).inspectComment value start = (s.inspectComment value start).lexer r := by
  have htask (line column : Nat) :
      (if namesTask value && !(s.lexer r).reporter.flag .devel then
        (s.lexer r).report { rule := .todoComment, line, column }
      else s.lexer r) =
        (if namesTask value then s.emit (.todo line column) else s).lexer r := by
    cases namesTask value with
    | false => rfl
    | true =>
      refine Eq.trans ?_ (lexer_emit s r (.todo line column)).symm
      rw [Reporter.record_todo]
      cases (s.lexer r).reporter.flag .devel <;> rfl
  unfold Lexer.inspectComment inspectComment
  extract_lets line column l t
  have hl : l = t.lexer r := htask line column
  have hopen : (t.lexer r).state.directivesOpen = t.directivesOpen := rfl
  rw [hl]
  cases Directive.split? value with
  | none => rfl
  | some found =>
    simp only [hopen, Lexer.applyDirective_eq, report_lexer, ← lexer_events]
    split <;> rfl

@[simp] theorem lineComment_lexer : (s.lexer r).lineComment = s.lineComment.lexer r := by
  unfold Lexer.lineComment lineComment
  extract_lets value l m value' t u
  have hm : m = u.lexer r := push_lexer t r _
  have htemplate : (u.lexer r).state.inTemplate = u.inTemplate := rfl
  rw [hm, htemplate, noteIf_lexer]
  exact inspectComment_lexer (u.noteIf u.inTemplate .unexpectedComment u.column) r value s.position

@[simp] theorem noteNested_lexer (part : List Char) :
    (s.lexer r).noteNested part = (s.noteNested part).lexer r := by
  unfold Lexer.noteNested noteNested
  cases findPair '/' '*' part with
  | none => rfl
  | some i => exact note_lexer s r _ _ _

@[simp] theorem noteNestedLast_lexer (part : List Char) :
    (s.lexer r).noteNestedLast part = (s.noteNestedLast part).lexer r := by
  unfold Lexer.noteNestedLast noteNestedLast
  cases findPair '/' '*' part with
  | none => exact noteIf_lexer s r _ _ _ _
  | some i => exact note_lexer s r _ _ _

end State

/-! ### From line to line -/

namespace Lexer

theorem below_noteNested (l : Lexer) (part : List Char) : (l.noteNested part).below = l.below := by
  unfold noteNested
  split <;> rfl

/-- Every line leaves fewer below. -/
theorem below_of_nextLine? {l m : Lexer} (h : l.nextLine? = some m) :
    m.below.length < l.below.length := by
  rw [← State.lexer_state l, State.nextLine?_lexer] at h
  obtain ⟨t, ht, rfl⟩ := Option.map_eq_some_iff.mp h
  exact State.below_of_nextLine? ht

/-- The rest of a block comment, with the parts on earlier lines newest first. The result is
its text and the lexer after it, or the lexer at the end of the source. -/
def closeComment (parts : List String) (l : Lexer) : Except Lexer (String × Lexer) :=
  match findPair '*' '/' l.rest with
  | some i =>
    let part := l.rest.take i
    let text := " ".intercalate (String.ofList part :: parts).reverse
    .ok (text, (l.noteNestedLast part).advance (i + 2))
  | none =>
    let l' := l.noteNested l.rest
    match _h : l'.nextLine? with
    | some m => closeComment (String.ofList l.rest :: parts) m
    | none => .error l'
termination_by l.below.length
decreasing_by
  have hb : l'.below = l.below := below_noteNested l l.rest
  simpa [hb] using below_of_nextLine? _h

/-- Reads a comment from its `/*` to the first `*/` after it. -/
def blockComment (l : Lexer) : Except Lexer Lexer :=
  let opened := l.advance 2
  let opened := opened.noteIf (opened.rest.head? == some '/') .unexpectedA opened.column ["/"]
  match opened.closeComment [] with
  | .error m => .error m
  | .ok (text, m) =>
    .ok ((m.push (m.state.token .comment text l.state.position)).inspectComment text.toList
      l.state.position)

/-- The text of a template up to what stops it, after the text on earlier lines, newest
first. Each line end in it counts as a newline. The result is the text, what stops it and
the lexer there, or the lexer at the end of the source. -/
def templateText (text : List Char) (l : Lexer) :
    Except Lexer (List Char × TemplateStop × Lexer) :=
  let read := templateChunk [] l.rest
  if read.2 = .lineEnd then
    match _h : l.nextLine? with
    | some m => templateText ('\n' :: (read.1 ++ text)) m
    | none => .error l
  else .ok (read.1 ++ text, read.2, l.advance read.1.length)
termination_by l.below.length
decreasing_by exact below_of_nextLine? _h

end Lexer

namespace State

variable (r : Reporter)

/-- The rest of a block comment, line by line. -/
theorem closeComment_lexer (parts : List String) (s : State) :
    Lexer.closeComment parts (s.lexer r) =
      match s.closeComment parts with
      | .error t => .error (t.lexer r)
      | .ok (text, t) => .ok (text, t.lexer r) := by
  fun_induction closeComment parts s with
  | case1 parts s i hi part =>
    unfold Lexer.closeComment
    simp only [rest_lexer, hi, noteNestedLast_lexer, advance_lexer]
    rfl
  | case2 parts s hi s' u hu ih =>
    have hnext : ((s.lexer r).noteNested s.rest).nextLine? = some (u.lexer r) := by
      rw [noteNested_lexer, nextLine?_lexer, show (s.noteNested s.rest).nextLine? = some u from hu]
      rfl
    unfold Lexer.closeComment
    simp only [rest_lexer, hi]
    split
    · next m hm =>
      obtain rfl := Option.some.inj (hnext.symm.trans hm)
      exact ih
    · next hm => cases hnext.symm.trans hm
  | case3 parts s hi s' hu =>
    have hnext : ((s.lexer r).noteNested s.rest).nextLine? = none := by
      rw [noteNested_lexer, nextLine?_lexer, show (s.noteNested s.rest).nextLine? = none from hu]
      rfl
    unfold Lexer.closeComment
    simp only [rest_lexer, hi]
    split
    · next m hm => cases hnext.symm.trans hm
    · rw [noteNested_lexer]

/-- **A block comment** is read the same. -/
theorem blockComment_lexer (s : State) :
    (s.lexer r).blockComment =
      match s.blockComment with
      | .error t => .error (t.lexer r)
      | .ok t => .ok (t.lexer r) := by
  unfold Lexer.blockComment blockComment
  extract_lets l l' t t'
  have hl' : l' = t'.lexer r := noteIf_lexer t r _ _ _ _
  rw [hl', closeComment_lexer]
  cases t'.closeComment [] with
  | error u => rfl
  | ok read =>
    obtain ⟨text, u⟩ := read
    show Except.ok (((u.lexer r).push (u.token .comment text s.position)).inspectComment
      text.toList s.position) = _
    rw [push_lexer, inspectComment_lexer]

/-- **The text of a template** is read the same. -/
theorem templateText_lexer (text : List Char) (s : State) :
    Lexer.templateText text (s.lexer r) =
      match s.templateText text with
      | .error t => .error (t.lexer r)
      | .ok (text, stop, t) => .ok (text, stop, t.lexer r) := by
  fun_induction templateText text s with
  | case1 text s read hread u hu ih =>
    have hnext : (s.lexer r).nextLine? = some (u.lexer r) := by
      rw [nextLine?_lexer, hu]
      rfl
    unfold Lexer.templateText
    refine (if_pos hread).trans ?_
    split
    · next m hm =>
      obtain rfl := Option.some.inj (hnext.symm.trans hm)
      exact ih
    · next hm => cases hnext.symm.trans hm
  | case2 text s read hread hu =>
    have hnext : (s.lexer r).nextLine? = none := by
      rw [nextLine?_lexer, hu]
      rfl
    unfold Lexer.templateText
    refine (if_pos hread).trans ?_
    split
    · next m hm => cases hnext.symm.trans hm
    · rfl
  | case3 text s read hread =>
    unfold Lexer.templateText
    exact if_neg hread

end State

end ScriptLint
