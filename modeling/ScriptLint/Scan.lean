import ScriptLint.Literal.Number
import ScriptLint.Literal.Pattern
import ScriptLint.Literal.Quoted
import ScriptLint.Scan.Comment
import ScriptLint.Scan.Template

/-!
# Scanning a source

The pass over a source that cuts it into tokens and makes the findings. A scan is a
sequence of steps, each of which reads a line, skips blanks, or adds the tokens of
one literal; it ends with the source or at a fault.

## Main definitions

* `slashRole` — whether a slash divides or opens a regular expression
* `State.step` — one step
* `State.run` — the steps to the end
* `Scan` — the tokens, the events and the fault, if one stopped the scan
* `scan` — scans a source

## Design notes

Every step leaves less of the source (`size_of_step`), which is why the scan ends.
Nothing here depends on a configuration.
-/

namespace ScriptLint

/-! ### Slashes -/

/-- What a slash that opens no comment stands for. -/
inductive SlashRole
  /-- It opens a regular expression. -/
  | regex
  /-- It opens a regular expression after a keyword that hardly wants one. -/
  | suspectRegex
  /-- It opens a regular expression that should stand in parentheses. -/
  | bareRegex
  /-- It divides. -/
  | division
deriving DecidableEq, Repr

/-- The keywords that hardly want a regular expression. -/
def suspectKeywords : List String :=
  ["case", "delete", "in", "instanceof", "new", "typeof", "void", "yield"]

/-- What a slash stands for after the last token that is no comment. -/
def slashRole : Option Token → SlashRole
  | none => .regex
  | some t =>
    if t.actsAs.any suspectKeywords.contains then .suspectRegex
    else if t.actsAs = some "return" then .regex
    else if t.kind ≠ .operator then .division
    else
      match t.value.toList.getLast? with
      | none => .division
      | some c =>
        if "!%&*+-/;<>^\x7b|\x7d~".toList.contains c then .bareRegex
        else if "(,:=?[".toList.contains c then .regex
        else .division

/-! ### Steps -/

/-- The outcome of a step. -/
inductive Step
  /-- The scan goes on. -/
  | next (s : State)
  /-- The source ended. -/
  | completed (s : State)
  /-- A fault stopped the scan. -/
  | failed (s : State) (fault : Finding)

namespace State

/-- Stops at a fault; the current line is finished before. -/
def fail (s : State) (rule : Rule) (line column : Nat) (args : List String := []) : Step :=
  .failed s.leaveLine { rule, line, column, args }

/-- Stops at the fault of a literal. -/
def failWith (s : State) (halt : Halt) : Step :=
  .failed (s.noteAll halt.findings).leaveLine halt.fault

/-- Ends the scan, unless a template is open. -/
def finish (s : State) : Step :=
  match s.mode.opening? with
  | some opening => s.fail .unclosedMega opening.line (opening.column + 1)
  | none =>
    let s := s.leaveLine
    .completed (s.push (s.token .eof "" s.position))

/-- The state after a token of `n` characters. -/
def pushNext (s : State) (n : Nat) (kind : TokenKind) (value : String) : State :=
  let t := s.advance n
  t.push (t.token kind value s.position)

/-- Reads an identifier or keyword of `n` characters. After a dot a reserved word is a
property name. -/
def identifier (s : State) (n : Nat) : State :=
  let value := s.slice n
  let keyword := reserved? value
  let precededByDot := s.afterDot
  let kind := if keyword.isSome && !precededByDot then .keyword else .identifier
  let t := s.advance n
  t.push { t.token kind value s.position with keyword, precededByDot }

/-- Reads a number whose lead has `lead` characters. -/
def number (s : State) (lead : Nat) : Step :=
  match ({ rest := s.rest } : Strand).number (s.surroundings 0) lead with
  | .error halt => s.failWith halt
  | .ok read => .next ((s.noteAll read.findings).pushNext read.taken.length .number read.text)

/-- Reads a string from its opening quote on. -/
def string (s : State) (quote : Char) : Step :=
  match ({ rest := s.rest.tail } : Strand).quoted (s.surroundings 1) quote with
  | .error halt => s.failWith halt
  | .ok read =>
    let t := (s.noteAll read.findings).advance (read.taken.length + 2)
    .next (t.push { t.token .string read.text s.position with quote := some quote })

/-- Reads a regular expression from its opening slash on. -/
def regex (s : State) (role : SlashRole) : Step :=
  let s := { s with regexSeen := true }
  match ({ rest := s.rest.tail } : Strand).regex (s.surroundings 1) with
  | .error halt => s.failWith halt
  | .ok (read, missesFlag) =>
    let value := "/" ++ read.text
    let t := (s.noteAll read.findings).pushNext (read.taken.length + 1) .regex value
    let t := t.noteIf missesFlag .missingM t.column
    match role with
    | .suspectRegex =>
      .next (t.emit (.found { rule := .unexpectedA, line := t.line, column := t.column,
                              args := [value], unset := .error }))
    | .bareRegex => .next (t.note .wrapRegexp t.column)
    | _ => .next t

/-- Reads a slash that divides, with an equals sign after it. -/
def division (s : State) : State :=
  if s.rest.tail.head? = some '=' then
    (s.note .unexpectedA (s.column + 2) ["/="]).pushNext 2 .operator "/="
  else s.pushNext 1 .operator "/"

/-- Reads a slash that opens no comment. -/
def slash (s : State) : Step :=
  match slashRole s.preceding with
  | .division => .next s.division
  | role => s.regex role

/-- Reads the backtick that opens a template. Templates do not nest. -/
def backtick (s : State) : Step :=
  if s.inTemplate then s.fail .expectedAB s.line (s.column + 1) ["\x7d", "\x60"]
  else .next { s.pushNext 1 .operator "\x60" with mode := .template s.position }

/-- Reads any other operator of `n` characters. In an interpolation a closing brace ends it,
and there are no opening braces. -/
def punctuation (s : State) (n : Nat) : Step :=
  let value := s.slice n
  let t := s.pushNext n .operator value
  match s.mode with
  | .interpolation opening =>
    if value = "\x7d" then .next { t with mode := .template opening }
    else if value = "\x7b" then t.fail .expectedAB t.line t.column ["\x7d", "\x7b"]
    else .next t
  | _ => .next t

/-- Reads what an operator of `n` characters opens, or the operator. -/
def operator (s : State) (n : Nat) : Step :=
  match s.rest with
  | '"' :: _ => s.string '"'
  | '\'' :: _ => s.string '\''
  | '\x60' :: _ => s.backtick
  | '/' :: '/' :: _ => .next s.lineComment
  | '/' :: '*' :: _ =>
    match s.blockComment with
    | .error t => t.fail .unclosedComment s.line (s.column + 1)
    | .ok t => .next t
  | '/' :: _ => s.slash
  | _ => s.punctuation n

/-- Reads the token that starts with the next character. Outside of templates it makes the
length limit concern its line. -/
def readToken (s : State) (c : Char) : Step :=
  let s := { s with exempt := s.exempt && s.inTemplate }
  if identifierLength s.rest ≠ 0 then .next (s.identifier (identifierLength s.rest))
  else if numberLength s.rest ≠ 0 then s.number (numberLength s.rest)
  else if operatorLength s.rest ≠ 0 then s.operator (operatorLength s.rest)
  else s.fail .unexpectedCharA s.line (s.column + 1) [c.toString]

/-- Reads the text of a template up to its next interpolation or its end, and what opens the
one or makes the other. -/
def templatePart (s : State) (opening : Position) : Step :=
  match s.templateText [] with
  | .error t => t.fail .unclosedMega opening.line (opening.column + 1)
  | .ok (text, stop, t) =>
    let part := t.token .string (String.ofList text.reverse) s.position
    let t := t.push { part with quote := some '\x60' }
    match stop with
    | .interpolation =>
      .next { t.pushNext 2 .operator "$\x7b" with mode := .interpolation opening }
    | _ => .next { t.pushNext 1 .operator "\x60" with mode := .code }

/-- **One step** of a scan. -/
def step (s : State) : Step :=
  match s.mode with
  | .template opening => s.templatePart opening
  | _ =>
    match s.rest with
    | [] =>
      match s.nextLine? with
      | some t => .next t
      | none => s.finish
    | c :: _ =>
      if isBlank c then .next (s.advance (s.rest.takeWhile isBlank).length) else s.readToken c

/-! ### Every step leaves less -/

theorem size_pushNext_lt (s : State) {n : Nat} (hn : 0 < n) (hs : s.rest ≠ [])
    (kind : TokenKind) (value : String) : (s.pushNext n kind value).size < s.size := by
  simpa [pushNext] using size_advance_lt s hn hs

private theorem size_of_number {s t : State} {lead : Nat} (hlead : 0 < lead)
    (hs : s.rest ≠ []) (h : s.number lead = .next t) : t.size < s.size := by
  unfold number at h
  split at h
  · simp [failWith] at h
  · next read hread =>
    obtain rfl := Step.next.inj h
    have := Strand.taken_ne_nil_of_number (s.surroundings 0) hlead hs rfl hread
    exact size_pushNext_lt (s.noteAll read.findings) (List.length_pos_iff.mpr this) hs _ _

private theorem size_of_string {s t : State} {quote : Char} (hs : s.rest ≠ [])
    (h : s.string quote = .next t) : t.size < s.size := by
  unfold string at h
  split at h
  · simp [failWith] at h
  · next read hread =>
    obtain rfl := Step.next.inj h
    simpa using size_advance_lt (s.noteAll read.findings) (Nat.succ_pos _) hs

private theorem size_of_regex {s t : State} {role : SlashRole} (hs : s.rest ≠ [])
    (h : s.regex role = .next t) : t.size < s.size := by
  unfold regex at h
  extract_lets u at h
  split at h
  · simp [failWith] at h
  · next read missesFlag hread =>
    have : _ < s.size := size_pushNext_lt (u.noteAll read.findings)
      (Nat.succ_pos read.taken.length) hs .regex ("/" ++ read.text)
    split at h <;> obtain rfl := Step.next.inj h <;> simpa using this

private theorem size_division_lt (s : State) (hs : s.rest ≠ []) : s.division.size < s.size := by
  unfold division
  split
  · exact size_pushNext_lt (s.note _ _ _) (by decide) hs _ _
  · exact size_pushNext_lt s (by decide) hs _ _

private theorem size_of_punctuation {s t : State} {n : Nat} (hn : 0 < n) (hs : s.rest ≠ [])
    (h : s.punctuation n = .next t) : t.size < s.size := by
  have := size_pushNext_lt s hn hs .operator (s.slice n)
  unfold punctuation at h
  extract_lets value u at h
  split at h
  · split at h
    · obtain rfl := Step.next.inj h; exact this
    · split at h
      · simp [fail] at h
      · obtain rfl := Step.next.inj h; exact this
  · obtain rfl := Step.next.inj h; exact this

private theorem size_of_operator {s t : State} {n : Nat} (hn : 0 < n) (hs : s.rest ≠ [])
    (h : s.operator n = .next t) : t.size < s.size := by
  unfold operator at h
  split at h
  · exact size_of_string hs h
  · exact size_of_string hs h
  · unfold backtick at h
    split at h
    · simp [fail] at h
    · obtain rfl := Step.next.inj h
      exact size_pushNext_lt s (by decide) hs _ _
  · obtain rfl := Step.next.inj h
    exact size_lineComment_lt s hs
  · split at h
    · simp [fail] at h
    · next u hu =>
      obtain rfl := Step.next.inj h
      exact size_of_blockComment hs hu
  · unfold slash at h
    split at h
    · obtain rfl := Step.next.inj h
      exact size_division_lt s hs
    · exact size_of_regex hs h
  · exact size_of_punctuation hn hs h

private theorem size_of_readToken {s t : State} {c : Char} (hs : s.rest ≠ [])
    (h : s.readToken c = .next t) : t.size < s.size := by
  unfold readToken at h
  extract_lets u at h
  have hu : u.rest ≠ [] := hs
  have hsize : u.size = s.size := rfl
  rw [← hsize]
  split at h
  · next hn =>
    obtain rfl := Step.next.inj h
    simpa [identifier] using size_advance_lt u (Nat.pos_of_ne_zero hn) hu
  · split at h
    · next hn => exact size_of_number (Nat.pos_of_ne_zero hn) hu h
    · split at h
      · next hn => exact size_of_operator (Nat.pos_of_ne_zero hn) hu h
      · simp [fail] at h

private theorem size_of_templatePart {s t : State} {opening : Position}
    (h : s.templatePart opening = .next t) : t.size < s.size := by
  unfold templatePart at h
  split at h
  · simp [fail] at h
  · next text stop u hu =>
    have hle := size_of_templateText hu
    extract_lets part v at h
    have hv : v.size = u.size := by simp [v]
    have hrest : v.rest ≠ [] := by
      have : v.rest = u.rest := by simp [v]
      exact this ▸ hle.2
    split at h
    · obtain rfl := Step.next.inj h
      have := size_pushNext_lt v (n := 2) (by decide) hrest .operator "$\x7b"
      exact Nat.lt_of_lt_of_le this (hv ▸ hle.1)
    · obtain rfl := Step.next.inj h
      have := size_pushNext_lt v (n := 1) (by decide) hrest .operator "\x60"
      exact Nat.lt_of_lt_of_le this (hv ▸ hle.1)

/-- **Progress**: a step that is not the last leaves less of the source. -/
theorem size_of_step {s t : State} (h : s.step = .next t) : t.size < s.size := by
  unfold step at h
  split at h
  · exact size_of_templatePart h
  · split at h
    · split at h
      · next u hu =>
        obtain rfl := Step.next.inj h
        exact size_of_nextLine? hu
      · unfold finish at h
        split at h <;> simp [fail] at h
    · next c rest hs =>
      have hne : s.rest ≠ [] := by simp [hs]
      split at h
      · next hc =>
        obtain rfl := Step.next.inj h
        exact size_advance_lt s (by simp [hs, hc]) hne
      · exact size_of_readToken hne h

/-- The steps of a scan to its end: the state there, and the fault if one stopped it. -/
def run (s : State) : State × Option Finding :=
  match _h : s.step with
  | .next t => t.run
  | .completed t => (t, none)
  | .failed t fault => (t, some fault)
termination_by s.size
decreasing_by exact size_of_step _h

/-- The state before a source. A first line that starts with `#!` is read but not scanned. -/
def initial (lines : List Line) : State :=
  let s : State := { below := lines }
  match lines with
  | [] => s
  | line :: below =>
    if "#!".toList.isPrefixOf line.text.toList then
      { (s.enter line below).skipLine with exempt := true }
    else s

end State

/-! ### Scans -/

/-- What scanning a source gives. -/
structure Scan where
  /-- The tokens, in order. -/
  tokens : List Token
  /-- The events, in order. -/
  events : List Event
  /-- What stopped the scan before the end of the source. -/
  fault : Option Finding
deriving Repr

/-- Scans a source. The issues of its region markers come first. -/
def scan (source : Source) : Scan :=
  let issues := source.issues.map fun issue =>
    Event.found { rule := issue.rule, line := issue.line, column := 1 }
  let (s, fault) := (State.initial source.lines.toList).run
  { tokens := s.tokens.reverse, events := issues ++ s.events.reverse, fault }

end ScriptLint
