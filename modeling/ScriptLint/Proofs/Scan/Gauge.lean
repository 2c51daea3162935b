import ScriptLint.Proofs.Scan.Placement

/-!
# What the length limit goes by

Whether the length limit concerns a line is decided when the line is left, by three flags of
the state.  One is set when the line is entered inside a template and taken back by the first
token behind it, one is set by a regular expression on the line, and one by a first token that
opens a JSON text.  The **gauge** of a state is these flags and the lines that the limit
concerns so far.

The flags can be told from the tokens, and so can the lines.  Entering a line changes what is
told because no token starts there yet, and adding a token because it starts there; each change
is one operation on gauges.  Every operation of a scan does that one or none.

## Main definitions

* `freed`, `sheltered`, `limited` — what tokens tell of a line
* `Gauge`, `State.gauge` — the flags, and the lines that the limit concerns
* `gaugeOf` — the gauge that tokens tell

## Main statements

* `gaugeOf_succ`, `gaugeOf_cons` — the gauge told when a line is entered and a token added
* `State.gauge_of_nextLine?`, `State.gauge_push` — the gauge of a state when it does so
-/

namespace ScriptLint

open Track

/-! ### What tokens tell of a line -/

/-- A token that opens a JSON text, if it is the first. -/
def Token.opensJson (t : Token) : Bool := t.isOperator "\x7b" || t.isOperator "["

/-- Only an operator opens a JSON text. -/
theorem Token.opensJson_of_kind_ne {t : Token} (h : t.kind ≠ .operator) : t.opensJson = false := by
  simp [opensJson, isOperator, h]

/-- **Freed**: a token outside of templates starts on line `n`.  The tokens are listed newest first,
and no template is open where an even number of backticks stands before. -/
def freed (n : Nat) : List Token → Bool
  | [] => false
  | t :: older =>
    (t.kind != .eof && t.start.line == n && older.countP (·.isOperator "\x60") % 2 == 0) ||
      freed n older

/-- **Sheltered**: line `n` is a first line that is not scanned, or starts inside a template and is
not freed. -/
def sheltered (source : Source) (tokens : List Token) (n : Nat) : Bool :=
  (source.hasInterpreterLine && n == 1) ||
    (backticksBefore tokens n % 2 == 1 && !freed n tokens)

/-- A regular expression starts on line `n`. -/
def regexOn (n : Nat) (tokens : List Token) : Bool :=
  tokens.any fun t => t.kind == .regex && t.start.line == n

/-- Line `n` belongs to a JSON text, which the first token opens. -/
def inJson (n : Nat) (tokens : List Token) : Bool :=
  tokens.getLast?.any fun t => t.opensJson && decide (t.start.line ≤ n)

/-- **Limited**: the length limit concerns line `n`.  It is not sheltered, no regular expression
starts on it, and it does not belong to a JSON text. -/
def limited (source : Source) (tokens : List Token) (n : Nat) : Bool :=
  !sheltered source tokens n && !regexOn n tokens && !inJson n tokens

/-- The lines before line `n` that are limited, newest first. -/
def linesLeft (source : Source) (tokens : List Token) (n : Nat) : List Nat :=
  ((List.range' 1 (n - 1)).filter (limited source tokens)).reverse

section

variable {source : Source} {t : Token} {tokens : List Token} {n : Nat}

theorem freed_cons_of_ne (h : t.start.line ≠ n) : freed n (t :: tokens) = freed n tokens := by
  simp [freed, h]

theorem freed_eq_false (h : ∀ t ∈ tokens, t.start.line ≠ n) : freed n tokens = false := by
  induction tokens with
  | nil => rfl
  | cons t older ih =>
    obtain ⟨ht, holder⟩ := List.forall_mem_cons.mp h
    rw [freed_cons_of_ne ht, ih holder]

/-- In a template tokens free no line. -/
theorem freed_cons_of_odd (h : tokens.countP (·.isOperator "\x60") % 2 = 1) :
    freed n (t :: tokens) = freed n tokens := by
  simp [freed, h]

theorem regexOn_cons_of_ne (h : t.start.line ≠ n) : regexOn n (t :: tokens) = regexOn n tokens := by
  simp [regexOn, h]

theorem regexOn_eq_false (h : ∀ t ∈ tokens, t.start.line ≠ n) : regexOn n tokens = false := by
  refine List.any_eq_false.mpr fun t ht => ?_
  simp [h t ht]

/-- A token is the first one if there was none. -/
theorem any_getLast?_cons (p : Token → Bool) :
    (t :: tokens).getLast?.any p = (tokens.getLast?.any p || (tokens.isEmpty && p t)) := by
  cases tokens with
  | nil => simp
  | cons u older => simp [List.getLast?_cons_cons]

/-- A token tells nothing of the lines above it. -/
theorem limited_cons_of_lt (h : n < t.start.line) :
    limited source (t :: tokens) n = limited source tokens n := by
  have hticks : backticksBefore (t :: tokens) n = backticksBefore tokens n :=
    backticksBefore_cons_of_le tokens fun _ => h.le
  have hjson : inJson n (t :: tokens) = inJson n tokens := by
    rw [inJson, any_getLast?_cons, inJson]
    simp [Nat.not_le.mpr h]
  rw [limited, limited, sheltered, sheltered, hticks, freed_cons_of_ne h.ne',
    regexOn_cons_of_ne h.ne', hjson]

theorem regexOn_cons_of_kind_ne (hkind : t.kind ≠ .regex) :
    regexOn n (t :: tokens) = regexOn n tokens := by
  simp [regexOn, hkind]

/-- A token that is neither an operator nor a regular expression and frees no line does not
shelter one either. -/
theorem sheltered_cons_of_freed (hkind : t.kind ≠ .operator)
    (hfreed : freed n (t :: tokens) = freed n tokens) :
    sheltered source (t :: tokens) n = sheltered source tokens n := by
  have hticks : backticksBefore (t :: tokens) n = backticksBefore tokens n :=
    backticksBefore_cons_of_le tokens fun htick => by simp [Token.isOperator, hkind] at htick
  rw [sheltered, sheltered, hticks, hfreed]

/-- Such a token tells nothing of a line. -/
theorem limited_cons_of_freed (hkind : t.kind ≠ .operator) (hregex : t.kind ≠ .regex)
    (hfreed : freed n (t :: tokens) = freed n tokens) :
    limited source (t :: tokens) n = limited source tokens n := by
  have hjson : inJson n (t :: tokens) = inJson n tokens := by
    rw [inJson, any_getLast?_cons, inJson]
    simp [Token.opensJson_of_kind_ne hkind]
  rw [limited, limited, sheltered_cons_of_freed hkind hfreed, regexOn_cons_of_kind_ne hregex, hjson]

/-- The end of the source tells nothing of any line. -/
theorem limited_cons_eof (hkind : t.kind = .eof) :
    limited source (t :: tokens) n = limited source tokens n :=
  limited_cons_of_freed (by simp [hkind]) (by simp [hkind]) (by simp [freed, hkind])

theorem linesLeft_congr {tokens' : List Token}
    (h : ∀ m, m < n → limited source tokens m = limited source tokens' m) :
    linesLeft source tokens n = linesLeft source tokens' n := by
  refine congrArg List.reverse (List.filter_congr fun m hm => h m ?_)
  rw [List.mem_range'_1] at hm
  omega

/-- The next line that is left is the newest, if it is limited. -/
theorem linesLeft_succ (hn : 1 ≤ n) : linesLeft source tokens (n + 1) =
    if limited source tokens n then n :: linesLeft source tokens n
    else linesLeft source tokens n := by
  obtain ⟨k, rfl⟩ := Nat.exists_eq_add_of_le' hn
  have hlast : List.range' 1 (k + 1) = List.range' 1 k ++ [k + 1] := by
    rw [List.range'_concat]
    simp [Nat.add_comm]
  unfold linesLeft
  rw [show k + 1 + 1 - 1 = k + 1 from rfl, hlast, List.filter_append, List.reverse_append]
  rw [show k + 1 - 1 = k from rfl, List.filter_cons, List.filter_nil]
  split <;> rfl

end

/-! ### Gauges -/

/-- What the length limit goes by. -/
structure Gauge where
  /-- The current line is not subject to the limit. -/
  exempt : Bool
  /-- A regular expression starts on the current line. -/
  regexSeen : Bool
  /-- The first token opens a JSON text. -/
  json : Bool
  /-- The lines left that are subject to the limit, newest first. -/
  left : List Nat

namespace Gauge

/-- Leaves a line. -/
def leave (g : Gauge) (line : Nat) : Gauge :=
  if line = 0 ∨ g.exempt ∨ g.regexSeen ∨ g.json then g else { g with left := line :: g.left }

/-- Enters a line, inside a template or not. -/
def enter (g : Gauge) (inTemplate : Bool) : Gauge :=
  { g with exempt := inTemplate, regexSeen := false }

/-- Begins to read a token, inside a template or not. -/
def rouse (g : Gauge) (inTemplate : Bool) : Gauge := { g with exempt := g.exempt && inTemplate }

/-- Adds a token behind others. -/
def push (g : Gauge) (before : List Token) (t : Token) : Gauge :=
  { g with json := g.json || (before.isEmpty && t.opensJson) }

/-- **Takes a token** on the current line, behind others. -/
def take (g : Gauge) (before : List Token) (t : Token) : Gauge :=
  { g.push before t with regexSeen := g.regexSeen || t.kind == .regex }

theorem take_of_kind_ne {t : Token} (h : t.kind ≠ .regex) (g : Gauge) (before : List Token) :
    g.take before t = g.push before t := by
  simp [take, push, h]

theorem push_of_kind_ne {t : Token} (h : t.kind ≠ .operator) (g : Gauge) (before : List Token) :
    g.push before t = g := by
  simp [push, Token.opensJson_of_kind_ne h]

/-- Only the first token opens a JSON text. -/
@[simp] theorem push_cons (g : Gauge) (p : Token) (before : List Token) (t : Token) :
    g.push (p :: before) t = g := by
  simp [push]

@[simp] theorem rouse_true (g : Gauge) : g.rouse true = g := by
  simp [rouse]

theorem take_of_regex {t : Token} (h : t.kind = .regex) (g : Gauge) (before : List Token) :
    g.take before t = { g with regexSeen := true } := by
  rw [take, push_of_kind_ne (by simp [h])]
  simp [h]

end Gauge

/-- **The gauge that tokens tell** on a line. -/
def gaugeOf (source : Source) (tokens : List Token) (line : Nat) : Gauge where
  exempt := sheltered source tokens line
  regexSeen := regexOn line tokens
  json := tokens.getLast?.any Token.opensJson
  left := linesLeft source tokens line

section

variable {source : Source} {t : Token} {tokens : List Token} {line : Nat}

/-- **Leaving a line** on which or above which the tokens start. -/
theorem linesLeft_leave (hstart : ∀ t ∈ tokens, t.start.line ≤ line) :
    ((gaugeOf source tokens line).leave line).left = linesLeft source tokens (line + 1) := by
  have hjson : inJson line tokens = tokens.getLast?.any Token.opensJson := by
    unfold inJson
    cases hlast : tokens.getLast? with
    | none => rfl
    | some t => simp [hstart t (List.mem_of_getLast? hlast)]
  rcases Nat.eq_zero_or_pos line with rfl | hpos
  · rfl
  · have hne : line ≠ 0 := Nat.ne_of_gt hpos
    rw [linesLeft_succ hpos, limited, hjson, Gauge.leave, gaugeOf]
    cases sheltered source tokens line <;> cases regexOn line tokens <;>
      cases tokens.getLast?.any Token.opensJson <;> simp [hne]

/-- **Entering a line** below the tokens. -/
theorem gaugeOf_succ (hstart : ∀ t ∈ tokens, t.start.line ≤ line)
    (hhead : source.hasInterpreterLine = true → 1 ≤ line) :
    gaugeOf source tokens (line + 1) = ((gaugeOf source tokens line).leave line).enter
      (decide (tokens.countP (·.isOperator "\x60") % 2 = 1)) := by
  have habove : ∀ t ∈ tokens, t.start.line < line + 1 := fun t ht => Nat.lt_succ_of_le (hstart t ht)
  have hnone : ∀ t ∈ tokens, t.start.line ≠ line + 1 := fun t ht => (habove t ht).ne
  have hsheltered : sheltered source tokens (line + 1) =
      decide (tokens.countP (·.isOperator "\x60") % 2 = 1) := by
    have hfirst : (source.hasInterpreterLine && line + 1 == 1) = false := by
      rw [Bool.and_eq_false_imp]
      intro hinterpreter
      have hone := hhead hinterpreter
      rw [beq_eq_false_iff_ne]
      omega
    rw [sheltered, hfirst, backticksBefore_eq_countP habove, freed_eq_false hnone]
    simp [beq_eq_decide]
  have hkept :
      ((gaugeOf source tokens line).leave line).json = (gaugeOf source tokens line).json := by
    unfold Gauge.leave
    split <;> rfl
  rw [Gauge.enter, hkept, linesLeft_leave hstart, ← hsheltered, gaugeOf, regexOn_eq_false hnone,
    gaugeOf]

/-- **Adding a token** that starts on the line. -/
theorem gaugeOf_cons (ht : t.start.line = line) (hkind : t.kind ≠ .eof)
    (hhead : tokens.countP (·.isOperator "\x60") % 2 = 0 → source.hasInterpreterLine = true →
      line ≠ 1) :
    gaugeOf source (t :: tokens) line = ((gaugeOf source tokens line).rouse
      (decide (tokens.countP (·.isOperator "\x60") % 2 = 1))).take tokens t := by
  have hticks : backticksBefore (t :: tokens) line = backticksBefore tokens line :=
    backticksBefore_cons_of_le tokens fun _ => ht.ge
  have hsheltered : sheltered source (t :: tokens) line = (sheltered source tokens line &&
      decide (tokens.countP (·.isOperator "\x60") % 2 = 1)) := by
    rcases Nat.mod_two_eq_zero_or_one (tokens.countP (·.isOperator "\x60")) with heven | hodd
    · -- Outside of templates the token frees its line.
      have hfirst : (source.hasInterpreterLine && line == 1) = false := by
        rw [Bool.and_eq_false_imp]
        intro hinterpreter
        exact beq_eq_false_iff_ne.mpr (hhead heven hinterpreter)
      have hfreed : freed line (t :: tokens) = true := by simp [freed, hkind, ht, heven]
      rw [sheltered, hfirst, hfreed, heven]
      simp
    · rw [sheltered, hticks, freed_cons_of_odd hodd, ← sheltered, hodd]
      simp
  have hregex : regexOn line (t :: tokens) = (regexOn line tokens || t.kind == .regex) := by
    rw [regexOn, List.any_cons, ht, ← regexOn, Bool.or_comm]
    simp
  have hleft : linesLeft source (t :: tokens) line = linesLeft source tokens line :=
    linesLeft_congr fun m hm => limited_cons_of_lt (ht ▸ hm)
  rw [gaugeOf, hsheltered, hregex, any_getLast?_cons, hleft]
  rfl

/-- Adding the text of a template, which may start on a line above. -/
theorem gaugeOf_cons_text (hkind : t.kind = .string)
    (hodd : tokens.countP (·.isOperator "\x60") % 2 = 1) :
    gaugeOf source (t :: tokens) line = gaugeOf source tokens line := by
  have hoperator : t.kind ≠ .operator := by simp [hkind]
  have hregex : t.kind ≠ .regex := by simp [hkind]
  have hjson :
      (t :: tokens).getLast?.any Token.opensJson = tokens.getLast?.any Token.opensJson := by
    rw [any_getLast?_cons]
    simp [Token.opensJson_of_kind_ne hoperator]
  have hleft : linesLeft source (t :: tokens) line = linesLeft source tokens line :=
    linesLeft_congr fun m _ => limited_cons_of_freed hoperator hregex (freed_cons_of_odd hodd)
  rw [gaugeOf, sheltered_cons_of_freed hoperator (freed_cons_of_odd hodd),
    regexOn_cons_of_kind_ne hregex, hjson, hleft, gaugeOf]

end

/-! ### Gauges of states -/

/-- The line that an event says was left. -/
def Event.lineLeft? : Event → Option Nat
  | lineLeft line => some line
  | found _ | todo _ _ | levelSet _ _ | flagSet _ _ | globalDeclared _ | propertyNamed _ => none

namespace State

/-- **The gauge of a state.** -/
def gauge (s : State) : Gauge :=
  ⟨s.exempt, s.regexSeen, s.json, s.events.filterMap Event.lineLeft?⟩

variable (s : State)

theorem gauge_emit {event : Event} (h : event.lineLeft? = none) :
    (s.emit event).gauge = s.gauge := by
  simp [gauge, emit, h]

@[simp] theorem gauge_note (rule : Rule) (column : Nat) (args : List String) :
    (s.note rule column args).gauge = s.gauge :=
  s.gauge_emit rfl

@[simp] theorem gauge_noteIf (p : Bool) (rule : Rule) (column : Nat) (args : List String) :
    (s.noteIf p rule column args).gauge = s.gauge := by
  unfold noteIf
  split
  · exact s.gauge_note _ _ _
  · rfl

@[simp] theorem gauge_noteAll (findings : List Finding) :
    (s.noteAll findings).gauge = s.gauge := by
  have hnone : (findings.map Event.found).filterMap Event.lineLeft? = [] := by
    simp [List.filterMap_map, Event.lineLeft?]
  simp [gauge, noteAll, hnone]

@[simp] theorem gauge_advance (n : Nat) : (s.advance n).gauge = s.gauge := rfl

@[simp] theorem gauge_leaveLine : s.leaveLine.gauge = s.gauge.leave s.line := by
  have hkeep : (s.line = 0 ∨ s.exempt ∨ s.regexSeen ∨ s.json) ↔
      (s.line = 0 ∨ s.gauge.exempt ∨ s.gauge.regexSeen ∨ s.gauge.json) := Iff.rfl
  unfold leaveLine Gauge.leave
  simp only [← hkeep]
  split <;> rfl

@[simp] theorem gauge_checkBlanks (text : List Char) :
    (s.checkBlanks text).gauge = s.gauge := by
  simp [checkBlanks]

@[simp] theorem gauge_enter (line : Line) (below : List Line) :
    (s.enter line below).gauge = s.gauge.enter s.inTemplate := by
  unfold enter
  extract_lets text t
  have ht : t.gauge = s.gauge.enter s.inTemplate := rfl
  split
  · exact ht
  · exact (t.gauge_checkBlanks text).trans ht

theorem gauge_of_nextLine? {s t : State} (h : s.nextLine? = some t) :
    t.gauge = (s.gauge.leave s.line).enter s.inTemplate := by
  have hmode : s.leaveLine.inTemplate = s.inTemplate :=
    congrArg Track.inTemplate (track_leaveLine s)
  unfold nextLine? at h
  split at h
  · cases h
  · obtain rfl := Option.some.inj h
    rw [gauge_enter, gauge_leaveLine, hmode]

@[simp] theorem gauge_checkNeighbours (t : Token) : (s.checkNeighbours t).gauge = s.gauge := by
  unfold checkNeighbours
  split
  · rfl
  · simp

@[simp] theorem gauge_push (t : Token) : (s.push t).gauge = s.gauge.push s.tokens t := by
  have hgauge := s.gauge_checkNeighbours t
  have htokens : (s.checkNeighbours t).tokens = s.tokens :=
    congrArg Track.tokens (track_checkNeighbours s t)
  simp only [gauge, Gauge.mk.injEq] at hgauge
  simp [push, gauge, Gauge.push, Token.opensJson, htokens, hgauge]

@[simp] theorem gauge_pushNext (n : Nat) (kind : TokenKind) (value : String) :
    (s.pushNext n kind value).gauge =
      s.gauge.push s.tokens ((s.advance n).token kind value s.position) :=
  (s.advance n).gauge_push _

@[simp] theorem gauge_noteNested (part : List Char) : (s.noteNested part).gauge = s.gauge := by
  unfold noteNested
  split <;> simp

@[simp] theorem gauge_noteNestedLast (part : List Char) :
    (s.noteNestedLast part).gauge = s.gauge := by
  unfold noteNestedLast
  split <;> simp

/-- Directives leave no line. -/
@[simp] theorem gauge_inspectComment (value : List Char) (start : Position) :
    (s.inspectComment value start).gauge = s.gauge := by
  have hitem (item : DirectiveItem) (directive : Directive) (line column : Nat) :
      (item.events directive line column).filterMap Event.lineLeft? = [] := by
    unfold DirectiveItem.events
    split
    · split <;> rfl
    · rfl
    · extract_lets on
      split <;> rfl
  have hdirective (directive : Directive) (body : List Char) (line column : Nat) :
      (directive.events body line column).filterMap Event.lineLeft? = [] := by
    unfold Directive.events
    refine List.filterMap_eq_nil_iff.mpr fun e he => ?_
    rcases List.mem_append.mp he with he | he
    · obtain ⟨item, -, he⟩ := List.mem_flatMap.mp he
      exact List.filterMap_eq_nil_iff.mp (hitem item directive line column) e he
    · split at he
      · cases he
      · obtain rfl := List.mem_singleton.mp he
        rfl
  unfold inspectComment
  extract_lets line column u
  have hu : u.gauge = s.gauge := by
    simp only [u]
    split
    · exact s.gauge_emit rfl
    · rfl
  split
  · exact hu
  · split
    · rw [← hu]
      simp [gauge, List.filterMap_append, hdirective]
    · exact (u.gauge_emit rfl).trans hu

end State

end ScriptLint
