import ScriptLint.Scan

/-!
# The actions of a scan

What one step of a scan does, whatever its outcome, said once.  Inside the text of a
template a step reads on to the next delimiter; outside it enters a line, ends the scan,
skips blanks or reads a token, and which token it reads hangs on the characters ahead and,
for a slash, on the last token that is no comment.

The legs of a scan say what a step leaves of its source.  The actions say which operation
took it, so that one can go on to what the operation records and why it was chosen.

## Main definitions

* `State.roused` — the state in which a token is read
* `State.Cut` — the readings of a token, each with what lies ahead
* `State.Action` — the actions of a step

## Main statements

* `State.action_of_step` — every step is an action
* `State.Cut.ne_completed` — no token completes a scan
* `State.step_of_operator` — what an operator makes a step do
-/

namespace ScriptLint

namespace State

/-- The state in which a token is read: outside of templates the length limit concerns its
line. -/
def roused (s : State) : State := { s with exempt := s.exempt && s.inTemplate }

/-- **Cut**: the reading of a token that starts with the next character. -/
inductive Cut (s : State) : Step → Prop
  /-- An identifier or a keyword. -/
  | word (hword : identifierLength s.rest ≠ 0) :
      Cut s (.next (s.identifier (identifierLength s.rest)))
  /-- A number. -/
  | number (hnumber : numberLength s.rest ≠ 0) : Cut s (s.number (numberLength s.rest))
  /-- A string. -/
  | string {quote : Char} {tail : List Char} (hquote : quote = '"' ∨ quote = '\'')
      (hrest : s.rest = quote :: tail) : Cut s (s.string quote)
  /-- The backtick that opens a template, or is out of place in one. -/
  | backtick {tail : List Char} (hrest : s.rest = '\x60' :: tail) : Cut s s.backtick
  /-- A line comment. -/
  | lineComment {tail : List Char} (hrest : s.rest = '/' :: '/' :: tail) :
      Cut s (.next s.lineComment)
  /-- A block comment. -/
  | blockComment {tail : List Char} {t : State} (hrest : s.rest = '/' :: '*' :: tail)
      (h : s.blockComment = .ok t) : Cut s (.next t)
  /-- A block comment that the source ends in. -/
  | unclosedComment {tail : List Char} {t : State} (hrest : s.rest = '/' :: '*' :: tail)
      (h : s.blockComment = .error t) : Cut s (t.fail .unclosedComment s.line (s.column + 1))
  /-- A slash that divides. -/
  | division {tail : List Char} (hrest : s.rest = '/' :: tail)
      (hrole : slashRole s.preceding = .division) : Cut s (.next s.division)
  /-- A regular expression. -/
  | regex {tail : List Char} (hrest : s.rest = '/' :: tail)
      (hrole : slashRole s.preceding ≠ .division) : Cut s (s.regex (slashRole s.preceding))
  /-- Any other operator. -/
  | punctuation {c : Char} {tail : List Char} (hrest : s.rest = c :: tail)
      (hoperator : operatorLength s.rest ≠ 0) (hword : identifierLength s.rest = 0)
      (hc : c ∉ ['"', '\'', '\x60', '/']) : Cut s (s.punctuation (operatorLength s.rest))
  /-- A character that starts no token. -/
  | unexpected {c : Char} {tail : List Char} (hrest : s.rest = c :: tail) :
      Cut s (s.fail .unexpectedCharA s.line (s.column + 1) [c.toString])

/-- **Action**: what a step does. -/
inductive Action (s : State) : Step → Prop
  /-- In the text of a template it reads on to the next delimiter. -/
  | part {opening : Position} (hmode : s.mode = .template opening) :
      Action s (s.templatePart opening)
  /-- At the end of a line the next one is entered. -/
  | line {t : State} (hmode : ∀ opening, s.mode ≠ .template opening) (hrest : s.rest = [])
      (h : s.nextLine? = some t) : Action s (.next t)
  /-- At the end of the source the scan ends. -/
  | finish (hmode : ∀ opening, s.mode ≠ .template opening) (hrest : s.rest = [])
      (hbelow : s.below = []) : Action s s.finish
  /-- Blanks are skipped. -/
  | blanks (hmode : ∀ opening, s.mode ≠ .template opening) {c : Char} {tail : List Char}
      (hrest : s.rest = c :: tail) (hblank : isBlank c = true) :
      Action s (.next (s.advance (s.rest.takeWhile isBlank).length))
  /-- A token is read. -/
  | token (hmode : ∀ opening, s.mode ≠ .template opening) {c : Char} {tail : List Char}
      (hrest : s.rest = c :: tail) (hblank : isBlank c = false) {outcome : Step}
      (hcut : Cut s.roused outcome) : Action s outcome

/-- A token does not complete a scan. -/
theorem Cut.ne_completed {s t : State} {outcome : Step} (h : Cut s outcome) :
    outcome ≠ .completed t := by
  cases h with
  | word _ => simp
  | number _ =>
    unfold State.number
    split <;> simp [failWith]
  | string _ _ =>
    unfold State.string
    split <;> simp [failWith]
  | backtick _ =>
    unfold State.backtick
    split <;> simp [fail]
  | lineComment _ => simp
  | blockComment _ _ => simp
  | unclosedComment _ _ => simp [fail]
  | division _ _ => simp
  | regex _ _ =>
    unfold State.regex
    extract_lets u
    split
    · simp [failWith]
    · split <;> simp
  | punctuation _ _ _ _ =>
    unfold State.punctuation
    extract_lets value u
    split
    · split
      · simp
      · split <;> simp [fail]
    · simp
  | unexpected _ => simp [fail]

/-! ### Every step is an action -/

theorem cut_operator {s : State} {c : Char} {tail : List Char} (hrest : s.rest = c :: tail)
    (hoperator : operatorLength s.rest ≠ 0) (hword : identifierLength s.rest = 0) :
    Cut s (s.operator (operatorLength s.rest)) := by
  unfold operator
  split
  case h_1 hdouble => exact .string (.inl rfl) hdouble
  case h_2 hsingle => exact .string (.inr rfl) hsingle
  case h_3 htick => exact .backtick htick
  case h_4 hline => exact .lineComment hline
  case h_5 hblock =>
    split
    · next t ht => exact .unclosedComment hblock ht
    · next t ht => exact .blockComment hblock ht
  case h_6 hslash =>
    unfold slash
    split
    · next hrole => exact .division hslash hrole
    · next hrole => exact .regex hslash hrole
  case h_7 hdouble hsingle htick _ _ hslash =>
    refine .punctuation hrest hoperator hword ?_
    simp only [List.mem_cons, List.not_mem_nil, or_false, not_or]
    rw [hrest] at hdouble hsingle htick hslash
    refine ⟨?_, ?_, ?_, ?_⟩
    · rintro rfl
      exact hdouble tail rfl
    · rintro rfl
      exact hsingle tail rfl
    · rintro rfl
      exact htick tail rfl
    · rintro rfl
      exact hslash tail rfl

theorem cut_readToken {s : State} {c : Char} {tail : List Char} (hrest : s.rest = c :: tail) :
    Cut s.roused (s.readToken c) := by
  show Cut s.roused (if identifierLength s.roused.rest ≠ 0 then _ else _)
  split
  · next hword => exact .word hword
  · next hword =>
    split
    · next hnumber => exact .number hnumber
    · split
      · next hoperator => exact cut_operator hrest hoperator (Decidable.not_not.mp hword)
      · exact .unexpected hrest

/-- **Inversion of a step.**  Every step is an action. -/
theorem action_of_step (s : State) : Action s s.step := by
  unfold step
  split
  · next opening hmode => exact .part hmode
  · next hmode =>
    split
    · next hrest =>
      split
      · next t ht => exact .line hmode hrest ht
      · next hnone =>
        refine .finish hmode hrest ?_
        unfold nextLine? at hnone
        split at hnone
        · assumption
        · cases hnone
    · next c tail hrest =>
      split
      · next hblank => exact .blanks hmode hrest hblank
      · next hblank =>
        exact .token hmode hrest (eq_false_of_ne_true hblank) (cut_readToken hrest)

/-! ### Steps at an operator -/

/-- Outside of the text of templates a step goes by the rest of the line. -/
theorem step_of_mode_ne {s : State} (hmode : ∀ opening, s.mode ≠ .template opening) : s.step =
    match s.rest with
    | [] =>
      match s.nextLine? with
      | some t => .next t
      | none => s.finish
    | c :: _ =>
      if isBlank c then .next (s.advance (s.rest.takeWhile isBlank).length)
      else s.readToken c := by
  unfold step
  split
  · next opening hm => exact absurd hm (hmode opening)
  · rfl

/-- At a character that begins neither a word nor a number a step reads an operator. -/
theorem step_of_operator {s : State} (hmode : ∀ opening, s.mode ≠ .template opening) {c : Char}
    {tail : List Char} (hrest : s.rest = c :: tail) (hblank : isBlank c = false)
    (hword : isIdentifierStart c = false) (hdigit : c.isDigit = false)
    (hoperator : operatorLength (c :: tail) ≠ 0) :
    s.step = s.roused.operator (operatorLength (c :: tail)) := by
  have hid : identifierLength (c :: tail) = 0 := by
    simp [identifierLength, hword]
  have hnumber : numberLength (c :: tail) = 0 := by
    have hzero : c ≠ '0' := by
      rintro rfl
      exact absurd hdigit (by decide)
    simp [numberLength, hzero, hdigit]
  have hread : s.readToken c = s.roused.operator (operatorLength s.roused.rest) := by
    have hroused : s.roused.rest = c :: tail := hrest
    show (if identifierLength s.roused.rest ≠ 0 then _ else if numberLength s.roused.rest ≠ 0 then _
      else if operatorLength s.roused.rest ≠ 0 then _ else _) = _
    rw [hroused, hid, hnumber, if_neg (not_not_intro rfl), if_neg (not_not_intro rfl),
      if_pos hoperator, ← hroused]
    rfl
  rw [step_of_mode_ne hmode, hrest]
  dsimp only
  rw [hblank, hread, show s.roused.rest = _ from hrest]
  rfl

end State

end ScriptLint
