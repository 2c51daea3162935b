import Mathlib.Algebra.GroupWithZero.Nat
import ScriptLint.Proofs.Loops
import ScriptLint.Proofs.Scan.Events
import ScriptLint.Proofs.Scan.Failures
import ScriptLint.Proofs.Scan.Placement

/-!
# The scan is total

A pass over any text comes to an end, and on the way the cursor only goes forward and
never leaves its line.  Progress is measured twice.  The place reached goes up with every
step, which gives the reading order of what is scanned; the characters left go down, which
bounds the number of steps and of tokens.  A token is paid for by the characters it takes
— each is worth two, since the text of a template may be empty but is followed by its
delimiter — so the tokens and twice the characters left never grow together.

## Main definitions

* `Source.characters` — the number of characters of a source
* `Track.charge` — the tokens, and twice the characters left
* `Track.InRange` — the cursor stands inside its line
* `TotalLexing` — what a pass is in this respect

## Main statements

* `State.no_endless_run` — no sequence of steps goes on for ever
* `charge_le_of_leg` — the charge does not grow
* `lexing_total` — every pass is total
-/

namespace ScriptLint

open Track

/-! ### Steps come to an end -/

/-- **No sequence of steps goes on for ever**: each leaves less of the source. -/
theorem State.no_endless_run : ¬ ∃ f : Nat → State, ∀ n, (f n).step = .next (f (n + 1)) := by
  rintro ⟨f, hf⟩
  -- Otherwise, after more steps than there are characters and lines, less than none is left.
  have hsize : ∀ n, (f n).size + n ≤ (f 0).size := by
    intro n
    induction n with
    | zero => exact Nat.le_refl _
    | succ n ih =>
      have hlt := size_of_step (hf n)
      omega
  have hbeyond := hsize ((f 0).size + 1)
  omega

/-- **Every step advances**, by line or on the line. -/
theorem State.position_lt_of_step {s t : State} (h : s.step = .next t) :
    s.position < t.position :=
  position_lt_of_leg (leg_of_step h)

/-- A lexeme opens a template in code alone, where the scan stands. -/
theorem Track.opening_of_lexeme {s u : Track} {opening : Position} (h : Lexeme s u)
    (hopen : u.mode.opening? = some opening) :
    s.mode.opening? = some opening ∨ s.mode = .code ∧ opening = s.position := by
  obtain @⟨n, t, -, -, hspans, -, -⟩ := h
  rw [← hspans.start]
  exact Mode.opening_after hopen

/-- **Templates do not nest**: a template is opened in code alone, where the scan stands. -/
theorem State.opening_of_step {s t : State} {opening : Position} (h : s.step = .next t)
    (hopen : t.mode.opening? = some opening) :
    s.mode.opening? = some opening ∨ s.mode = .code ∧ opening = s.position := by
  -- Only operators decide the mode, and these are lexemes.
  have hkept : ∀ {u : Track} {x : Token}, x.kind ≠ .operator → (u.add x).mode = u.mode :=
    fun hx => Mode.after_of_kind_ne hx _
  have hmode : t.track.mode.opening? = some opening := hopen
  show s.track.mode.opening? = _ ∨ s.track.mode = _ ∧ opening = s.track.position
  cases leg_of_step h with
  | template hpart hstop =>
    obtain @⟨v, n, x, opening', hsmode, hcross, -, -, hkind, -⟩ := hpart
    have hv : v.mode = s.track.mode := crosses_mode hcross
    rcases opening_of_lexeme hstop hmode with hx | ⟨hx, -⟩
    · rw [hkept (by simp [hkind])] at hx
      exact .inl (hv ▸ hx)
    · rw [hkept (by simp [hkind])] at hx
      exact absurd (hsmode.symm.trans (hv.symm.trans hx)) (by simp)
  | move _ hmove =>
    generalize t.track = w at hmove hmode
    cases hmove with
    | line _ _ => exact .inl hmode
    | blanks _ _ _ => exact .inl hmode
    | lexeme hlex => exact opening_of_lexeme hlex hmode
    | lineComment _ _ hkind _ =>
      rw [hkept (by simp [hkind])] at hmode
      exact .inl hmode
    | @blockComment text v n x _ hcross _ _ hkind =>
      have hv : v.mode = s.track.mode := crosses_mode (s := s.track.advance 2) (t := v) hcross
      rw [hkept (by simp [hkind])] at hmode
      exact .inl (hv ▸ hmode)

/-! ### Tokens are paid for -/

/-- Number of characters of a source, without its line ends. -/
def Source.characters (source : Source) : Nat := (source.lines.toList.map Line.length).sum

namespace Track

variable {s u : Track}

/-- Number of characters left, on the line and below. -/
def charsLeft (s : Track) : Nat := s.rest.length + (s.below.map Line.length).sum

/-- **Charge**: the tokens so far, and two for each character left. -/
def charge (s : Track) : Nat := s.tokens.length + 2 * s.charsLeft

theorem charsLeft_advance {n : Nat} (hle : n ≤ s.rest.length) :
    (s.advance n).charsLeft + n = s.charsLeft := by
  show (s.rest.drop n).length + (s.below.map Line.length).sum + n = s.rest.length + _
  rw [List.length_drop]
  omega

/-- Entering a line gives up what is left of the one before. -/
theorem charsLeft_enter_le {line : Line} {below : List Line} (h : s.below = line :: below) :
    (s.enter line below).charsLeft ≤ s.charsLeft := by
  have hlength : (s.enter line below).rest.length = line.length := by
    have htext : line.text.toList.length = line.length := String.length_toList
    unfold enter
    split
    · exact htext
    · rw [State.untabbed, List.length_map, htext]
  rw [charsLeft, charsLeft, hlength, h, List.map_cons, List.sum_cons]
  exact Nat.le_add_left _ _

theorem charsLeft_le_of_crosses (h : Crosses s u) : u.charsLeft ≤ s.charsLeft := by
  induction h with
  | here => exact Nat.le_refl _
  | next hbelow _ ih => exact ih.trans (charsLeft_enter_le hbelow)

/-- A token of `n` characters of a line takes them from what is left. -/
theorem charge_add {n : Nat} {t : Token} (hle : n ≤ u.rest.length)
    (htokens : u.tokens = s.tokens) :
    ((u.advance n).add t).charge + 2 * n = s.tokens.length + 1 + 2 * u.charsLeft := by
  have hleft : ((u.advance n).add t).charsLeft + n = u.charsLeft := charsLeft_advance hle
  have hlength : ((u.advance n).add t).tokens.length = s.tokens.length + 1 := by
    show (t :: u.tokens).length = _
    rw [htokens, List.length_cons]
  rw [charge, hlength]
  omega

/-- A lexeme is paid for twice over by its first character. -/
theorem charge_lt_of_lexeme (h : Lexeme s u) : u.charge < s.charge := by
  obtain @⟨n, t, hpos, hle, -, -, -⟩ := h
  have hcharge := charge_add (s := s) (t := t) hle rfl
  rw [charge.eq_def s]
  omega

/-- The text of a template may be empty, and is then paid for by the delimiter behind it. -/
theorem charge_le_of_part (h : Part s u) : u.charge ≤ s.charge + 1 := by
  obtain @⟨v, n, t, opening, -, hcross, hlt, -, -, -⟩ := h
  have hcharge := charge_add (s := s) (u := v) (t := t) hlt.le (crosses_tokens hcross)
  have hleft := charsLeft_le_of_crosses hcross
  rw [charge.eq_def s]
  omega

/-- **The charge does not grow** along a leg. -/
theorem charge_le_of_leg (h : Leg s u) : u.charge ≤ s.charge := by
  cases h with
  | template hpart hstop =>
    -- What the part may cost its delimiter makes up for.
    have hle := charge_le_of_part hpart
    have hlt := charge_lt_of_lexeme hstop
    omega
  | move _ hmove =>
    cases hmove with
    | line _ hbelow =>
      exact Nat.add_le_add_left (Nat.mul_le_mul_left 2 (charsLeft_enter_le hbelow)) _
    | blanks _ hle _ =>
      have hleft := charsLeft_advance hle
      exact Nat.add_le_add_left (Nat.mul_le_mul_left 2 (by omega)) _
    | lexeme hlex => exact (charge_lt_of_lexeme hlex).le
    | @lineComment value t hrest _ _ _ =>
      have hcharge := charge_add (s := s) (t := t) (Nat.le_refl s.rest.length) rfl
      have hpos : 0 < s.rest.length := by
        rw [hrest]
        exact Nat.succ_pos _
      rw [charge.eq_def s]
      omega
    | @blockComment text v n t hrest hcross hle _ _ =>
      have htwo : 2 ≤ s.rest.length := by
        rw [hrest]
        simp
      have hopened := charsLeft_advance htwo
      have hleft := charsLeft_le_of_crosses hcross
      have hcharge := charge_add (s := s) (u := v) (t := t) hle
        (crosses_tokens (s := s.advance 2) (t := v) hcross)
      rw [charge.eq_def s]
      omega

/-- A scan begins with a charge of two for each character of its source. -/
theorem charge_initial_le (source : Source) :
    (State.initial source.lines.toList).track.charge ≤ 2 * source.characters := by
  have hstart : (Track.start source.lines.toList).charsLeft = source.characters := Nat.zero_add _
  rw [charge, State.tokens_initial, List.length_nil, Nat.zero_add, ← hstart]
  refine Nat.mul_le_mul_left 2 ?_
  rcases State.track_initial source.lines.toList with htrack | ⟨line, below, hlines, -, htrack⟩
  · rw [htrack]
  · rw [htrack]
    have hskip := charsLeft_advance
      (s := (Track.start source.lines.toList).enter line below) (Nat.le_refl _)
    have henter := charsLeft_enter_le (s := Track.start source.lines.toList) hlines
    omega

end Track

/-! ### The cursor stays in its line -/

/-- **In range**: the cursor stands in a line of the source, and what is left of the line is what
the line has behind it. -/
structure Track.InRange (source : Source) (s : Track) : Prop where
  line_le : s.line ≤ source.lastIndex
  column_add : s.column + s.rest.length = source.lengthAt s.line

theorem Placed.inRange {source : Source} {s : Track} (h : Placed source s) : InRange source s := by
  have hlength := h.length_rest
  have hcolumn := h.column_le
  exact ⟨h.line_le, by omega⟩

/-- Every outcome of a step leaves the cursor in range. -/
theorem inRange_of_step {source : Source} {s : State} (h : Placed source s.track) :
    InRange source s.step.state.track := by
  cases hstep : s.step with
  | next t => exact (h.of_leg (State.leg_of_step hstep)).inRange
  | completed t =>
    obtain ⟨-, -, -, e, -, -, htrack⟩ := State.completed_of_step hstep
    show InRange source t.track
    rw [htrack]
    exact ⟨h.inRange.line_le, h.inRange.column_add⟩
  | failed t fault =>
    show InRange source t.track
    cases State.stops_of_step hstep with
    | crossing hle hcross => exact ((h.advance hle).crosses hcross).inRange
    | lexeme hlex => exact (h.of_lexeme hlex).inRange

/-! ### Total lexing -/

/-- **Total lexing**: how a pass over a text comes to its end. -/
structure TotalLexing (settings : Settings) (text : String) : Prop where
  /-- No sequence of steps goes on for ever. -/
  ends : ¬ ∃ f : Nat → State, ∀ n, (f n).step = .next (f (n + 1))
  /-- The steps from the beginning lead to one that adds the end of the source, or to one that
  fails and aborts the pass. -/
  outcome : ∃ s, State.Reaches (.initial (Source.ofString text).lines.toList) s ∧
    ((∃ t e, s.step = .completed t ∧ (Pass.run settings text).abort = none ∧ e.kind = .eof ∧
        (Pass.run settings text).tokens = s.tokens.reverse ++ [e]) ∨
      ∃ t fault, s.step = .failed t fault ∧ (Pass.run settings text).abort.isSome ∧
        (Pass.run settings text).tokens = t.tokens.reverse)
  /-- Every other step advances. -/
  advances : ∀ s t : State, s.step = .next t → s.position < t.position
  /-- The loop over the contents of a string consumes with every turn. -/
  strings : ∀ around quote, IsLoop (Strand.quoted around quote) (Strand.quotedTurn around quote)
    (·.rest.length)
  /-- So does the loop over a pattern and its groups. -/
  patterns : ∀ around, IsLoop (fun s => Strand.pattern around s.1 s.2.1 s.2.2)
    (Strand.patternTurn around) (·.2.2.rest.length)
  /-- So does the loop over the members of a character class. -/
  classes : ∀ around, IsLoop (fun s => Strand.classMembers around s.1 s.2)
    (Strand.classTurn around) (·.2.rest.length)
  /-- So does the loop over the flags of a regular expression. -/
  flags : ∀ around body, IsLoop (fun s => Strand.flags around body s.1 s.2)
    (Strand.flagsTurn around body) (·.2.rest.length)
  /-- So does the loop over the text of a template on a line. -/
  templates : IsLoop (fun s => templateChunk s.1 s.2) templateTurn (·.2.length)
  /-- So does the loop over the lines of the text of a template. -/
  templateLines : IsLoop (fun s => State.templateText s.1 s.2) State.templateLineTurn (·.2.size)
  /-- So does the loop over the lines of a block comment. -/
  comments : IsLoop (fun s => State.closeComment s.1 s.2) State.commentLineTurn (·.2.size)
  /-- A template is opened in code alone. -/
  single : ∀ (s t : State) (opening : Position), s.step = .next t →
    t.mode.opening? = some opening →
    s.mode.opening? = some opening ∨ s.mode = .code ∧ opening = s.position
  /-- A backtick where a template is open already is a fault. -/
  nested : ∀ (s : State) (opening : Position) (tail : List Char),
    s.mode = .interpolation opening → s.rest = '\x60' :: tail → ∃ t fault, s.step = .failed t fault
  /-- The cursor stays in range, whatever the outcome of a step. -/
  inRange : ∀ s, State.Reaches (.initial (Source.ofString text).lines.toList) s →
    InRange (.ofString text) s.track ∧ InRange (.ofString text) s.step.state.track
  /-- What is taken at a single look is there. -/
  lexemes : ∀ text, identifierLength text ≤ text.length ∧ numberLength text ≤ text.length ∧
    operatorLength text ≤ text.length ∧ (templateChunk [] text).1.length ≤ text.length
  /-- A pair of characters that is found is there. -/
  pairs : ∀ a b text i, findPair a b text = some i → i + 2 ≤ text.length
  /-- What a literal takes and what it leaves are the stretch it was given. -/
  literals : ∀ around (s t : Strand), ((∃ lead, s.number around lead = .ok t) ∨
    (∃ quote, s.quoted around quote = .ok t) ∨ ∃ missesFlag, s.regex around = .ok (t, missesFlag)) →
    t.whole = s.whole
  /-- A pass that completes has two tokens at most for each character, and the end. -/
  tokens_le : (Pass.run settings text).abort = none →
    (Pass.run settings text).tokens.length ≤ 2 * (Source.ofString text).characters + 1

/-- **The scan is total**: under any settings, on every text. -/
theorem lexing_total (settings : Settings) (text : String) : TotalLexing settings text where
  ends := State.no_endless_run
  outcome := by
    obtain ⟨s, hreach, houtcome⟩ :=
      State.run_outcome (.initial (Source.ofString text).lines.toList)
    refine ⟨s, hreach, ?_⟩
    rcases houtcome with ⟨t, hstep, hrun⟩ | ⟨t, fault, hstep, hrun⟩
    · obtain ⟨-, -, -, e, hkind, -, htrack⟩ := State.completed_of_step hstep
      have htokens : t.tokens = e :: s.tokens := congrArg Track.tokens htrack
      refine .inl ⟨t, e, hstep, ?_, hkind, ?_⟩
      · simp [Pass.run, Pass.ofSource, scan, hrun]
      · simp [Pass.run, Pass.ofSource, scan, hrun, htokens]
    · refine .inr ⟨t, fault, hstep, ?_, ?_⟩
      · simp [Pass.run, Pass.ofSource, scan, hrun]
      · simp [Pass.run, Pass.ofSource, scan, hrun]
  advances := fun _ _ => State.position_lt_of_step
  strings := Strand.isLoop_quoted
  patterns := Strand.isLoop_pattern
  classes := Strand.isLoop_classMembers
  flags := Strand.isLoop_flags
  templates := isLoop_templateChunk
  templateLines := State.isLoop_templateText
  comments := State.isLoop_closeComment
  single := fun _ _ _ => State.opening_of_step
  nested := fun s opening tail hmode hrest => by
    obtain ⟨t, ht⟩ := State.failed_of_nested hmode hrest
    exact ⟨t, _, ht⟩
  inRange := fun s hreach =>
    ⟨(placed_of_reaches hreach).inRange, inRange_of_step (placed_of_reaches hreach)⟩
  lexemes := fun text => by
    refine ⟨identifierLength_le text, numberLength_le text, operatorLength_le text, ?_⟩
    obtain ⟨front, back, htext, hfront, -⟩ := split_of_templateChunk [] text
    rw [hfront, htext]
    simp
  pairs := fun a b text i h => by
    obtain ⟨front, back, htext, rfl⟩ := split_of_findPair h
    rw [htext]
    simp
  literals := by
    rintro around s t (⟨lead, h⟩ | ⟨quote, h⟩ | ⟨missesFlag, h⟩)
    · exact Strand.whole_of_number around h
    · exact Strand.whole_of_quoted around h
    · exact Strand.whole_of_regex around h
  tokens_le := fun h => by
    obtain ⟨s, hreach, -, -, -, e, -, -, htokens⟩ :=
      reached_of_completed (fault_eq_none_of_abort h) .refl
    have hcharge : s.track.charge ≤ 2 * (Source.ofString text).characters :=
      hreach.invariant (fun _ _ hs hleg => (charge_le_of_leg hleg).trans hs)
        (charge_initial_le _)
    have hlength : (Pass.run settings text).tokens.length = s.tokens.length + 1 := by
      show (scan (.ofString text)).tokens.length = _
      rw [htokens, List.length_reverse, List.length_cons]
    have htracked : s.track.charge = s.tokens.length + 2 * s.track.charsLeft := rfl
    omega

end ScriptLint
