import ScriptLint.Proofs.Places
import ScriptLint.Proofs.Scan.Course
import ScriptLint.Proofs.Scan.Failures

/-!
# Where a scan stands

The invariant that ties the cursor of a scan to its source.  A reached state stands
inside the line whose number it has, what is left of the line is the line as read from
the column on, and the lines below are the lines below.

How a line was read — verbatim, or with spaces for its tabs — is not in the state.  It
can be told from the tokens: templates do not nest, so a line was entered inside one
exactly if an **odd number of backticks** start on the lines before it.

## Main definitions

* `backticksBefore` — the backticks that start before a line
* `Source.readAt` — the text of a line as the scan reads it
* `Placed` — the invariant

## Main statements

* `placed_of_reaches`, `placed_of_run` — every reached state is placed, and the last one
-/

namespace ScriptLint

open Track

/-! ### Lines as they are read -/

/-- The number of backticks among tokens that start on a line before line `n`. -/
def backticksBefore (tokens : List Token) (n : Nat) : Nat :=
  tokens.countP fun t => t.isOperator "\x60" && decide (t.start.line < n)

/-- The text of a line as the scan reads it after some tokens: verbatim inside a template, with
spaces for tabs outside. -/
def Source.readAt (source : Source) (tokens : List Token) (n : Nat) : List Char :=
  if backticksBefore tokens n % 2 = 1 then (source.textAt n).toList
  else State.untabbed (source.textAt n).toList

@[simp] theorem Source.length_readAt (source : Source) (tokens : List Token) (n : Nat) :
    (source.readAt tokens n).length = source.lengthAt n := by
  have hlength : (source.textAt n).toList.length = source.lengthAt n := String.length_toList
  unfold readAt
  split
  · exact hlength
  · rw [State.untabbed, List.length_map, hlength]

/-- Reading a line changes neither where a character stands nor which it is, but for tabs and
spaces. -/
theorem Source.getElem?_readAt_eq_some {source : Source} {tokens : List Token} {n k : Nat}
    {c : Char} (htab : c ≠ '\t') (hspace : c ≠ ' ') :
    (source.readAt tokens n)[k]? = some c ↔ source.charAt? ⟨n, k⟩ = some c := by
  unfold readAt charAt?
  split
  · exact Iff.rfl
  · rw [State.untabbed, List.getElem?_map, Option.map_eq_some_iff]
    constructor
    · rintro ⟨d, hd, heq⟩
      split at heq
      · exact absurd heq.symm hspace
      · rwa [← heq]
    · intro hc
      exact ⟨c, hc, if_neg htab⟩

theorem backticksBefore_cons (t : Token) (tokens : List Token) (n : Nat) :
    backticksBefore (t :: tokens) n = backticksBefore tokens n +
      if t.isOperator "\x60" && decide (t.start.line < n) then 1 else 0 := by
  rw [backticksBefore, List.countP_cons]
  rfl

/-- A token that starts on line `n` or later does not tell how line `n` was read. -/
theorem backticksBefore_cons_of_le {t : Token} {n : Nat} (tokens : List Token)
    (h : t.isOperator "\x60" = true → n ≤ t.start.line) :
    backticksBefore (t :: tokens) n = backticksBefore tokens n := by
  rw [backticksBefore_cons, if_neg, Nat.add_zero]
  simp only [Bool.and_eq_true, decide_eq_true_eq]
  rintro ⟨htick, hlt⟩
  exact absurd (h htick) (by omega)

theorem Source.readAt_cons_of_le {t : Token} {n : Nat} (source : Source) (tokens : List Token)
    (h : t.isOperator "\x60" = true → n ≤ t.start.line) :
    source.readAt (t :: tokens) n = source.readAt tokens n := by
  rw [readAt, backticksBefore_cons_of_le tokens h, readAt]

/-- All backticks have been counted once every token starts before the line. -/
theorem backticksBefore_succ {tokens : List Token} {n : Nat}
    (h : ∀ t ∈ tokens, t.start.line < n) :
    backticksBefore tokens (n + 1) = backticksBefore tokens n := by
  unfold backticksBefore
  refine List.countP_congr fun t ht => ?_
  have hlt := h t ht
  simp [hlt, Nat.lt_succ_of_lt hlt]

/-- All backticks stand before a line below the tokens. -/
theorem backticksBefore_eq_countP {tokens : List Token} {n : Nat}
    (h : ∀ t ∈ tokens, t.start.line < n) :
    backticksBefore tokens n = tokens.countP (·.isOperator "\x60") := by
  refine List.countP_congr fun t ht => ?_
  simp [h t ht]

/-- Outside of interpolations the backticks are what opens and closes templates. -/
theorem Mode.inTemplate_after {mode : Mode} {t : Token}
    (hnest : ∀ opening, mode = .interpolation opening → t.isOperator "\x60" = false) :
    (mode.after t).opening?.isSome = (mode.opening?.isSome != t.isOperator "\x60") := by
  cases mode with
  | code => cases h : t.isOperator "\x60" <;> simp [after, opening?, h]
  | template opening =>
    cases h : t.isOperator "\x60"
    · simp only [after, h, Bool.false_eq_true, if_false]
      split <;> simp [opening?]
    · simp [after, opening?, h]
  | interpolation opening =>
    rw [hnest opening rfl, after]
    split <;> simp [opening?]

/-! ### The invariant -/

/-- **Placed**: the track stands in its source. -/
structure Placed (source : Source) (s : Track) : Prop where
  /-- The line is one of the source, or none has been entered. -/
  line_le : s.line ≤ source.lastIndex
  /-- The lines below are those below in the source. -/
  below : s.below = source.lines.toList.drop s.line
  /-- The column is inside the line. -/
  column_le : s.column ≤ source.lengthAt s.line
  /-- The rest of the line is the line as read, from the column on. -/
  rest : s.rest = (source.readAt s.tokens s.line).drop s.column
  /-- The mode goes by the backticks so far. -/
  mode : s.inTemplate = decide (backticksBefore s.tokens (s.line + 1) % 2 = 1)
  /-- No token starts on a line below. -/
  start_le : ∀ t ∈ s.tokens, t.start.line ≤ s.line

namespace Placed

variable {source : Source} {s u : Track}

theorem length_rest (h : Placed source s) : s.rest.length = source.lengthAt s.line - s.column := by
  rw [h.rest, List.length_drop, source.length_readAt]

/-- A template is open exactly if an odd number of backticks has been read. -/
theorem inTemplate_eq (h : Placed source s) :
    s.inTemplate = decide (s.tokens.countP (·.isOperator "\x60") % 2 = 1) := by
  rw [h.mode, backticksBefore_eq_countP fun t ht => Nat.lt_succ_of_le (h.start_le t ht)]

/-- Before the first line nothing is left of a line. -/
theorem one_le_line (h : Placed source s) (hrest : s.rest ≠ []) : 1 ≤ s.line := by
  rw [Nat.one_le_iff_ne_zero]
  intro hzero
  have hlength := h.length_rest
  rw [hzero] at hlength
  refine hrest (List.length_eq_zero_iff.mp (hlength.trans ?_))
  exact Nat.zero_sub _

/-- Where nothing is left the source ends. -/
theorem at_end (h : Placed source s) (hrest : s.rest = []) (hbelow : s.below = []) :
    s.line = source.lastIndex ∧ s.column = source.lengthAt s.line := by
  constructor
  · have hdrop := h.below.symm.trans hbelow
    rw [List.drop_eq_nil_iff, Array.length_toList] at hdrop
    exact Nat.le_antisymm h.line_le hdrop
  · have hlength := h.length_rest
    have hcolumn := h.column_le
    rw [hrest, List.length_nil] at hlength
    omega

/-- Going on inside the line keeps the place. -/
theorem advance (h : Placed source s) {n : Nat} (hle : n ≤ s.rest.length) :
    Placed source (s.advance n) := by
  have hlength := h.length_rest
  have hcolumn := h.column_le
  refine ⟨h.line_le, h.below, ?_, ?_, h.mode, h.start_le⟩
  · show s.column + n ≤ source.lengthAt s.line
    omega
  · show s.rest.drop n = (source.readAt s.tokens s.line).drop (s.column + n)
    rw [h.rest, List.drop_drop]

/-- Entering the next line keeps the place: how the line is read is what the backticks before
it say. -/
theorem enter (h : Placed source s) {line : Line} {below : List Line}
    (hbelow : s.below = line :: below) : Placed source (s.enter line below) := by
  have hdrop : source.lines.toList.drop s.line = line :: below := h.below ▸ hbelow
  have hlt : s.line < source.lines.size := by
    have hlength := congrArg List.length hdrop
    simp only [List.length_drop, List.length_cons, Array.length_toList] at hlength
    omega
  have htext : source.textAt (s.line + 1) = line.text := Source.textAt_succ hdrop
  -- Every token starts above the new line, so none on it tells how the next one is read.
  have hparity : backticksBefore s.tokens (s.line + 1 + 1) =
      backticksBefore s.tokens (s.line + 1) :=
    backticksBefore_succ fun t ht => Nat.lt_succ_of_le (h.start_le t ht)
  refine ⟨hlt, ?_, Nat.zero_le _, ?_, ?_, fun t ht => Nat.le_succ_of_le (h.start_le t ht)⟩
  · show below = source.lines.toList.drop (s.line + 1)
    rw [← List.tail_drop, hdrop]
    rfl
  · show (if s.inTemplate then line.text.toList else State.untabbed line.text.toList) =
      source.readAt s.tokens (s.line + 1)
    rw [Source.readAt, htext, h.mode]
    simp
  · show s.inTemplate = decide (backticksBefore s.tokens (s.line + 1 + 1) % 2 = 1)
    rw [hparity]
    exact h.mode

theorem crosses (h : Placed source s) (hcross : Crosses s u) : Placed source u := by
  induction hcross with
  | here => exact h
  | next hbelow _ ih => exact ih (h.enter hbelow)

/-- Adding a token keeps the place, if it starts no later, and on the line if it is a
backtick. -/
theorem add (h : Placed source s) {t : Token} (hstart : t.start.line ≤ s.line)
    (htick : t.isOperator "\x60" = true → t.start.line = s.line)
    (hnest : ∀ opening, s.mode = .interpolation opening → t.isOperator "\x60" = false) :
    Placed source (s.add t) := by
  refine ⟨h.line_le, h.below, h.column_le, ?_, ?_, ?_⟩
  · show s.rest = (source.readAt (t :: s.tokens) s.line).drop s.column
    rw [source.readAt_cons_of_le s.tokens fun hop => Nat.le_of_eq (htick hop).symm]
    exact h.rest
  · show (s.mode.after t).opening?.isSome =
      decide (backticksBefore (t :: s.tokens) (s.line + 1) % 2 = 1)
    have hmode : s.mode.opening?.isSome =
      decide (backticksBefore s.tokens (s.line + 1) % 2 = 1) := h.mode
    have hlt : t.start.line < s.line + 1 := Nat.lt_succ_of_le hstart
    -- A backtick counts from the next line on, where it turns both sides over.
    rw [Mode.inTemplate_after hnest, hmode, backticksBefore_cons]
    cases hop : t.isOperator "\x60"
    · simp
    · simp only [hlt, decide_true, Bool.and_self, if_true, Bool.bne_true]
      by_cases hodd : backticksBefore s.tokens (s.line + 1) % 2 = 1
      · rw [decide_eq_true hodd, decide_eq_false (by omega)]
        rfl
      · rw [decide_eq_false hodd, decide_eq_true (by omega)]
        rfl
  · intro x hx
    rcases List.mem_cons.mp hx with rfl | hx
    · exact hstart
    · exact h.start_le x hx

end Placed

/-! ### Legs keep the place -/

namespace Track

variable {s u : Track}

theorem line_le_of_crosses (h : Crosses s u) : s.line ≤ u.line := by
  induction h with
  | here => exact Nat.le_refl _
  | next _ _ ih => exact Nat.le_of_succ_le ih

/-- Crossing lines goes on. -/
theorem position_le_of_crosses (h : Crosses s u) : s.position ≤ u.position := by
  cases h with
  | here => exact le_refl _
  | next _ hcross =>
    exact Position.le_iff.mpr (.inl (Nat.lt_of_succ_le (line_le_of_crosses hcross)))

theorem position_lt_advance (s : Track) {n : Nat} (hpos : 0 < n) :
    s.position < (s.advance n).position :=
  Position.lt_iff.mpr (.inr ⟨rfl, Nat.lt_add_of_pos_right hpos⟩)

theorem position_le_advance (s : Track) (n : Nat) : s.position ≤ (s.advance n).position :=
  Position.le_iff.mpr (.inr ⟨rfl, Nat.le_add_right _ _⟩)

theorem position_lt_of_lexeme (h : Lexeme s u) : s.position < u.position := by
  obtain ⟨hpos, -, -, -, -⟩ := h
  exact position_lt_advance s hpos

theorem position_le_of_part (h : Part s u) : s.position ≤ u.position := by
  obtain @⟨v, n, t, opening, -, hcross, -, -, -, -⟩ := h
  exact (position_le_of_crosses hcross).trans (position_le_advance v n)

theorem position_lt_of_move (h : Move s u) : s.position < u.position := by
  cases h with
  | line _ _ => exact Position.lt_iff.mpr (.inl (Nat.lt_succ_self _))
  | blanks hpos _ _ => exact position_lt_advance s hpos
  | lexeme hlex => exact position_lt_of_lexeme hlex
  | lineComment hrest _ _ _ =>
    refine position_lt_advance s ?_
    rw [hrest]
    exact Nat.succ_pos _
  | @blockComment text v n t _ hcross _ _ _ =>
    -- The opening alone advances; crossing lines and closing do not go back.
    exact (position_lt_advance s Nat.two_pos).trans_le
      ((position_le_of_crosses hcross).trans (position_le_advance v n))

/-- **Every leg advances**, strictly. -/
theorem position_lt_of_leg (h : Leg s u) : s.position < u.position := by
  cases h with
  | template hpart hstop => exact (position_le_of_part hpart).trans_lt (position_lt_of_lexeme hstop)
  | move _ hmove => exact position_lt_of_move hmove

/-- A token that goes on is not empty. -/
theorem Spans.start_ne_stop {t : Token} (h : Spans s u t) (hlt : s.position < u.position) :
    t.start ≠ t.stop := by
  rw [h.start, h.stop]
  exact hlt.ne

/-- The places gone over inside a line are on that line. -/
theorem of_mem_advance {p : Position} {n : Nat} (hfrom : s.position ≤ p)
    (hto : p < (s.advance n).position) :
    p.line = s.line ∧ s.column ≤ p.column ∧ p.column < s.column + n := by
  have hle : s.line < p.line ∨ s.line = p.line ∧ s.column ≤ p.column := Position.le_iff.mp hfrom
  have hlt : p.line < s.line ∨ p.line = s.line ∧ p.column < s.column + n :=
    Position.lt_iff.mp hto
  omega

end Track

namespace Placed

variable {source : Source} {s u : Track}

theorem of_lexeme (h : Placed source s) (hlex : Lexeme s u) : Placed source u := by
  obtain ⟨hpos, hle, hspans, hspelled, hnest⟩ := hlex
  have hline : ∀ n, (s.advance n).line = s.line := fun _ => rfl
  refine (h.advance hle).add ?_ ?_ hnest
  · rw [hspans.start]
    exact Nat.le_refl _
  · intro _
    rw [hspans.start]
    rfl

/-- A token that is no operator may cross lines. -/
theorem add_crossing {t : Token} (hu : Placed source u) (hline : s.line ≤ u.line)
    (hspans : Spans s u t) (hkind : t.kind ≠ .operator) :
    Placed source (u.add t) := by
  have hop : ∀ value, t.isOperator value = false := by
    intro value
    simp [Token.isOperator, hkind]
  refine hu.add ?_ ?_ fun _ _ => hop _
  · rw [hspans.start]
    exact hline
  · intro htick
    rw [hop] at htick
    cases htick

theorem of_part (h : Placed source s) (hpart : Part s u) : Placed source u := by
  obtain ⟨hmode, hcross, hlt, hspans, hkind, hquote⟩ := hpart
  have hline := line_le_of_crosses hcross
  exact ((h.crosses hcross).advance (Nat.le_of_lt hlt)).add_crossing hline hspans (by simp [hkind])

theorem of_move (h : Placed source s) (hmove : Move s u) : Placed source u := by
  cases hmove with
  | line _ hbelow => exact h.enter hbelow
  | blanks _ hle _ => exact h.advance hle
  | lexeme hlex => exact h.of_lexeme hlex
  | lineComment _ hspans hkind _ =>
    have hline : s.line ≤ (s.advance s.rest.length).line := Nat.le_refl _
    exact (h.advance (Nat.le_refl _)).add_crossing hline hspans (by simp [hkind])
  | @blockComment text u n t hrest hcross hle hspans hkind =>
    have htwo : 2 ≤ s.rest.length := by
      rw [hrest]
      simp
    have hline : s.line ≤ (u.advance n).line :=
      line_le_of_crosses (s := s.advance 2) (u := u) hcross
    exact (((h.advance htwo).crosses hcross).advance hle).add_crossing hline hspans
      (by simp [hkind])

theorem of_leg (h : Placed source s) (hleg : Leg s u) : Placed source u := by
  cases hleg with
  | move _ hmove => exact h.of_move hmove
  | template hpart hstop => exact (h.of_part hpart).of_lexeme hstop

/-- A scan begins in its place. -/
theorem initial (source : Source) : Placed source (State.initial source.lines.toList).track := by
  have hstart : Placed source (.start source.lines.toList) := by
    refine ⟨Nat.zero_le _, rfl, Nat.zero_le _, ?_, rfl, by simp [Track.start]⟩
    simp [Track.start, Source.readAt, Source.textAt, Source.line?, State.untabbed]
  rcases State.track_initial source.lines.toList with htrack | ⟨line, below, hlines, _, htrack⟩
  · rw [htrack]
    exact hstart
  · rw [htrack]
    exact (hstart.enter hlines).advance (Nat.le_refl _)

end Placed

/-- Every reached state stands in its source. -/
theorem placed_of_reaches {source : Source} {s : State}
    (h : State.Reaches (.initial source.lines.toList) s) : Placed source s.track :=
  h.invariant (fun _ _ hs hleg => hs.of_leg hleg) (.initial source)

/-- The state that a run ends in stands in its source. -/
theorem placed_of_run (source : Source) :
    Placed source (State.initial source.lines.toList).run.1.track := by
  obtain ⟨t, hreach, ⟨u, hstep, hrun⟩ | ⟨u, fault, hstep, hrun⟩⟩ :=
    State.run_outcome (.initial source.lines.toList)
  · obtain ⟨-, -, -, e, hkind, hspans, htrack⟩ := State.completed_of_step hstep
    have hop : e.isOperator "\x60" = false := by simp [Token.isOperator, hkind]
    rw [hrun, htrack]
    refine (placed_of_reaches hreach).add ?_ (by simp [hop]) fun _ _ => hop
    rw [hspans.start]
    exact Nat.le_refl _
  · have hplaced := placed_of_reaches hreach
    rw [hrun]
    cases State.stops_of_step hstep with
    | crossing hle hcross => exact (hplaced.advance hle).crosses hcross
    | lexeme hlex => exact hplaced.of_lexeme hlex

/-- A step that fails inside the rest of its line aborts the pass right there. -/
theorem abort_of_failed_inside (settings : Settings) {text : String} {s t : State}
    {fault : Finding}
    (hreach : State.Reaches (.initial (Source.ofString text).lines.toList) s)
    (hstep : s.step = .failed t fault) (hline : fault.line = s.line)
    (hfrom : s.column < fault.column) (hto : fault.column ≤ s.column + s.rest.length) :
    (Pass.run settings text).abort = some ⟨fault.rule, s.line, fault.column⟩ := by
  have hplaced := placed_of_reaches hreach
  have hlength : s.rest.length = (Source.ofString text).lengthAt s.line - s.column :=
    hplaced.length_rest
  have hcolumn : s.column ≤ (Source.ofString text).lengthAt s.line := hplaced.column_le
  have hne : s.rest ≠ [] := by
    rintro hnil
    rw [hnil, List.length_nil] at hto
    omega
  have hinside : 1 ≤ s.line ∧ s.line ≤ (Source.ofString text).lastIndex :=
    ⟨hplaced.one_le_line hne, hplaced.line_le⟩
  have hclamp : (Source.ofString text).clampColumn s.line fault.column = fault.column := by
    unfold Source.clampColumn
    omega
  rw [abort_of_failed settings hreach hstep, hline, Source.clampLine_of_inside hinside, hclamp]

end ScriptLint
