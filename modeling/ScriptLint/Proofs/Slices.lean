import ScriptLint.Proofs.Scan.Placement

/-!
# Token values are slices of the source

The value of a token is the text of the source between its start and its stop, less the
quotes of a string and the slashes of a comment.  The text meant is that of the line **as
read**: a line that starts inside a template is read verbatim, every other line with
spaces for its tabs.  A token is added at the place where the scan stands, and how the
lines up to there were read no later token changes, so the values are compared with one
text of each line for the whole source.

## Main definitions

* `templates`, `startsInTemplate` — the templates of a source and the lines inside them
* `Source.lineRead` — the text of a line as read
* `Token.SliceOf` — what the value of a token is to the lines
* `Source.Spells` — the same of all tokens

## Main statements

* `spells_of_completed` — the tokens of a completed pass are slices of the lines as read
* `lineRead_of_reaches_completed`, `rest_of_reaches_completed` — the lines as read are what the
  scan goes by
-/

namespace ScriptLint

open Track

/-! ### Lines and templates -/

/-- **Templates**: the backticks of a source two by two, since templates do not nest. -/
def templates : List Token → List (Token × Token)
  | opening :: closing :: rest => (opening, closing) :: templates rest
  | _ => []

/-- A line that starts inside a template: one is opened on a line before and not closed until
this line. -/
def startsInTemplate (tokens : List Token) (n : Nat) : Bool :=
  (templates (tokens.filter (·.isOperator "\x60"))).any fun template =>
    decide (template.1.start.line < n) && decide (n ≤ template.2.start.line)

/-- **The text of a line as read**: verbatim if it starts inside a template, with spaces for
its tabs otherwise. -/
def Source.lineRead (source : Source) (tokens : List Token) (n : Nat) : List Char :=
  if startsInTemplate tokens n then (source.textAt n).toList
  else State.untabbed (source.textAt n).toList

/-- The backticks of a template are next to each other among the backticks, behind whole
templates. -/
theorem exists_of_mem_templates {ticks : List Token} {template : Token × Token}
    (h : template ∈ templates ticks) :
    ∃ front back, ticks = front ++ template.1 :: template.2 :: back ∧ front.length % 2 = 0 := by
  induction ticks using templates.induct with
  | case1 opening closing rest ih =>
    rcases List.mem_cons.mp h with rfl | h
    · exact ⟨[], rest, rfl, rfl⟩
    · obtain ⟨front, back, rfl, heven⟩ := ih h
      refine ⟨opening :: closing :: front, back, rfl, ?_⟩
      simp only [List.length_cons]
      omega
  | case2 ticks hshort =>
    rw [templates] at h
    · cases h
    · exact hshort

/-- Behind whole templates the backticks pair as on their own. -/
theorem templates_append {front : List Token} (heven : front.length % 2 = 0) (back : List Token) :
    templates (front ++ back) = templates front ++ templates back := by
  induction front using templates.induct with
  | case1 opening closing rest ih =>
    have hrest : rest.length % 2 = 0 := by
      simp only [List.length_cons] at heven
      omega
    show (opening, closing) :: templates (rest ++ back) = _
    rw [ih hrest]
    rfl
  | case2 ticks hshort =>
    cases ticks with
    | nil => rfl
    | cons t ticks =>
      cases ticks with
      | nil => simp at heven
      | cons u ticks => exact absurd rfl (hshort t u ticks)

/-- The backticks of a template are tokens. -/
theorem mem_of_mem_templates {ticks : List Token} {template : Token × Token}
    (h : template ∈ templates ticks) : template.1 ∈ ticks ∧ template.2 ∈ ticks := by
  obtain ⟨front, back, rfl, -⟩ := exists_of_mem_templates h
  exact ⟨by simp, by simp⟩

/-- Among backticks in order, an odd number starts before a line exactly if the line starts
inside a template. -/
theorem any_templates {ticks : List Token}
    (hsorted : ticks.Pairwise fun a b => a.start.line ≤ b.start.line)
    (heven : ticks.length % 2 = 0) (n : Nat) :
    ((templates ticks).any fun template =>
        decide (template.1.start.line < n) && decide (n ≤ template.2.start.line)) =
      decide ((ticks.countP fun t => decide (t.start.line < n)) % 2 = 1) := by
  induction ticks using templates.induct with
  | case1 opening closing rest ih =>
    obtain ⟨hopening, hsorted⟩ := List.pairwise_cons.mp hsorted
    obtain ⟨hclosing, hsorted⟩ := List.pairwise_cons.mp hsorted
    have hle := hopening closing List.mem_cons_self
    have hrest := ih hsorted (by simp only [List.length_cons] at heven; omega)
    rw [templates, List.any_cons, hrest, List.countP_cons, List.countP_cons]
    by_cases hbefore : closing.start.line < n
    · -- The template is closed on a line before.
      have hcount : ∀ k, (k + 1 + 1) % 2 = k % 2 := by omega
      simp [hbefore, Nat.lt_of_le_of_lt hle hbefore, Nat.not_le.mpr hbefore, hcount]
    · have hnone : (rest.countP fun t => decide (t.start.line < n)) = 0 := by
        rw [List.countP_eq_zero]
        intro t ht hlt
        have hfrom := hclosing t ht
        rw [decide_eq_true_eq] at hlt
        omega
      rw [hnone]
      -- All later backticks are behind the line: the template is open there or begins behind it.
      by_cases hlt : opening.start.line < n
      · simp [hlt, hbefore, Nat.not_lt.mp hbefore]
      · simp [hlt, hbefore]
  | case2 ticks hshort =>
    cases ticks with
    | nil => rfl
    | cons t ticks =>
      cases ticks with
      | nil => simp at heven
      | cons u ticks => exact absurd rfl (hshort t u ticks)

/-- Once every template is closed, a line starts inside one exactly if an odd number of backticks
starts before it. -/
theorem startsInTemplate_eq {tokens : List Token}
    (hsorted : tokens.Pairwise fun a b => a.start.line ≤ b.start.line)
    (heven : tokens.countP (·.isOperator "\x60") % 2 = 0) (n : Nat) :
    startsInTemplate tokens n = decide (backticksBefore tokens n % 2 = 1) := by
  rw [List.countP_eq_length_filter] at heven
  have hcount : (tokens.filter (·.isOperator "\x60")).countP (fun t => decide (t.start.line < n)) =
      backticksBefore tokens n := by
    rw [List.countP_filter, backticksBefore]
    exact List.countP_congr fun t _ => by rw [Bool.and_comm]
  rw [startsInTemplate, any_templates (hsorted.filter _) heven, hcount]

/-- Once every template is closed, the lines as read are those that the scan went by. -/
theorem Source.lineRead_eq_readAt (source : Source) {tokens : List Token}
    (hsorted : tokens.Pairwise fun a b => a.start.line ≤ b.start.line)
    (heven : tokens.countP (·.isOperator "\x60") % 2 = 0) (n : Nat) :
    source.lineRead tokens n = source.readAt tokens n := by
  rw [lineRead, readAt, startsInTemplate_eq hsorted heven]
  simp only [decide_eq_true_eq]

/-! ### Slices -/

/-- **Slice**: how the value of a token is found in the lines of its source. -/
structure Token.SliceOf (line : Nat → List Char) (t : Token) : Prop where
  /-- An identifier, a keyword, an operator, a number or a regular expression is the text of
  its extent, on one line. -/
  verbatim : t.kind.isVerbatim → t.stop.line = t.start.line ∧
    t.value.toList = (line t.start.line).extract t.start.column t.stop.column
  /-- The extent of a string, on one line, is its value between two quotes. -/
  quoted : ∀ quote, t.kind = .string → t.quote = some quote → quote = '"' ∨ quote = '\'' →
    t.stop.line = t.start.line ∧ t.start.column + 2 ≤ t.stop.column ∧
    (line t.start.line)[t.start.column]? = some quote ∧
    (line t.start.line)[t.stop.column - 1]? = some quote ∧
    t.value.toList = (line t.start.line).extract (t.start.column + 1) (t.stop.column - 1)
  /-- A comment that opens with `//` has what follows on the line. -/
  lineComment : t.kind = .comment → "//".toList <+: (line t.start.line).drop t.start.column →
    t.stop = ⟨t.start.line, (line t.start.line).length⟩ ∧
    t.value.toList = (line t.start.line).drop (t.start.column + 2)

/-- **A source spells tokens** if all of them are slices of its lines as read. -/
def Source.Spells (source : Source) (tokens : List Token) : Prop :=
  ∀ t ∈ tokens, t.SliceOf (source.lineRead tokens)

/-- A slice depends on the line where it starts alone. -/
theorem Token.SliceOf.congr {line line' : Nat → List Char} {t : Token} (h : t.SliceOf line)
    (hline : line' t.start.line = line t.start.line) : t.SliceOf line' := by
  obtain ⟨hverbatim, hquoted, hcomment⟩ := h
  constructor
  case verbatim => rwa [hline]
  case quoted => rwa [hline]
  case lineComment => rwa [hline]

namespace Track

variable {s : Track} {t : Token}

/-- What a string of a line spells: its value behind one quote and before another. -/
theorem split_of_quoted {text value : List Char} {quote : Char} {n : Nat} (hle : n ≤ text.length)
    (htext : text.take n = quote :: value ++ [quote]) :
    n = value.length + 2 ∧ ∃ back, text = quote :: (value ++ quote :: back) := by
  constructor
  · have hlength := congrArg List.length htext
    rw [List.length_take_of_le hle] at hlength
    simpa using hlength
  · have hsplit := (List.take_append_drop n text).symm
    rw [htext] at hsplit
    exact ⟨text.drop n, hsplit.trans (by simp)⟩

/-- A token that spells the next characters of a line is a slice of it. -/
theorem sliceOf_of_spelled {line : Nat → List Char} {n : Nat} (hspans : Spans s (s.advance n) t)
    (hline : s.rest = (line s.line).drop s.column) (hle : n ≤ s.rest.length)
    (hspelled : Spelled (s.rest.take n) t) : t.SliceOf line := by
  have hstart : t.start.line = s.line ∧ t.start.column = s.column := by
    rw [hspans.start]
    exact ⟨rfl, rfl⟩
  have hstop : t.stop.line = s.line ∧ t.stop.column = s.column + n := by
    rw [hspans.stop]
    exact ⟨rfl, rfl⟩
  constructor
  case verbatim =>
    intro hverbatim
    cases hspelled with
    | verbatim _ hvalue =>
      rw [hstart.1, hstart.2, hstop.1, hstop.2, hvalue, String.toList_ofList,
        List.extract_eq_take_drop, Nat.add_sub_cancel_left, hline]
      exact ⟨rfl, rfl⟩
    | quoted _ _ hkind _ _ =>
      rw [hkind] at hverbatim
      cases hverbatim
  case quoted =>
    intro quote hkind hquote _
    cases hspelled with
    | verbatim hverbatim _ =>
      rw [hkind] at hverbatim
      cases hverbatim
    | quoted quote' _ _ hdelimiter htext =>
      obtain rfl : quote = quote' := Option.some.inj (hquote.symm.trans hdelimiter)
      obtain ⟨hn, back, hback⟩ := split_of_quoted hle htext
      rw [hline] at hback
      rw [hstart.1, hstart.2, hstop.1, hstop.2]
      refine ⟨rfl, by omega, ?_, ?_, ?_⟩
      · rw [← Nat.add_zero s.column, ← List.getElem?_drop, hback]
        rfl
      · rw [show s.column + n - 1 = s.column + (t.value.toList.length + 1) by omega,
          ← List.getElem?_drop, hback]
        simp
      · rw [List.extract_eq_take_drop, ← List.drop_drop, hback,
          show s.column + n - 1 - (s.column + 1) = t.value.toList.length by omega]
        simp
  case lineComment =>
    intro hkind _
    cases hspelled with
    | verbatim hverbatim _ =>
      rw [hkind] at hverbatim
      cases hverbatim
    | quoted _ _ hstring _ _ =>
      rw [hkind] at hstring
      cases hstring

/-- A token that spells no stretch of a line is under no rule but that of line comments: a comment,
the text of a template, or the end of the source. -/
theorem sliceOf_of_unspelled {line : Nat → List Char} (hverbatim : t.kind.isVerbatim = false)
    (hstring : t.kind = .string → t.quote = some '\x60')
    (hline : t.kind = .comment → "//".toList <+: (line t.start.line).drop t.start.column →
      t.stop = ⟨t.start.line, (line t.start.line).length⟩ ∧
        t.value.toList = (line t.start.line).drop (t.start.column + 2)) : t.SliceOf line := by
  constructor
  case verbatim =>
    intro hkind
    rw [hverbatim] at hkind
    cases hkind
  case quoted =>
    intro quote hkind hquote hor
    obtain rfl := Option.some.inj ((hstring hkind).symm.trans hquote)
    exact absurd hor (by decide)
  case lineComment => exact hline

end Track

/-! ### The invariant -/

/-- **Sliced**: the tokens so far are slices of the lines as read. -/
structure Sliced (source : Source) (s : Track) : Prop where
  placed : Placed source s
  /-- Tokens are in the order of the lines on which they start. -/
  sorted : s.tokens.Pairwise fun later earlier => earlier.start.line ≤ later.start.line
  slices : ∀ t ∈ s.tokens, t.SliceOf (source.readAt s.tokens)

namespace Sliced

variable {source : Source} {s u : Track}

/-- Without a new token nothing is to be shown. -/
theorem skip (h : Sliced source s) (hu : Placed source u) (htokens : u.tokens = s.tokens) :
    Sliced source u :=
  ⟨hu, htokens ▸ h.sorted, htokens ▸ h.slices⟩

/-- A token from the place reached is added to the slices.  How the lines up to that place were
read it does not change. -/
theorem extend (h : Sliced source s) {t : Token} (hadd : Placed source (u.add t))
    (htokens : u.tokens = s.tokens) (hspans : Spans s u t)
    (hslice : t.SliceOf (source.readAt s.tokens)) : Sliced source (u.add t) := by
  have hstart : t.start.line = s.line := congrArg Position.line hspans.start
  have hadded : (u.add t).tokens = t :: s.tokens := congrArg (t :: ·) htokens
  have hread : ∀ n ≤ s.line, source.readAt (t :: s.tokens) n = source.readAt s.tokens n :=
    fun n hn => source.readAt_cons_of_le s.tokens fun _ => hstart ▸ hn
  refine ⟨hadd, ?_, ?_⟩
  · rw [hadded]
    exact List.pairwise_cons.mpr ⟨fun x hx => hstart ▸ h.placed.start_le x hx, h.sorted⟩
  · rw [hadded]
    intro x hx
    rcases List.mem_cons.mp hx with rfl | hx
    · exact hslice.congr (hread _ (Nat.le_of_eq hstart))
    · exact (h.slices x hx).congr (hread _ (h.placed.start_le x hx))

theorem of_lexeme (h : Sliced source s) (hlex : Lexeme s u) : Sliced source u := by
  have hu := h.placed.of_lexeme hlex
  obtain ⟨hpos, hle, hspans, hspelled, hnest⟩ := hlex
  exact h.extend hu rfl hspans (sliceOf_of_spelled hspans h.placed.rest hle hspelled)

theorem of_part (h : Sliced source s) (hpart : Part s u) : Sliced source u := by
  have hu := h.placed.of_part hpart
  obtain @⟨v, n, t, opening, hmode, hcross, hlt, hspans, hkind, hquote⟩ := hpart
  have htokens : (v.advance n).tokens = s.tokens := crosses_tokens (s := s) (t := v) hcross
  exact h.extend hu htokens hspans (sliceOf_of_unspelled
    (by simp [hkind, TokenKind.isVerbatim]) (fun _ => hquote) (by simp [hkind]))

theorem of_move (h : Sliced source s) (hmove : Move s u) : Sliced source u := by
  have hu := h.placed.of_move hmove
  have hrest := h.placed.rest
  cases hmove with
  | line _ _ => exact h.skip hu rfl
  | blanks _ _ _ => exact h.skip hu rfl
  | lexeme hlex => exact h.of_lexeme hlex
  | @lineComment value t hopen hspans hkind hvalue =>
    refine h.extend hu rfl hspans (sliceOf_of_unspelled (by simp [hkind, TokenKind.isVerbatim])
      (by simp [hkind]) fun _ _ => ?_)
    have hlength := h.placed.length_rest
    have hcolumn := h.placed.column_le
    rw [hspans.start, hspans.stop, hvalue, String.toList_ofList, source.length_readAt]
    refine ⟨congrArg (Position.mk s.line) (?_ : s.column + s.rest.length = _), ?_⟩
    · show _ = source.lengthAt s.line
      omega
    · show value = (source.readAt s.tokens s.line).drop (s.column + 2)
      rw [← List.drop_drop, ← hrest, hopen]
      rfl
  | @blockComment text v n t hopen hcross hle hspans hkind =>
    have htokens : (v.advance n).tokens = s.tokens :=
      crosses_tokens (s := s.advance 2) (t := v) hcross
    refine h.extend hu htokens hspans (sliceOf_of_unspelled
      (by simp [hkind, TokenKind.isVerbatim]) (by simp [hkind]) fun _ hline => ?_)
    have hstart : t.start.line = s.line ∧ t.start.column = s.column := by
      rw [hspans.start]
      exact ⟨rfl, rfl⟩
    -- A block comment opens with a star behind its slash.
    rw [hstart.1, hstart.2, ← hrest, hopen] at hline
    exact absurd hline (by simp)

theorem of_leg (h : Sliced source s) (hleg : Leg s u) : Sliced source u := by
  cases hleg with
  | move _ hmove => exact h.of_move hmove
  | template hpart hstop => exact (h.of_part hpart).of_lexeme hstop

/-- At the beginning there are no tokens. -/
theorem initial (source : Source) : Sliced source (State.initial source.lines.toList).track := by
  have htokens := State.tokens_initial source.lines.toList
  refine ⟨.initial source, ?_, ?_⟩
  · simp [htokens]
  · simp [htokens]

end Sliced

/-- Every reached state has slices as its tokens. -/
theorem sliced_of_reaches {source : Source} {s : State}
    (h : State.Reaches (.initial source.lines.toList) s) : Sliced source s.track :=
  h.invariant (fun _ _ hs hleg => hs.of_leg hleg) (.initial source)

/-! ### What was read stays read -/

namespace Track

/-- **Going on**: a track and one after it, whose new tokens start no earlier. -/
structure GoesOn (s u : Track) : Prop where
  line_le : s.line ≤ u.line
  tokens : ∃ front, u.tokens = front ++ s.tokens ∧ ∀ t ∈ front, s.line ≤ t.start.line

namespace GoesOn

variable {s u v : Track}

theorem refl (s : Track) : GoesOn s s := ⟨Nat.le_refl _, [], rfl, by simp⟩

theorem trans (h : GoesOn s u) (h' : GoesOn u v) : GoesOn s v := by
  obtain ⟨hline, front, htokens, hstart⟩ := h
  obtain ⟨hline', front', htokens', hstart'⟩ := h'
  refine ⟨hline.trans hline', front' ++ front, ?_, ?_⟩
  · rw [htokens', htokens, List.append_assoc]
  · intro t ht
    rcases List.mem_append.mp ht with ht | ht
    · exact hline.trans (hstart' t ht)
    · exact hstart t ht

/-- A scan goes on by the token it adds. -/
theorem add {t : Token} (hline : s.line ≤ u.line) (htokens : u.tokens = s.tokens)
    (hspans : Spans s u t) : GoesOn s (u.add t) := by
  refine ⟨hline, [t], congrArg (t :: ·) htokens, ?_⟩
  intro x hx
  rw [List.mem_singleton.mp hx, hspans.start]
  exact Nat.le_refl _

theorem of_lexeme (hlex : Lexeme s u) : GoesOn s u := by
  obtain ⟨hpos, hle, hspans, hspelled, hnest⟩ := hlex
  exact add (Nat.le_refl _) rfl hspans

theorem of_part (hpart : Part s u) : GoesOn s u := by
  obtain @⟨v, n, t, opening, hmode, hcross, hlt, hspans, hkind, hquote⟩ := hpart
  exact add (line_le_of_crosses (s := s) (u := v) hcross)
    (crosses_tokens (s := s) (t := v) hcross) hspans

theorem of_leg (hleg : Leg s u) : GoesOn s u := by
  cases hleg with
  | template hpart hstop => exact (of_part hpart).trans (of_lexeme hstop)
  | move _ hmove =>
    cases hmove with
    | line _ _ => exact ⟨Nat.le_succ _, [], rfl, by simp⟩
    | blanks _ _ _ => exact ⟨Nat.le_refl _, [], rfl, by simp⟩
    | lexeme hlex => exact of_lexeme hlex
    | lineComment _ hspans _ _ => exact add (Nat.le_refl _) rfl hspans
    | @blockComment text v n t _ hcross _ hspans _ =>
      exact add (line_le_of_crosses (s := s.advance 2) (u := v) hcross)
        (crosses_tokens (s := s.advance 2) (t := v) hcross) hspans

/-- How the lines up to the current one were read does not change. -/
theorem readAt_eq (h : GoesOn s u) (source : Source) {n : Nat} (hn : n ≤ s.line) :
    source.readAt u.tokens n = source.readAt s.tokens n := by
  obtain ⟨-, front, htokens, hstart⟩ := h
  rw [htokens]
  clear htokens
  induction front with
  | nil => rfl
  | cons t front ih =>
    rw [List.cons_append,
      source.readAt_cons_of_le _ fun _ => hn.trans (hstart t List.mem_cons_self)]
    exact ih fun x hx => hstart x (List.mem_cons_of_mem t hx)

end GoesOn

end Track

/-! ### Completed scans -/

/-- A completed scan has closed every template, so its backticks are even in number. -/
theorem even_backticks_of_scan {source : Source} (h : (scan source).fault = none) :
    (scan source).tokens.countP (·.isOperator "\x60") % 2 = 0 := by
  obtain ⟨s, hreach, hmode, -, -, e, hkind, -, htokens⟩ := reached_of_completed h .refl
  have hclosed : s.track.inTemplate = false := by
    show s.mode.opening?.isSome = false
    rw [hmode]
    rfl
  have hparity := hclosed.symm.trans (placed_of_reaches hreach).inTemplate_eq
  rw [eq_comm, decide_eq_false_iff_not] at hparity
  rw [htokens, List.countP_reverse, List.countP_cons_of_neg (by simp [Token.isOperator, hkind])]
  exact Nat.mod_two_ne_one.mp hparity

/-- In a completed scan the lines as read are those that the scan goes by at its end. -/
theorem lineRead_of_completed {source : Source} (h : (scan source).fault = none) {s : State}
    (hreach : State.Reaches (.initial source.lines.toList) s) :
    ∃ t : State, State.Reaches s t ∧ Sliced source t.track ∧
      ∃ e : Token, e.kind = .eof ∧ (scan source).tokens = (e :: t.tokens).reverse ∧
        ∀ n, source.lineRead (scan source).tokens n = source.readAt t.tokens n := by
  obtain ⟨t, hon, -, -, -, e, hkind, hspans, htokens⟩ := reached_of_completed h hreach
  have ht : Sliced source t.track := sliced_of_reaches (hreach.trans hon)
  refine ⟨t, hon, ht, e, hkind, htokens, fun n => ?_⟩
  have hop : e.isOperator "\x60" = false := by simp [Token.isOperator, hkind]
  have hend : e.start.line = t.line := congrArg Position.line hspans.start
  have hsorted : (e :: t.tokens).Pairwise fun later earlier =>
      earlier.start.line ≤ later.start.line :=
    List.pairwise_cons.mpr ⟨fun x hx => hend ▸ ht.placed.start_le x hx, ht.sorted⟩
  have heven := even_backticks_of_scan h
  have hreverse : backticksBefore (e :: t.tokens).reverse n = backticksBefore t.tokens n := by
    rw [backticksBefore, List.countP_reverse]
    exact backticksBefore_cons_of_le t.tokens fun htick => by rw [hop] at htick; cases htick
  rw [htokens] at heven ⊢
  rw [source.lineRead_eq_readAt (List.pairwise_reverse.mpr hsorted) heven, Source.readAt, hreverse,
    ← Source.readAt]

/-- **The lines as read** are what a scan that completes goes by: up to where it stands, its
tokens so far tell how each line is read. -/
theorem lineRead_of_reaches_completed {source : Source} (h : (scan source).fault = none) {s : State}
    (hreach : State.Reaches (.initial source.lines.toList) s) {n : Nat} (hn : n ≤ s.line) :
    source.lineRead (scan source).tokens n = source.readAt s.tokens n := by
  obtain ⟨t, hon, -, -, -, -, hread⟩ := lineRead_of_completed h hreach
  have hgoes : GoesOn s.track t.track :=
    hon.invariant (fun _ _ hs hleg => hs.trans (.of_leg hleg)) (.refl _)
  exact (hread n).trans (hgoes.readAt_eq source hn)

/-- Wherever a scan that completes stands, what is left of the line is the line as read from the
column on. -/
theorem rest_of_reaches_completed {source : Source} (h : (scan source).fault = none) {s : State}
    (hreach : State.Reaches (.initial source.lines.toList) s) :
    s.rest = (source.lineRead (scan source).tokens s.line).drop s.column := by
  rw [lineRead_of_reaches_completed h hreach (Nat.le_refl _)]
  exact (placed_of_reaches hreach).rest

/-- **Token values are slices.**  Under any settings, a source spells the tokens of a pass that
completes. -/
theorem spells_of_completed (settings : Settings) (text : String)
    (h : (Pass.run settings text).abort = none) :
    (Source.ofString text).Spells (Pass.run settings text).tokens := by
  obtain ⟨s, -, hs, e, hkind, htokens, hread⟩ :=
    lineRead_of_completed (fault_eq_none_of_abort h) .refl
  intro t ht
  rw [show (Pass.run settings text).tokens = (e :: s.tokens).reverse from htokens,
    List.mem_reverse] at ht
  rcases List.mem_cons.mp ht with rfl | ht
  · exact sliceOf_of_unspelled (by simp [hkind, TokenKind.isVerbatim]) (by simp [hkind])
      (by simp [hkind])
  · exact (hs.slices t ht).congr (hread _)

/-- A string, a number, a regular expression and a comment; the second tab is in a template. -/
theorem spells_of_literals :
    (Source.ofString "a('\\u00e9',\t1e+5);\n\x60\n\t$\x7b/[b]+/g\x7d\x60; // d").Spells
      (Pass.run {} "a('\\u00e9',\t1e+5);\n\x60\n\t$\x7b/[b]+/g\x7d\x60; // d").tokens :=
  spells_of_completed {} _ (by decide +kernel)

end ScriptLint
