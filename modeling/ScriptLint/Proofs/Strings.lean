import ScriptLint.Proofs.Literal.Escaping
import ScriptLint.Proofs.Scan.Placement

/-!
# Where strings end

A string ends at the first quote behind its opening that no escape takes; without one the
scan stops on that line.  Malformed escapes change nothing about that but for one: where
the closing brace of a braced escape is missing, the escape takes what stands there
instead, and that may be the quote.

Unless it does, the end of a string can be told by counting: it is the first quote with
an even number of backslashes right before it.

## Main definitions

* `State.OpensString`, `State.ReadsString` — a string ahead, and the token it gives
* `StringsEnd` — where the strings of a source end

## Main statements

* `strings_end` — strings end there, under any settings
* `unclosed_at_brace` — a quote in the place of a brace does not end its string
-/

namespace ScriptLint

namespace Strand

variable (around : Surroundings) {quote : Char}

/-- A quote begins no escape. -/
theorem quote_ne_backslash (hquote : quote = '"' ∨ quote = '\'') : quote ≠ '\\' := by
  rcases hquote with rfl | rfl <;> decide

/-- No quote is among hexadecimal digits. -/
theorem quote_not_mem_of_digits (hquote : quote = '"' ∨ quote = '\'') {text : List Char}
    (h : ∀ c ∈ text, isHexDigit c = true) : quote ∉ text := by
  intro hmem
  have hnone : isHexDigit quote = false := by
    rcases hquote with rfl | rfl <;> decide
  exact ne_of_isHexDigit (h quote hmem) hnone rfl

/-- Of a single character no other one is loose. -/
theorem not_mem_loose_singleton {stage : Stage} {c d : Char} (h : c ≠ d) :
    d ∉ stage.loose [c] :=
  fun hmem => h (List.mem_singleton.mp (Stage.mem_of_mem_loose hmem)).symm

/-- **The contents of a string** go up to the first quote that no escape takes. -/
theorem passes_of_quoted (hquote : quote = '"' ∨ quote = '\'') {s t : Strand} {stage : Stage}
    (hreleased : stage.Released [quote] s.rest) (h : s.quoted around quote = .ok t) :
    ∃ body, s.Passes body t ∧ quote ∉ stage.loose body ∧
      (stage.behind body).takes quote = false := by
  fun_induction quoted around quote s generalizing stage with
  | case1 => simp [halt] at h
  | case2 => simp at h
  | case3 s tail u hu hs ih =>
    rw [hs] at hreleased
    obtain ⟨piece, hpiece, hdigits, hleft⟩ := passes_of_escape around hs hreleased.after_eq hu
    obtain ⟨body, hbody, hnone, htakes⟩ := ih hleft h
    refine ⟨piece ++ body, hpiece.trans hbody, ?_, ?_⟩
    · rw [Stage.loose_append, List.mem_append, not_or]
      exact ⟨quote_not_mem_of_digits hquote hdigits, hnone⟩
    · rwa [Stage.behind_append]
  | case4 s tail hs _ =>
    obtain rfl := Except.ok.inj h
    rw [hs] at hreleased
    refine ⟨[], .refl s, by simp, ?_⟩
    exact hreleased.not_takes (quote_ne_backslash hquote) (.inr List.mem_cons_self)
  | case5 s c tail hs hslash hne ih =>
    rw [hs] at hreleased
    have hafter := hreleased.after_of_ne hslash
    obtain ⟨body, hbody, hnone, htakes⟩ := ih (.outside _ _) h
    refine ⟨[c] ++ body, (Passes.take_noted hs (by simp) (by simp)).trans hbody, ?_, ?_⟩
    · rw [Stage.loose_append, Stage.behind_cons, hafter, List.mem_append, not_or]
      exact ⟨not_mem_loose_singleton hne, hnone⟩
    · rwa [Stage.behind_append, Stage.behind_cons, hafter]

/-- **An unclosed string** has no quote that no escape takes; the fault is behind the line. -/
theorem fault_of_quoted (hquote : quote = '"' ∨ quote = '\'') {s : Strand} {stop : Halt}
    {stage : Stage} (hreleased : stage.Released [quote] s.rest)
    (h : s.quoted around quote = .error stop) :
    quote ∉ stage.loose s.rest ∧ stop.fault =
      { rule := .unclosedString, line := around.line,
        column := around.origin + s.taken.length + s.rest.length + 1 } := by
  fun_induction quoted around quote s generalizing stage with
  | case1 s hs =>
    obtain rfl := Except.error.inj h
    rw [hs]
    exact ⟨by simp, rfl⟩
  | case2 s tail stop' hstop hs =>
    obtain rfl := Except.error.inj h
    obtain ⟨rfl, hfault⟩ := fault_of_escape around hs hstop
    rw [hfault, hs, Stage.loose_cons_of_takes (Stage.takes_backslash stage)]
    exact ⟨by simp, rfl⟩
  | case3 s tail u hu hs ih =>
    rw [hs] at hreleased
    obtain ⟨piece, hpiece, hdigits, hleft⟩ := passes_of_escape around hs hreleased.after_eq hu
    obtain ⟨hnone, hfault⟩ := ih hleft h
    refine ⟨?_, ?_⟩
    · rw [hpiece.rest, Stage.loose_append, List.mem_append, not_or]
      exact ⟨quote_not_mem_of_digits hquote hdigits, hnone⟩
    · rw [hfault, hpiece.rest, hpiece.taken]
      simp only [List.length_append, List.length_reverse]
      congr 1
      omega
  | case4 => cases h
  | case5 s c tail hs hslash hne ih =>
    rw [hs] at hreleased
    obtain ⟨hnone, hfault⟩ := ih (.outside _ _) h
    refine ⟨?_, ?_⟩
    · rw [hs, ← List.singleton_append, Stage.loose_append, Stage.behind_cons,
        hreleased.after_of_ne hslash, List.mem_append, not_or]
      rw [rest_take, rest_noteIf, hs] at hnone
      exact ⟨not_mem_loose_singleton hne, hnone⟩
    · rw [hfault, rest_take, rest_noteIf, taken_take, taken_noteIf, rest_noteIf, hs]
      simp only [List.head?_cons, Option.toList_some, List.singleton_append, List.tail_cons,
        List.length_cons]
      congr 1
      omega

/-- The first loose quote of a text is where its contents end. -/
theorem eq_of_first_loose {stage : Stage} {body body' back back' : List Char}
    (h : body ++ quote :: back = body' ++ quote :: back') (hnone : quote ∉ stage.loose body)
    (htakes : (stage.behind body).takes quote = false) (hnone' : quote ∉ stage.loose body')
    (htakes' : (stage.behind body').takes quote = false) : body = body' := by
  rcases List.append_eq_append_iff.mp h with ⟨between, rfl, hback⟩ | ⟨between, rfl, hback⟩
  · rcases List.cons_eq_append_iff.mp hback with ⟨rfl, -⟩ | ⟨between, rfl, -⟩
    · exact (List.append_nil _).symm
    · exact absurd (Stage.mem_loose_iff.mpr ⟨body, between, rfl, htakes⟩) hnone'
  · rcases List.cons_eq_append_iff.mp hback with ⟨rfl, -⟩ | ⟨between, rfl, -⟩
    · exact List.append_nil _
    · exact absurd (Stage.mem_loose_iff.mpr ⟨body', between, rfl, htakes'⟩) hnone

/-- **A string with a quote that no escape takes** is read up to the first one. -/
theorem quoted_of_loose (hquote : quote = '"' ∨ quote = '\'') {body back : List Char}
    (hnone : quote ∉ Stage.outside.loose body)
    (htakes : (Stage.outside.behind body).takes quote = false) :
    ∃ t : Strand, ({ rest := body ++ quote :: back } : Strand).quoted around quote = .ok t ∧
      t.taken = body.reverse := by
  have hreleased := Stage.Released.outside [quote] (body ++ quote :: back)
  cases hread : ({ rest := body ++ quote :: back } : Strand).quoted around quote with
  | error stop =>
    obtain ⟨hall, -⟩ := fault_of_quoted around hquote hreleased hread
    exact absurd (Stage.mem_loose_iff.mpr ⟨body, back, rfl, htakes⟩) hall
  | ok t =>
    obtain ⟨body', hpasses, hnone', htakes'⟩ := passes_of_quoted around hquote hreleased hread
    obtain ⟨back', hback'⟩ := List.head?_eq_some_iff.mp (head?_rest_of_quoted around hread)
    have hsplit : body ++ quote :: back = body' ++ quote :: back' := by
      rw [← hback']
      exact hpasses.rest
    obtain rfl := eq_of_first_loose hsplit hnone htakes hnone' htakes'
    exact ⟨t, rfl, by simpa using hpasses.taken⟩

/-- **A string without a quote that no escape takes** is a fault. -/
theorem quoted_of_not_loose (hquote : quote = '"' ∨ quote = '\'') {tail : List Char}
    (hnone : quote ∉ Stage.outside.loose tail) :
    ∃ stop : Halt, ({ rest := tail } : Strand).quoted around quote = .error stop ∧
      stop.fault = { rule := .unclosedString, line := around.line,
                     column := around.origin + tail.length + 1 } := by
  have hreleased := Stage.Released.outside [quote] tail
  cases hread : ({ rest := tail } : Strand).quoted around quote with
  | error stop => exact ⟨stop, rfl, (fault_of_quoted around hquote hreleased hread).2⟩
  | ok t =>
    obtain ⟨body, hpasses, -, htakes⟩ := passes_of_quoted around hquote hreleased hread
    obtain ⟨back, hback⟩ := List.head?_eq_some_iff.mp (head?_rest_of_quoted around hread)
    have hsplit : tail = body ++ quote :: back := by
      rw [← hback]
      exact hpasses.rest
    exact absurd (Stage.mem_loose_iff.mpr ⟨body, back, hsplit, htakes⟩) hnone

end Strand

/-! ### Steps -/

namespace State

/-- **A string ahead**: in code or in an interpolation a quote comes next, with a text behind it on
the line. -/
structure OpensString (s : State) (quote : Char) (tail : List Char) : Prop where
  mode : ∀ opening, s.mode ≠ .template opening
  delimiter : quote = '"' ∨ quote = '\''
  rest : s.rest = quote :: tail

/-- **A string read**: the next token is a string with these contents, and ends right behind the
quote after them. -/
def ReadsString (s : State) (quote : Char) (body : List Char) : Prop :=
  ∃ (t : State) (token : Token), s.step = .next t ∧ t.tokens = token :: s.tokens ∧
    token.kind = .string ∧ token.quote = some quote ∧ token.value = String.ofList body ∧
    token.start = s.position ∧ token.stop = ⟨s.line, s.column + body.length + 2⟩

variable {s : State} {quote : Char}

theorem OpensString.step_eq {tail : List Char} (h : s.OpensString quote tail) :
    s.step = s.roused.string quote := by
  obtain ⟨hmode, hquote, hrest⟩ := h
  rcases hquote with rfl | rfl
  all_goals
    rw [step_of_operator hmode hrest (by decide) (by decide) (by decide) (Nat.succ_ne_zero 0)]
    unfold operator
    rw [show s.roused.rest = _ from hrest]
    rfl

/-- The first quote that no escape takes ends the string. -/
theorem OpensString.reads {body back : List Char} (h : s.OpensString quote (body ++ quote :: back))
    (hnone : quote ∉ Stage.outside.loose body)
    (htakes : (Stage.outside.behind body).takes quote = false) : s.ReadsString quote body := by
  obtain ⟨read, hread, htaken⟩ :=
    @Strand.quoted_of_loose (s.roused.surroundings 1) quote h.delimiter body back hnone htakes
  have hrest : s.roused.rest.tail = body ++ quote :: back := congrArg List.tail h.rest
  let t := (s.roused.noteAll read.findings).advance (read.taken.length + 2)
  let token : Token :=
    { t.token .string read.text s.roused.position with quote := some quote }
  have hlength : read.taken.length = body.length := by
    rw [htaken, List.length_reverse]
  have htokens : (t.push token).tokens = token :: s.tokens :=
    congrArg Track.tokens (track_push t token)
  refine ⟨t.push token, token, ?_, htokens, rfl, rfl, ?_, rfl, ?_⟩
  · rw [h.step_eq, string, hrest, hread]
  · show String.ofList read.taken.reverse = _
    rw [htaken, List.reverse_reverse]
  · show (⟨s.line, s.column + (read.taken.length + 2)⟩ : Position) = _
    rw [hlength, Nat.add_assoc]

/-- Without such a quote the step fails behind the end of the line. -/
theorem OpensString.fails {tail : List Char} (h : s.OpensString quote tail)
    (hnone : quote ∉ Stage.outside.loose tail) :
    ∃ t, s.step = .failed t { rule := .unclosedString, line := s.line,
                              column := s.column + s.rest.length + 1 } := by
  obtain ⟨stop, hread, hfault⟩ := Strand.quoted_of_not_loose (s.roused.surroundings 1) h.delimiter
    hnone
  have hrest : s.roused.rest.tail = tail := congrArg List.tail h.rest
  refine ⟨(s.roused.noteAll stop.findings).leaveLine, ?_⟩
  rw [h.step_eq, string, hrest, hread, h.rest, List.length_cons]
  show Step.failed _ stop.fault = _
  rw [hfault]
  show Step.failed _ (Finding.mk _ _ (s.column + 1 + tail.length + 1) _ _) = _
  rw [Nat.add_right_comm s.column 1 tail.length, Nat.add_assoc s.column]
  rfl

end State

/-! ### Passes -/

/-- A string that is not closed stops the pass at the end of its line. -/
theorem abort_of_unclosed (settings : Settings) {text : String} {s : State}
    (hreach : State.Reaches (.initial (Source.ofString text).lines.toList) s) {quote : Char}
    {tail : List Char} (hopens : s.OpensString quote tail)
    (hnone : quote ∉ Stage.outside.loose tail) : (Pass.run settings text).abort =
      some ⟨.unclosedString, s.line, (Source.ofString text).lengthAt s.line⟩ := by
  have hplaced := placed_of_reaches hreach
  obtain ⟨t, hstep⟩ := hopens.fails hnone
  have hne : s.rest ≠ [] := by
    rw [hopens.rest]
    exact List.cons_ne_nil _ _
  -- The fault stands behind the line, which is not empty.
  have hlength : s.rest.length = (Source.ofString text).lengthAt s.line - s.column :=
    hplaced.length_rest
  have hcolumn : s.column ≤ (Source.ofString text).lengthAt s.line := hplaced.column_le
  have hpos := List.length_pos_iff.mpr hne
  have hinside : 1 ≤ s.line ∧ s.line ≤ (Source.ofString text).lastIndex :=
    ⟨hplaced.one_le_line hne, hplaced.line_le⟩
  have hbeyond : (Source.ofString text).lengthAt s.line ≤ s.column + s.rest.length + 1 := by
    omega
  rw [abort_of_failed settings hreach hstep, Source.clampLine_of_inside hinside,
    Source.clampColumn_of_beyond (by omega) hbeyond]

/-- **Where strings end**, in a pass over a text.  The first two laws are exact; the other two put
them by the number of backslashes, up to the first overrun. -/
structure StringsEnd (settings : Settings) (text : String) : Prop where
  /-- The first quote that no escape takes ends the string. -/
  closed : ∀ (s : State) (quote : Char) (body back : List Char),
    State.Reaches (.initial (Source.ofString text).lines.toList) s →
    s.OpensString quote (body ++ quote :: back) → quote ∉ Stage.outside.loose body →
    (Stage.outside.behind body).takes quote = false → s.ReadsString quote body
  /-- Without one the pass stops at the end of the line. -/
  unclosed : ∀ (s : State) (quote : Char) (tail : List Char),
    State.Reaches (.initial (Source.ofString text).lines.toList) s →
    s.OpensString quote tail → quote ∉ Stage.outside.loose tail →
    (Pass.run settings text).abort =
      some ⟨.unclosedString, s.line, (Source.ofString text).lengthAt s.line⟩
  /-- Up to the first overrun the first quote behind an even number of backslashes ends the
  string. -/
  closedAtEven : ∀ (s : State) (quote : Char) (body back : List Char),
    State.Reaches (.initial (Source.ofString text).lines.toList) s →
    s.OpensString quote (body ++ quote :: back) → ¬Overruns quote (body ++ [quote]) →
    ¬EndsEscaping body → (∀ front between, body = front ++ quote :: between → EndsEscaping front) →
    s.ReadsString quote body
  /-- Up to the first overrun a string without such a quote stops the pass. -/
  unclosedAtOdd : ∀ (s : State) (quote : Char) (tail : List Char),
    State.Reaches (.initial (Source.ofString text).lines.toList) s →
    s.OpensString quote tail → ¬Overruns quote tail →
    (∀ front back, tail = front ++ quote :: back → EndsEscaping front) →
    (Pass.run settings text).abort =
      some ⟨.unclosedString, s.line, (Source.ofString text).lengthAt s.line⟩

/-- **Strings end at their first quote in no escape**, under any settings and on every text. -/
theorem strings_end (settings : Settings) (text : String) : StringsEnd settings text where
  closed := fun _ _ _ _ _ hopens => hopens.reads
  unclosed := fun _ _ _ hreach hopens => abort_of_unclosed settings hreach hopens
  closedAtEven := by
    intro s quote body back _ hopens hover heven hearlier
    have hbody : ¬Overruns quote body := fun h => hover (h.append [quote])
    refine hopens.reads ((not_mem_loose_iff hopens.delimiter hbody).mpr hearlier) ?_
    rw [Bool.eq_false_iff]
    exact fun htakes => heven ((takes_iff_endsEscaping hopens.delimiter hover).mp htakes)
  unclosedAtOdd := by
    intro s quote tail hreach hopens hover hodd
    exact abort_of_unclosed settings hreach hopens
      ((not_mem_loose_iff hopens.delimiter hover).mpr hodd)

/-- **A quote in the place of a closing brace** belongs to the escape and does not end its string,
though no backslash stands before it. -/
theorem unclosed_at_brace :
    (Pass.run {} "'\\u\x7b12'").abort = some ⟨.unclosedString, 1, 7⟩ ∧
      ¬EndsEscaping "\\u\x7b12".toList := by
  let source := Source.ofString "'\\u\x7b12'"
  let s : State := { line := 1, rest := "'\\u\x7b12'".toList, below := [] }
  have hreach : State.Reaches (.initial source.lines.toList) s := .single rfl
  have hopens : s.OpensString '\'' "\\u\x7b12'".toList := ⟨by simp [s], .inr rfl, by decide⟩
  have hlength : source.lengthAt s.line = 7 := by decide
  have habort := (strings_end {} "'\\u\x7b12'").unclosed s '\'' _ hreach hopens (by decide)
  refine ⟨?_, by decide⟩
  rwa [show (Source.ofString "'\\u\x7b12'").lengthAt s.line = 7 from hlength] at habort

end ScriptLint
