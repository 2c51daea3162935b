import ScriptLint.Proofs.Scan.Steps

/-!
# Where a failed scan stands

A step that meets a fault leaves a track as well.  It stands where the scan stood, or at
the end of the source if a comment or the text of a template was looked for up to there, or
behind the one operator that is added before it turns out to be out of place.

## Main definitions

* `Track.Stops` — what a failed step does on the track

## Main statements

* `State.stops_of_step` — a step that fails stops so
* `State.failed_of_nested` — a backtick in an interpolation is a fault
-/

namespace ScriptLint

open Track

/-- **Stop**: what a step that fails has done. -/
inductive Track.Stops (s : Track) : Track → Prop
  /-- It went over an opening, if any, and crossed lines, if any. -/
  | crossing {n : Nat} {u : Track} (hle : n ≤ s.rest.length) (hcross : Crosses (s.advance n) u) :
      Stops s u
  /-- It added a token. -/
  | lexeme {u : Track} (hlex : Lexeme s u) : Stops s u

namespace State

variable {s t : State} {fault : Finding}

/-- A step that fails where it began. -/
theorem stops_of_track (h : t.track = s.track) : Stops s.track t.track := by
  rw [h]
  exact .crossing (Nat.zero_le _) (.here _)

theorem track_of_fail {rule : Rule} {line column : Nat} {args : List String}
    (h : s.fail rule line column args = .failed t fault) : t.track = s.track := by
  obtain ⟨rfl, -⟩ := Step.failed.inj h
  exact track_leaveLine s

theorem track_of_failWith {halt : Halt} (h : s.failWith halt = .failed t fault) :
    t.track = s.track := by
  obtain ⟨rfl, -⟩ := Step.failed.inj h
  exact track_leaveLine _

/-! ### Literals -/

theorem track_of_number_failed {lead : Nat} (h : s.number lead = .failed t fault) :
    t.track = s.track := by
  unfold number at h
  split at h
  · exact track_of_failWith h
  · cases h

theorem track_of_string_failed {quote : Char} (h : s.string quote = .failed t fault) :
    t.track = s.track := by
  unfold string at h
  split at h
  · exact track_of_failWith h
  · cases h

theorem track_of_regex_failed {role : SlashRole} (h : s.regex role = .failed t fault) :
    t.track = s.track := by
  unfold regex at h
  extract_lets u at h
  have hu : u.track = s.track := rfl
  split at h
  · exact (track_of_failWith h).trans hu
  · split at h <;> cases h

theorem track_of_backtick_failed (h : s.backtick = .failed t fault) : t.track = s.track := by
  unfold backtick at h
  split at h
  · exact track_of_fail h
  · cases h

/-! ### Braces, comments and templates -/

/-- The opening brace that an interpolation does not allow is added before. -/
theorem stops_of_punctuation {n : Nat} (hpos : 0 < n) (hle : n ≤ s.rest.length)
    (h : s.punctuation n = .failed t fault) : Stops s.track t.track := by
  unfold punctuation at h
  extract_lets value u at h
  split at h
  · next opening hmode =>
    split at h
    · cases h
    · split at h
      · next hvalue =>
        -- The brace is added first, and leaves the mode alone.
        rw [track_of_fail h]
        refine .lexeme (lexeme_pushNext hpos hle rfl rfl ?_ ?_)
        · intro t _ ht
          simp [hmode, Mode.after, Token.isOperator, ht.trans hvalue]
        · intro _ htick
          exact absurd (hvalue.symm.trans htick) (by decide)
      · cases h
  · cases h

/-- The end of a block comment is looked for over lines. -/
theorem crosses_of_closeComment_error {parts : List String}
    (h : s.closeComment parts = .error t) : Crosses s.track t.track := by
  fun_induction closeComment parts s with
  | case1 => simp at h
  | case2 parts s hi s' u hu ih =>
    have hs' : s'.track = s.track := by simp [s']
    exact hs' ▸ crosses_of_nextLine? hu (ih h)
  | case3 parts s hi s' hu =>
    obtain rfl := Except.error.inj h
    rw [show s'.track = s.track by simp [s']]
    exact .here _

/-- The stop of the text of a template is looked for over lines. -/
theorem crosses_of_templateText_error {text : List Char} (h : s.templateText text = .error t) :
    Crosses s.track t.track := by
  fun_induction templateText text s with
  | case1 text s read hread u hu ih => exact crosses_of_nextLine? hu (ih h)
  | case2 text s read hread hu =>
    obtain rfl := Except.error.inj h
    exact .here _
  | case3 => simp at h

theorem stops_of_blockComment {tail : List Char} (hrest : s.rest = '/' :: '*' :: tail)
    (h : s.blockComment = .error t) : Stops s.track t.track := by
  unfold blockComment at h
  extract_lets opened opened' at h
  split at h
  · next u hu =>
    obtain rfl := Except.error.inj h
    have htwo : 2 ≤ s.track.rest.length := by simp [State.track, hrest]
    have hopened : opened'.track = s.track.advance 2 := by simp [opened', opened]
    exact .crossing htwo (hopened ▸ crosses_of_closeComment_error hu)
  · cases h

/-! ### Steps -/

theorem stops_of_cut {outcome : Step} (hcut : Cut s outcome) (h : outcome = .failed t fault) :
    Stops s.track t.track := by
  cases hcut with
  | word _ => cases h
  | number _ => exact stops_of_track (track_of_number_failed h)
  | string _ _ => exact stops_of_track (track_of_string_failed h)
  | backtick _ => exact stops_of_track (track_of_backtick_failed h)
  | lineComment _ => cases h
  | blockComment _ _ => cases h
  | unclosedComment hrest hu =>
    rw [track_of_fail h]
    exact stops_of_blockComment hrest hu
  | division _ _ => cases h
  | regex _ _ => exact stops_of_track (track_of_regex_failed h)
  | punctuation _ hoperator _ _ =>
    exact stops_of_punctuation (Nat.pos_of_ne_zero hoperator) (operatorLength_le _) h
  | unexpected _ => exact stops_of_track (track_of_fail h)

/-- **A step that fails** stops where it began, at the end of the source or behind a token. -/
theorem stops_of_step (h : s.step = .failed t fault) : Stops s.track t.track := by
  have haction := s.action_of_step
  generalize s.step = outcome at haction h
  cases haction with
  | part _ =>
    unfold templatePart at h
    split at h
    · next u hu =>
      rw [track_of_fail h]
      exact .crossing (Nat.zero_le _) (crosses_of_templateText_error hu)
    · extract_lets at h
      split at h <;> cases h
  | line _ _ _ => cases h
  | finish _ _ _ =>
    unfold finish at h
    split at h
    · exact stops_of_track (track_of_fail h)
    · cases h
  | blanks _ _ _ => cases h
  | token _ _ _ hcut => exact stops_of_cut (s := s.roused) hcut h

/-- **Templates do not nest**: a backtick in an interpolation is a fault. -/
theorem failed_of_nested {opening : Position} {tail : List Char}
    (hmode : s.mode = .interpolation opening) (hrest : s.rest = '\x60' :: tail) :
    ∃ t, s.step = .failed t { rule := .expectedAB, line := s.line, column := s.column + 1,
                              args := ["\x7d", "\x60"] } := by
  have hoff : ∀ opening, s.mode ≠ .template opening := by
    simp [hmode]
  have hinside : s.roused.inTemplate = true := by
    simp [roused, inTemplate, hmode, Mode.opening?]
  refine ⟨s.roused.leaveLine, ?_⟩
  rw [step_of_operator hoff hrest (by decide) (by decide) (by decide) (Nat.succ_ne_zero 0)]
  unfold operator
  rw [show s.roused.rest = _ from hrest]
  simp only [backtick, hinside]
  rfl

end State

end ScriptLint
