import ScriptLint.Proofs.Scan.Actions
import ScriptLint.Proofs.Scan.Moves

/-!
# Steps are legs

On the track, the action of a step that is not the last is a leg, and the last step of a
completed scan adds the end of the source.  There is one lemma for each kind of token;
where a scan stands is not looked for in a step again.

## Main statements

* `State.leg_of_step` — a step that is not the last is a leg
* `State.finish_of_completed`, `State.completed_of_step` — the last step of a completed scan
-/

namespace ScriptLint

open Track

/-! ### Tokens -/

/-- A token of a state spans from the place where it starts. -/
theorem State.spans_token {s t : State} {u : Track} {kind : TokenKind} {value : String}
    (htrack : t.track = u) (htokens : u.tokens = s.tokens) :
    Spans s.track u (t.token kind value s.position) := by
  subst htrack
  refine ⟨rfl, rfl, ?_⟩
  rw [State.token, show t.tokens = s.tokens from htokens]
  show _ = s.track.nextNr
  unfold nextNr
  cases h : s.tokens <;> simp [State.track, h]

namespace State

variable {s t : State}

/-- The token of the next `n` characters, verbatim, with the mode that it decides. -/
theorem lexeme_pushNext_with_mode {n : Nat} {kind : TokenKind} {value : String} {mode : Mode}
    (hpos : 0 < n) (hle : n ≤ s.rest.length) (hkind : kind.isVerbatim)
    (hvalue : value = String.ofList (s.rest.take n))
    (hafter : ∀ t : Token, t.kind = kind → t.value = value → t.start = s.position →
      s.mode.after t = mode)
    (hnest : ∀ opening, s.mode = .interpolation opening → kind = .operator → value ≠ "\x60") :
    Lexeme s.track (State.track { s.pushNext n kind value with mode := mode }) := by
  unfold pushNext
  extract_lets u
  rw [track_push_with_mode (s := u) (hafter _ rfl rfl rfl)]
  refine .intro hpos hle (spans_token rfl rfl) (.verbatim hkind hvalue) ?_
  intro opening hopen
  simp only [Token.isOperator, token, Bool.and_eq_false_iff, beq_eq_false_iff_ne]
  by_cases hop : kind = .operator
  · exact .inr (hnest opening hopen hop)
  · exact .inl hop

/-- The token of the next `n` characters, verbatim, in a mode that it leaves alone. -/
theorem lexeme_pushNext {n : Nat} {kind : TokenKind} {value : String} (hpos : 0 < n)
    (hle : n ≤ s.rest.length) (hkind : kind.isVerbatim)
    (hvalue : value = String.ofList (s.rest.take n))
    (hafter : ∀ t : Token, t.kind = kind → t.value = value → s.mode.after t = s.mode)
    (hnest : kind = .operator → value ≠ "\x60") :
    Lexeme s.track (s.pushNext n kind value).track := by
  have hmode : (s.pushNext n kind value).mode = s.mode :=
    congrArg Track.mode (track_push (s.advance n) _)
  have h := lexeme_pushNext_with_mode hpos hle hkind hvalue
    (fun t hk hv _ => hafter t hk hv) fun _ _ => hnest
  rwa [← hmode] at h

theorem lexeme_identifier {n : Nat} (hpos : 0 < n) (hle : n ≤ s.rest.length) :
    Lexeme s.track (s.identifier n).track := by
  unfold identifier
  extract_lets value keyword precededByDot kind u base
  have hkind : kind.isVerbatim ∧ kind ≠ .operator := by
    simp only [kind]
    split <;> decide
  rw [track_push_of_after (s := u) (Mode.after_of_kind_ne hkind.2 _)]
  refine .intro hpos hle ⟨rfl, rfl, rfl⟩ (.verbatim hkind.1 rfl) ?_
  intro opening _
  simp [Token.isOperator, base, token, hkind.2]

theorem lexeme_of_number {lead : Nat} (hlead : 0 < lead) (hrest : s.rest ≠ [])
    (h : s.number lead = .next t) : Lexeme s.track t.track := by
  unfold number at h
  split at h
  · simp [failWith] at h
  · next read hread =>
    obtain rfl := Step.next.inj h
    have hwhole : read.whole = s.rest := Strand.whole_of_number _ hread
    have hne := Strand.taken_ne_nil_of_number (s.surroundings 0) hlead hrest rfl hread
    have hle : read.taken.length ≤ s.rest.length := by
      rw [← hwhole, Strand.whole]
      simp
    refine lexeme_pushNext (s := s.noteAll read.findings) (List.length_pos_iff.mpr hne) hle rfl
      ?_ (fun t ht _ => Mode.after_of_kind_ne (by simp [ht]) _) (by simp)
    rw [Strand.text, ← Strand.take_of_whole hwhole]
    rfl

theorem lexeme_of_string {quote : Char} {tail : List Char} (hrest : s.rest = quote :: tail)
    (hquote : quote = '"' ∨ quote = '\'') (h : s.string quote = .next t) :
    Lexeme s.track t.track := by
  unfold string at h
  split at h
  · simp [failWith] at h
  · next read hread =>
    extract_lets u base at h
    obtain rfl := Step.next.inj h
    have hwhole : read.whole = tail := by
      rw [Strand.whole_of_quoted _ hread, hrest]
      rfl
    obtain ⟨back, hback⟩ : ∃ back, read.rest = quote :: back := by
      have hhead := Strand.head?_rest_of_quoted _ hread
      cases hr : read.rest with
      | nil => simp [hr] at hhead
      | cons c back =>
        rw [hr] at hhead
        exact ⟨back, by rw [Option.some.inj hhead]⟩
    -- What was read is left at the closing quote, which the token takes with it.
    have htext : s.rest = (quote :: read.taken.reverse ++ [quote]) ++ back := by
      rw [hrest, ← hwhole, Strand.whole, hback]
      simp
    have hlength : (quote :: read.taken.reverse ++ [quote]).length = read.taken.length + 2 := by
      simp
    rw [track_push_of_after (s := u) (Mode.after_of_kind_ne (by simp [base, token]) _)]
    refine .intro (n := read.taken.length + 2) (Nat.succ_pos _) ?_ ⟨rfl, rfl, rfl⟩ ?_ ?_
    · show _ ≤ s.rest.length
      rw [htext, List.length_append, hlength]
      exact Nat.le_add_right _ _
    · refine .quoted quote hquote rfl rfl ?_
      show s.rest.take _ = _
      rw [htext, ← hlength, List.take_left]
      simp [base, token, Strand.text]
    · intro opening _
      simp [Token.isOperator, base, token]

theorem lexeme_of_regex {role : SlashRole} {tail : List Char} (hrest : s.rest = '/' :: tail)
    (h : s.regex role = .next t) : Lexeme s.track t.track := by
  unfold regex at h
  extract_lets u at h
  split at h
  · simp [failWith] at h
  · next read missesFlag hread =>
    have hwhole : read.whole = tail := by
      rw [Strand.whole_of_regex _ hread]
      show s.rest.tail = tail
      rw [hrest]
      rfl
    have hle : read.taken.length + 1 ≤ s.rest.length := by
      rw [hrest, ← hwhole, Strand.whole]
      simp
    have hvalue : "/" ++ read.text = String.ofList (s.rest.take (read.taken.length + 1)) := by
      rw [hrest, List.take_succ_cons, Strand.take_of_whole hwhole]
      show _ = String.ofList (['/'] ++ read.taken.reverse)
      rw [String.ofList_append]
      rfl
    have hlex : Lexeme s.track
        ((u.noteAll read.findings).pushNext (read.taken.length + 1) .regex
          ("/" ++ read.text)).track :=
      lexeme_pushNext (s := u.noteAll read.findings) (Nat.succ_pos _) hle rfl hvalue
        (fun t ht _ => Mode.after_of_kind_ne (by simp [ht]) _) (by simp)
    -- What follows the token are reports.
    split at h
    all_goals
      obtain rfl := Step.next.inj h
      simpa using hlex

theorem lexeme_division {tail : List Char} (hrest : s.rest = '/' :: tail)
    (hmode : ∀ opening, s.mode ≠ .template opening) : Lexeme s.track s.division.track := by
  have hafter : ∀ t : Token, t.value = "/=" ∨ t.value = "/" → s.mode.after t = s.mode := by
    intro t ht
    have hop : t.isOperator "\x60" = false ∧ t.isOperator "\x7d" = false := by
      rcases ht with ht | ht <;> simp [Token.isOperator, ht]
    cases hm : s.mode with
    | code => simp [Mode.after, hop]
    | template opening => exact absurd hm (hmode opening)
    | interpolation opening => simp [Mode.after, hop]
  unfold division
  split
  · next heq =>
    obtain ⟨back, rfl⟩ : ∃ back, tail = '=' :: back := by
      rw [hrest] at heq
      cases tail with
      | nil => simp at heq
      | cons c back => exact ⟨back, by simpa using heq⟩
    refine lexeme_pushNext (s := s.note _ _ _) (by decide) ?_ rfl ?_
      (fun t _ ht => hafter t (.inl ht)) (by decide)
    · show 2 ≤ s.rest.length
      rw [hrest]
      simp
    · show _ = String.ofList (s.rest.take 2)
      rw [hrest]
      rfl
  · refine lexeme_pushNext (by decide) ?_ rfl ?_ (fun t _ ht => hafter t (.inr ht)) (by decide)
    · rw [hrest]
      simp
    · rw [hrest]
      rfl

theorem lexeme_of_backtick {tail : List Char} (hrest : s.rest = '\x60' :: tail)
    (h : s.backtick = .next t) : Lexeme s.track t.track := by
  unfold backtick at h
  split at h
  · simp [fail] at h
  · next hout =>
    obtain rfl := Step.next.inj h
    have hcode : s.mode = .code := by
      cases hm : s.mode <;> simp_all [inTemplate, Mode.opening?]
    refine lexeme_pushNext_with_mode (by decide) ?_ rfl ?_ ?_ ?_
    · rw [hrest]
      simp
    · rw [hrest]
      rfl
    · intro t hkind hvalue hstart
      simp [hcode, Mode.after, Token.isOperator, hkind, hvalue, hstart]
    · intro opening hopen
      rw [hcode] at hopen
      cases hopen

theorem lexeme_of_punctuation {n : Nat} {c : Char} {tail : List Char} (hpos : 0 < n)
    (hle : n ≤ s.rest.length) (hrest : s.rest = c :: tail) (hc : c ≠ '\x60')
    (hmode : ∀ opening, s.mode ≠ .template opening) (h : s.punctuation n = .next t) :
    Lexeme s.track t.track := by
  have htick : s.slice n ≠ "\x60" := by
    intro heq
    obtain ⟨m, rfl⟩ : ∃ m, n = m + 1 := ⟨n - 1, by omega⟩
    have hlist := congrArg String.toList heq
    rw [slice, hrest, List.take_succ_cons, String.toList_ofList] at hlist
    exact hc (List.cons.inj hlist).1
  have hpush (hafter : ∀ t : Token, t.kind = .operator → t.value = s.slice n →
      s.mode.after t = s.mode) : Lexeme s.track (s.pushNext n .operator (s.slice n)).track :=
    lexeme_pushNext hpos hle rfl rfl hafter fun _ => htick
  unfold punctuation at h
  extract_lets value u at h
  split at h
  · next opening hm =>
    split at h
    · next hvalue =>
      obtain rfl := Step.next.inj h
      refine lexeme_pushNext_with_mode hpos hle rfl rfl ?_ fun _ _ _ => htick
      intro t hkind ht _
      simp [hm, Mode.after, Token.isOperator, hkind, ht, hvalue]
    · next hvalue =>
      split at h
      · simp [fail] at h
      · obtain rfl := Step.next.inj h
        refine hpush fun t _ ht => ?_
        have hclose : t.isOperator "\x7d" = false := by
          simp [Token.isOperator, ht, show s.slice n ≠ "\x7d" from hvalue]
        rw [hm]
        simp [Mode.after, hclose]
  · next hother =>
    obtain rfl := Step.next.inj h
    have hcode : s.mode = .code := by
      cases hm : s.mode with
      | code => rfl
      | template opening => exact absurd hm (hmode opening)
      | interpolation opening => exact absurd hm (hother opening)
    refine hpush fun t _ ht => ?_
    rw [hcode]
    simp [Mode.after, Token.isOperator, ht, htick]

/-! ### Comments -/

theorem move_lineComment {value : List Char} (hrest : s.rest = '/' :: '/' :: value) :
    Move s.track s.lineComment.track := by
  have hvalue : s.rest.drop 2 = value := by
    rw [hrest]
    rfl
  unfold lineComment
  extract_lets text u v
  rw [track_inspectComment, track_noteIf]
  simp only [v]
  rw [track_push_of_after (Mode.after_of_kind_ne (by simp [token]) _)]
  simp only [u]
  rw [track_skipLine]
  exact .lineComment hrest (spans_token (track_skipLine s) rfl) rfl (by rw [← hvalue]; rfl)

/-- The rest of a block comment crosses lines and goes on inside the last one. -/
theorem crosses_of_closeComment {parts : List String} {text : String}
    (h : s.closeComment parts = .ok (text, t)) :
    ∃ u n, Crosses s.track u ∧ n ≤ u.rest.length ∧ t.track = u.advance n := by
  fun_induction closeComment parts s with
  | case1 parts s i hi part =>
    obtain ⟨-, rfl⟩ := Prod.mk.inj (Except.ok.inj h)
    obtain ⟨front, back, htext, rfl⟩ := split_of_findPair hi
    refine ⟨s.track, front.length + 2, .here _, ?_, by simp⟩
    show _ ≤ s.rest.length
    rw [htext]
    simp
  | case2 parts s hi s' u hu ih =>
    obtain ⟨v, n, hcross, hle, htrack⟩ := ih h
    have hs' : s'.track = s.track := by simp [s']
    exact ⟨v, n, hs' ▸ crosses_of_nextLine? hu hcross, hle, htrack⟩
  | case3 => simp at h

theorem move_of_blockComment {text : List Char} (hrest : s.rest = '/' :: '*' :: text)
    (h : s.blockComment = .ok t) : Move s.track t.track := by
  unfold blockComment at h
  extract_lets opened opened' at h
  split at h
  · simp at h
  · next value u hu =>
    obtain rfl := Except.ok.inj h
    obtain ⟨v, n, hcross, hle, htrack⟩ := crosses_of_closeComment hu
    have hopened : opened'.track = s.track.advance 2 := by simp [opened', opened]
    rw [hopened] at hcross
    have htokens : (v.advance n).tokens = s.tokens := crosses_tokens hcross
    rw [track_inspectComment, track_push_of_after (Mode.after_of_kind_ne (by simp [token]) _),
      htrack]
    exact .blockComment hrest hcross hle (spans_token htrack htokens) rfl

/-! ### Templates -/

/-- The text of a template crosses lines and goes on up to what stops it. -/
theorem crosses_of_templateText {text text' : List Char} {stop : TemplateStop}
    (h : s.templateText text = .ok (text', stop, t)) :
    stop ≠ .lineEnd ∧
      ∃ u n, Crosses s.track u ∧ stop.At (u.rest.drop n) ∧ t.track = u.advance n := by
  fun_induction templateText text s with
  | case1 text s read hread u hu ih =>
    obtain ⟨hstop, v, n, hcross, hat, htrack⟩ := ih h
    exact ⟨hstop, v, n, crosses_of_nextLine? hu hcross, hat, htrack⟩
  | case2 => simp at h
  | case3 text s read hread =>
    simp only [Except.ok.injEq, Prod.mk.injEq] at h
    obtain ⟨-, rfl, rfl⟩ := h
    obtain ⟨front, back, htext, hfront, hat⟩ := split_of_templateChunk [] s.rest
    refine ⟨hread, s.track, read.1.length, .here _, ?_, rfl⟩
    have hlength : read.1.length = front.length := by
      rw [hfront]
      simp
    show read.2.At (s.rest.drop read.1.length)
    rw [hlength, htext, List.drop_left]
    exact hat

theorem leg_of_templatePart {opening : Position} (hmode : s.mode = .template opening)
    (h : s.templatePart opening = .next t) : Leg s.track t.track := by
  unfold templatePart at h
  split at h
  · simp [fail] at h
  · next text stop u hu =>
    extract_lets part v opened closed at h
    obtain ⟨hstop, w, n, hcross, hat, htrack⟩ := crosses_of_templateText hu
    have htokens : (w.advance n).tokens = s.tokens := crosses_tokens hcross
    have hpart : Spans s.track (w.advance n) part := spans_token htrack htokens
    have hv : v.track = (w.advance n).add { part with quote := some '\x60' } := by
      rw [← htrack]
      exact track_push_of_after (Mode.after_of_kind_ne (by simp [part, token]) _)
    have hvrest : v.rest = w.rest.drop n := congrArg Track.rest hv
    have hvmode : v.mode = .template opening := by
      have hpush : v.mode = u.mode := congrArg Track.mode (track_push u _)
      have hu : u.mode = w.mode := congrArg Track.mode htrack
      rw [hpush, hu, crosses_mode hcross]
      exact hmode
    -- The stop stands behind the text, so the text does not take the whole line.
    have hlt : n < w.rest.length := by
      refine List.length_lt_of_drop_ne_nil fun hnil => ?_
      rw [hnil] at hat
      cases stop <;> simp_all [TemplateStop.At]
    refine .template (u := v.track)
      (hv ▸ .intro hmode hcross hlt ⟨hpart.start, hpart.stop, hpart.nr⟩ rfl rfl) ?_
    rw [← hvrest] at hat
    cases stop with
    | lineEnd => exact absurd rfl hstop
    | interpolation =>
      obtain ⟨back, hback⟩ := hat
      obtain rfl := Step.next.inj h
      refine lexeme_pushNext_with_mode (by decide) ?_ rfl ?_ ?_ fun _ _ _ => by decide
      · rw [hback]
        simp
      · rw [hback]
        rfl
      · intro t hkind hvalue _
        simp [hvmode, Mode.after, Token.isOperator, hkind, hvalue]
    | close =>
      obtain ⟨back, hback⟩ := hat
      obtain rfl := Step.next.inj h
      refine lexeme_pushNext_with_mode (by decide) ?_ rfl ?_ ?_ ?_
      · rw [hback]
        simp
      · rw [hback]
        rfl
      · intro t hkind hvalue _
        simp [hvmode, Mode.after, Token.isOperator, hkind, hvalue]
      · intro opening hopen
        rw [hvmode] at hopen
        cases hopen

/-! ### Steps -/

/-- Reading a token is a move. -/
theorem move_of_cut {outcome : Step} (hmode : ∀ opening, s.mode ≠ .template opening)
    (hcut : Cut s outcome) (h : outcome = .next t) : Move s.track t.track := by
  cases hcut with
  | word hword =>
    obtain rfl := Step.next.inj h
    exact .lexeme (lexeme_identifier (Nat.pos_of_ne_zero hword) (identifierLength_le _))
  | number hnumber =>
    have hrest : s.rest ≠ [] := by
      intro hnil
      rw [hnil] at hnumber
      exact hnumber rfl
    exact .lexeme (lexeme_of_number (Nat.pos_of_ne_zero hnumber) hrest h)
  | string hquote hrest => exact .lexeme (lexeme_of_string hrest hquote h)
  | backtick hrest => exact .lexeme (lexeme_of_backtick hrest h)
  | lineComment hrest =>
    obtain rfl := Step.next.inj h
    exact move_lineComment hrest
  | blockComment hrest hu =>
    obtain rfl := Step.next.inj h
    exact move_of_blockComment hrest hu
  | unclosedComment _ _ => cases h
  | division hrest _ =>
    obtain rfl := Step.next.inj h
    exact .lexeme (lexeme_division hrest hmode)
  | regex hrest _ => exact .lexeme (lexeme_of_regex hrest h)
  | punctuation hrest hoperator _ hc =>
    refine .lexeme (lexeme_of_punctuation (Nat.pos_of_ne_zero hoperator) (operatorLength_le _)
      hrest ?_ hmode h)
    rintro rfl
    exact hc (by decide)
  | unexpected _ => cases h

/-- **Inversion of a step.**  A step that is not the last is a leg on the track. -/
theorem leg_of_step (h : s.step = .next t) : Leg s.track t.track := by
  have haction := s.action_of_step
  generalize s.step = outcome at haction h
  cases haction with
  | part hmode => exact leg_of_templatePart hmode h
  | line hmode hrest hu =>
    obtain rfl := Step.next.inj h
    obtain ⟨line, below, hbelow, htrack⟩ := track_of_nextLine? hu
    refine .move hmode ?_
    rw [htrack]
    exact .line hrest hbelow
  | finish _ _ _ =>
    unfold finish at h
    split at h <;> simp [fail] at h
  | @blanks hmode c tail hrest hblank =>
    obtain rfl := Step.next.inj h
    -- The run of blanks is not empty: its first is the next character.
    have hrun : s.rest.takeWhile isBlank = c :: tail.takeWhile isBlank := by
      rw [hrest, List.takeWhile_cons_of_pos hblank]
    refine .move hmode (.blanks ?_ (List.takeWhile_sublist isBlank).length_le ?_)
    · rw [hrun]
      simp
    · intro d hd
      have htake : s.rest.take (s.rest.takeWhile isBlank).length =
          s.rest.takeWhile isBlank :=
        List.prefix_iff_eq_take.mp (List.takeWhile_prefix isBlank) |>.symm
      rw [show s.track.rest = s.rest from rfl, htake] at hd
      exact List.all_eq_true.mp List.all_takeWhile d hd
  | token hmode _ _ hcut => exact .move hmode (move_of_cut (s := s.roused) hmode hcut h)

/-- Only the end of the source completes a scan. -/
theorem finish_of_completed (h : s.step = .completed t) :
    s.rest = [] ∧ s.below = [] ∧ s.finish = .completed t := by
  have haction := s.action_of_step
  generalize s.step = outcome at haction h
  cases haction with
  | part _ =>
    unfold templatePart at h
    split at h
    · cases h
    · extract_lets at h
      split at h <;> cases h
  | line _ _ _ => cases h
  | finish _ hrest hbelow => exact ⟨hrest, hbelow, h⟩
  | blanks _ _ _ => cases h
  | token _ _ _ hcut => exact absurd h hcut.ne_completed

/-- **The last step of a completed scan** stands at the end of the source outside of every
template, and adds the token of the end there. -/
theorem completed_of_step (h : s.step = .completed t) :
    s.mode = .code ∧ s.rest = [] ∧ s.below = [] ∧
      ∃ e : Token, e.kind = .eof ∧ Spans s.track s.track e ∧ t.track = s.track.add e := by
  obtain ⟨hrest, hbelow, h⟩ := finish_of_completed h
  unfold finish at h
  split at h
  · cases h
  · next hclosed =>
    extract_lets u at h
    obtain rfl := Step.completed.inj h
    have hcode : s.mode = .code := by
      cases hm : s.mode <;> simp_all [Mode.opening?]
    have hu : u.track = s.track := track_leaveLine s
    have hspans : Spans u.track u.track (u.token .eof "" u.position) := spans_token rfl rfl
    rw [hu] at hspans
    refine ⟨hcode, hrest, hbelow, u.token .eof "" u.position, rfl, hspans, ?_⟩
    rw [track_push_of_after (Mode.after_of_kind_ne (by simp [token]) _), hu]

end State

end ScriptLint
