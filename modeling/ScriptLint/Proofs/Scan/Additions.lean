import ScriptLint.Proofs.Scan.Actions
import ScriptLint.Proofs.Scan.Course

/-!
# The tokens that steps add

A step adds no token, one that it reads, or inside a template the text up to a delimiter
and the delimiter.  What kind of token it reads hangs on the state it is read in: on what
lies ahead, on the last token that is no comment, and on the template that is open.  The
modes of a scan follow from its tokens alone.

## Main definitions

* `Token.IsText` — a token that is text of a template
* `modeAfter` — the mode after a list of tokens
* `State.ReadsRegex`, `State.Reads` — a token that is read, by its kind
* `State.Adds` — the tokens that a step adds

## Main statements

* `State.adds_of_step` — the tokens that a step adds
* `mode_of_reaches` — the mode of a reached state is that after its tokens
* `exists_step_of_completed` — the step that added a token
-/

namespace ScriptLint

open Track

/-- **Text of a template**: a string between backticks or interpolations. -/
def Token.IsText (t : Token) : Prop := t.kind = .string ∧ t.quote = some '\x60'

instance : DecidablePred Token.IsText := fun _ => inferInstanceAs (Decidable (_ ∧ _))

/-! ### Modes and tokens -/

/-- **The mode after tokens**, newest first, from the beginning of a source. -/
def modeAfter (tokens : List Token) : Mode := tokens.foldr (fun t mode => mode.after t) .code

/-- Crossing lines and going on inside the last one leads to no other mode, and a token to the one
after it. -/
theorem Track.modeAfter_add {s u : Track} {t : Token} (hs : s.mode = modeAfter s.tokens)
    (hcross : Crosses s u) (n : Nat) :
    ((u.advance n).add t).mode = modeAfter ((u.advance n).add t).tokens := by
  show u.mode.after t = (modeAfter u.tokens).after t
  rw [crosses_mode hcross, crosses_tokens hcross, hs]

/-- The tokens of a leg lead from its mode to the mode at its end. -/
theorem Track.modeAfter_of_leg {s u : Track} (hs : s.mode = modeAfter s.tokens) (h : Leg s u) :
    u.mode = modeAfter u.tokens := by
  have hlexeme {s u : Track} (hs : s.mode = modeAfter s.tokens) (hlex : Lexeme s u) :
      u.mode = modeAfter u.tokens := by
    obtain ⟨-, -, -, -, -⟩ := hlex
    exact modeAfter_add hs (.here s) _
  cases h with
  | move hmode hmove =>
    cases hmove with
    | line _ _ => exact hs
    | blanks _ _ _ => exact hs
    | lexeme hlex => exact hlexeme hs hlex
    | lineComment _ _ _ _ => exact modeAfter_add hs (.here s) _
    | blockComment _ hcross _ _ _ => exact modeAfter_add (s := s.advance 2) hs hcross _
  | template hpart hstop =>
    refine hlexeme ?_ hstop
    obtain ⟨-, hcross, -, -, -, -⟩ := hpart
    exact modeAfter_add hs hcross _

/-- **The mode of a reached state is that after its tokens.** -/
theorem mode_of_reaches {lines : List Line} {s : State} (h : State.Reaches (.initial lines) s) :
    s.mode = modeAfter s.tokens := by
  refine h.invariant (P := fun u => u.mode = modeAfter u.tokens)
    (fun _ _ hs hleg => modeAfter_of_leg hs hleg) ?_
  rcases State.track_initial lines with htrack | ⟨line, below, -, -, htrack⟩
  · rw [htrack]
    rfl
  · rw [htrack]
    rfl

namespace State

/-! ### Tokens read -/

/-- **A regular expression read**: the token of what its reader takes behind the slash. -/
def ReadsRegex (s : State) (t : Token) : Prop :=
  ∃ (tail : List Char) (read : Strand) (missesFlag : Bool), s.rest = '/' :: tail ∧
    ({ rest := tail } : Strand).regex (s.surroundings 1) = .ok (read, missesFlag) ∧
    t.value = "/" ++ read.text ∧ t.stop = ⟨s.line, s.column + (read.taken.length + 1)⟩

/-- **Reading**: what a token that is read outside of the text of templates tells. -/
inductive Reads (s : State) (t : Token) : Prop
  /-- A word acts as the reserved word that it spells, if it does not follow a dot. -/
  | word (hkind : t.kind = .identifier ∨ t.kind = .keyword)
      (hkeyword : t.keyword = reserved? t.value) (hdot : t.precededByDot = s.afterDot)
  /-- A number, a string or a comment acts as nothing. -/
  | literal (hkind : t.kind = .number ∨ t.kind = .string ∨ t.kind = .comment)
      (hkeyword : t.keyword = none) (hquote : t.quote ≠ some '\x60')
  /-- A regular expression stands where a slash does not divide, and is read from there. -/
  | regex (hkind : t.kind = .regex) (hkeyword : t.keyword = none)
      (hrole : slashRole s.preceding ≠ .division)
      (hread : s.ReadsRegex t)
  /-- A slash that divides takes an equals sign with it. -/
  | division (hkind : t.kind = .operator) (hkeyword : t.keyword = none)
      (hrole : slashRole s.preceding = .division)
      (hvalue : t.value = if s.rest.tail.head? = some '=' then "/=" else "/")
  /-- Any other operator is no slash and opens no interpolation, and inside of one it is neither an
  opening brace nor a backtick. -/
  | punctuation (hkind : t.kind = .operator) (hkeyword : t.keyword = none)
      (hslash : t.value ≠ "/") (hequals : t.value ≠ "/=") (hdollar : t.value ≠ "$\x7b")
      (hnest : s.inTemplate = true → t.value ≠ "\x7b" ∧ t.value ≠ "\x60")

/-- **The tokens that a step adds.** -/
inductive Adds (s t : State) : Prop
  /-- It adds none. -/
  | none (htokens : t.tokens = s.tokens)
  /-- Outside of the text of templates it adds one that it reads. -/
  | read (hmode : ∀ opening, s.mode ≠ .template opening) {new : Token}
      (hstart : new.start = s.position) (hread : Reads s new) (htokens : t.tokens = new :: s.tokens)
  /-- In a template it adds the text up to a delimiter, and the delimiter. -/
  | part {opening : Position} (hmode : s.mode = .template opening) {part stop : Token}
      (hpart : part.IsText) (hplain : part.keyword = .none) (hkeyword : stop.keyword = .none)
      (hstop : stop.isOperator "\x60" = true ∨ stop.isOperator "$\x7b" = true)
      (htokens : t.tokens = stop :: part :: s.tokens)

variable {s t : State}

@[simp] theorem tokens_push (s : State) (t : Token) : (s.push t).tokens = t :: s.tokens :=
  congrArg Track.tokens (s.track_push t)

@[simp] theorem tokens_pushNext (s : State) (n : Nat) (kind : TokenKind) (value : String) :
    (s.pushNext n kind value).tokens =
      (s.advance n).token kind value s.position :: s.tokens :=
  (s.advance n).tokens_push _

/-- A comment is added by reading to the end of its line. -/
theorem adds_lineComment (hmode : ∀ opening, s.mode ≠ .template opening) :
    Adds s s.lineComment := by
  unfold lineComment
  extract_lets value u v
  have htrack (w : State) (hw : w.track = v.track) :
      w.tokens = u.token .comment (String.ofList value) s.position :: s.tokens :=
    (congrArg Track.tokens hw).trans (u.tokens_push _)
  refine .read hmode rfl (.literal (.inr (.inr rfl)) rfl (by simp [token])) (htrack _ ?_)
  rw [track_inspectComment, track_noteIf]

/-- A comment is added by reading to its end, maybe on a line below. -/
theorem adds_of_blockComment (hmode : ∀ opening, s.mode ≠ .template opening)
    (h : s.blockComment = .ok t) : Adds s t := by
  unfold blockComment at h
  extract_lets opened opened' at h
  split at h
  · cases h
  · next text u hu =>
    obtain rfl := Except.ok.inj h
    obtain ⟨v, n, hcross, -, htrack⟩ := crosses_of_closeComment hu
    have htokens : u.tokens = s.tokens := by
      have hopened : opened'.track = s.track.advance 2 := by simp [opened', opened]
      rw [hopened] at hcross
      exact (congrArg Track.tokens htrack).trans (crosses_tokens hcross)
    have hadded : State.tokens ((u.push (u.token .comment text s.position)).inspectComment
        text.toList s.position) = u.token .comment text s.position :: s.tokens := by
      rw [← htokens, ← tokens_push]
      exact congrArg Track.tokens (track_inspectComment _ _ _)
    exact .read hmode rfl (.literal (.inr (.inr rfl)) rfl (by simp [token])) hadded

theorem adds_of_regex (hmode : ∀ opening, s.mode ≠ .template opening)
    (hrole : slashRole s.preceding ≠ .division) {tail : List Char} (hrest : s.rest = '/' :: tail)
    {role : SlashRole} (h : s.regex role = .next t) : Adds s t := by
  unfold regex at h
  extract_lets u at h
  split at h
  · cases h
  · next read missesFlag hread =>
    extract_lets value v w at h
    rw [show u.rest.tail = tail from congrArg List.tail hrest] at hread
    have htrack (x : State) (hx : x.track = v.track) : Adds s x :=
      .read hmode rfl (.regex rfl rfl hrole ⟨tail, read, missesFlag, hrest, hread, rfl, rfl⟩)
        ((congrArg Track.tokens hx).trans (tokens_pushNext _ _ _ _))
    have hw : w.track = v.track := track_noteIf _ _ _ _ _
    split at h
    · obtain rfl := Step.next.inj h
      exact htrack _ hw
    · obtain rfl := Step.next.inj h
      exact htrack _ hw
    · obtain rfl := Step.next.inj h
      exact htrack _ hw

theorem adds_of_punctuation (hmode : ∀ opening, s.mode ≠ .template opening) {c : Char}
    {tail : List Char} (hrest : s.rest = c :: tail) (hword : identifierLength s.rest = 0)
    (hc : c ∉ ['"', '\'', '\x60', '/']) {n : Nat} (hpos : n ≠ 0) (h : s.punctuation n = .next t) :
    Adds s t := by
  -- The operator starts with the next character, which is no slash and starts no identifier.
  have hfirst {d : Char} {value : String} (hvalue : value.toList.head? = some d) (hd : d ≠ c) :
      s.slice n ≠ value := by
    rintro rfl
    obtain ⟨m, rfl⟩ := Nat.exists_eq_succ_of_ne_zero hpos
    rw [slice, hrest, List.take_succ_cons, String.toList_ofList] at hvalue
    exact hd (Option.some.inj hvalue).symm
  have hslash : '/' ≠ c := by
    rintro rfl
    exact hc (by decide)
  have hdollar : '$' ≠ c := by
    rintro rfl
    rw [hrest] at hword
    simp [identifierLength, isIdentifierStart] at hword
  have htick : '\x60' ≠ c := by
    rintro rfl
    exact hc (by decide)
  have hread (hbrace : s.inTemplate = true → s.slice n ≠ "\x7b") (u : State)
      (hu : u.tokens = (s.pushNext n .operator (s.slice n)).tokens) : Adds s u :=
    .read hmode rfl (.punctuation rfl rfl (hfirst (by decide) hslash) (hfirst (by decide) hslash)
      (hfirst (by decide) hdollar) fun hin => ⟨hbrace hin, hfirst (by decide) htick⟩)
      (hu.trans (tokens_pushNext _ _ _ _))
  unfold punctuation at h
  extract_lets value u at h
  split at h
  · split at h
    · next hclose =>
      obtain rfl := Step.next.inj h
      refine hread (fun _ hopen => ?_) _ rfl
      exact absurd (hclose.symm.trans hopen) (by decide)
    · split at h
      · cases h
      · next hopen =>
        obtain rfl := Step.next.inj h
        exact hread (fun _ => hopen) _ rfl
  · next hinside =>
    obtain rfl := Step.next.inj h
    refine hread (fun hin => ?_) _ rfl
    cases hm : s.mode with
    | code => simp [inTemplate, hm, Mode.opening?] at hin
    | template opening => exact absurd hm (hmode opening)
    | interpolation opening => exact absurd hm (hinside opening)

/-- Reading a token adds what its kind says. -/
theorem adds_of_cut {outcome : Step} (hmode : ∀ opening, s.mode ≠ .template opening)
    (hcut : Cut s outcome) (h : outcome = .next t) : Adds s t := by
  cases hcut with
  | word _ =>
    obtain rfl := Step.next.inj h
    refine .read hmode rfl (.word ?_ rfl rfl) ((s.advance _).tokens_push _)
    show (if _ then TokenKind.keyword else TokenKind.identifier) = _ ∨ _
    split
    · exact .inr rfl
    · exact .inl rfl
  | number _ =>
    unfold number at h
    split at h
    · cases h
    · obtain rfl := Step.next.inj h
      exact .read hmode rfl (.literal (.inl rfl) rfl (by simp [token])) (tokens_pushNext _ _ _ _)
  | string hquote _ =>
    unfold string at h
    split at h
    · cases h
    · obtain rfl := Step.next.inj h
      refine .read hmode rfl (.literal (.inr (.inl rfl)) rfl ?_) (tokens_push _ _)
      rcases hquote with rfl | rfl
      · simp
      · simp
  | backtick _ =>
    unfold backtick at h
    split at h
    · cases h
    · next hout =>
      obtain rfl := Step.next.inj h
      exact .read hmode rfl (.punctuation rfl rfl (by simp [token]) (by simp [token])
        (by simp [token]) fun hin => absurd hin hout) (tokens_pushNext _ _ _ _)
  | lineComment _ =>
    obtain rfl := Step.next.inj h
    exact adds_lineComment hmode
  | blockComment _ hu =>
    obtain rfl := Step.next.inj h
    exact adds_of_blockComment hmode hu
  | unclosedComment _ _ => cases h
  | division _ hrole =>
    obtain rfl := Step.next.inj h
    unfold division
    split
    · next heq =>
      exact .read hmode rfl (.division rfl rfl hrole (by rw [if_pos heq]; rfl))
        (tokens_pushNext _ _ _ _)
    · next hne =>
      exact .read hmode rfl (.division rfl rfl hrole (by rw [if_neg hne]; rfl))
        (tokens_pushNext _ _ _ _)
  | regex hrest hrole => exact adds_of_regex hmode hrole hrest h
  | punctuation hrest hoperator hword hc =>
    exact adds_of_punctuation hmode hrest hword hc hoperator h
  | unexpected _ => cases h

theorem adds_of_templatePart {opening : Position} (hmode : s.mode = .template opening)
    (h : s.templatePart opening = .next t) : Adds s t := by
  unfold templatePart at h
  split at h
  · cases h
  · next text stop u hu =>
    obtain ⟨-, v, n, hcross, -, htrack⟩ := crosses_of_templateText hu
    have htokens : u.tokens = s.tokens :=
      (congrArg Track.tokens htrack).trans (crosses_tokens hcross)
    extract_lets part w at h
    have hw : w.tokens = { part with quote := some '\x60' } :: s.tokens := by
      rw [← htokens]
      exact u.tokens_push _
    split at h
    · obtain rfl := Step.next.inj h
      exact .part hmode ⟨rfl, rfl⟩ rfl rfl (.inr rfl) ((tokens_pushNext _ _ _ _).trans (by rw [hw]))
    · obtain rfl := Step.next.inj h
      exact .part hmode ⟨rfl, rfl⟩ rfl rfl (.inl rfl) ((tokens_pushNext _ _ _ _).trans (by rw [hw]))

/-- **The tokens that a step adds**, if it is not the last. -/
theorem adds_of_step (h : s.step = .next t) : Adds s t := by
  have haction := s.action_of_step
  generalize s.step = outcome at haction h
  cases haction with
  | part hmode => exact adds_of_templatePart hmode h
  | line _ _ ht =>
    obtain rfl := Step.next.inj h
    obtain ⟨line, below, -, htrack⟩ := track_of_nextLine? ht
    exact .none (congrArg Track.tokens htrack)
  | finish _ _ _ =>
    unfold finish at h
    split at h <;> cases h
  | blanks _ _ _ =>
    obtain rfl := Step.next.inj h
    exact .none rfl
  | token hmode _ _ hcut =>
    -- The state in which the token is read has the tokens, the rest and the mode of the state.
    cases adds_of_cut (s := s.roused) hmode hcut h with
    | none htokens => exact .none htokens
    | read _ hstart hread htokens =>
      refine .read hmode hstart ?_ htokens
      cases hread with
      | word hkind hkeyword hdot => exact .word hkind hkeyword hdot
      | literal hkind hkeyword hquote => exact .literal hkind hkeyword hquote
      | regex hkind hkeyword hrole hread => exact .regex hkind hkeyword hrole hread
      | division hkind hkeyword hrole hvalue => exact .division hkind hkeyword hrole hvalue
      | punctuation hkind hkeyword hslash hequals hdollar hnest =>
        exact .punctuation hkind hkeyword hslash hequals hdollar hnest
    | part hopen _ _ _ _ _ => exact absurd hopen (hmode _)

/-- **The origin of a token**: a step from a reached state has added each token of a reached
state. -/
theorem exists_step_adding {lines : List Line} {s : State} (h : Reaches (.initial lines) s)
    {t : Token} (ht : t ∈ s.tokens) :
    ∃ u v, Reaches (.initial lines) u ∧ u.step = .next v ∧ Reaches v s ∧ t ∉ u.tokens ∧
      t ∈ v.tokens := by
  induction h with
  | refl =>
    have hnone : (initial lines).tokens = [] := tokens_initial lines
    rw [hnone] at ht
    cases ht
  | @tail u v hreach hstep ih =>
    by_cases hu : t ∈ u.tokens
    · obtain ⟨w, x, hw, hx, hon, hbefore, hadded⟩ := ih hu
      exact ⟨w, x, hw, hx, hon.tail hstep, hbefore, hadded⟩
    · exact ⟨u, v, hreach, hstep, .refl, hu, ht⟩

end State

/-- Each token of a completed scan but the end of the source was added by a step from a reached
state. -/
theorem exists_step_of_completed {source : Source} (h : (scan source).fault = none) {t : Token}
    (ht : t ∈ (scan source).tokens) (hkind : t.kind ≠ .eof) :
    ∃ u v, State.Reaches (.initial source.lines.toList) u ∧ u.step = .next v ∧ t ∉ u.tokens ∧
      t ∈ v.tokens := by
  obtain ⟨s, hreach, -, -, -, e, heof, -, htokens⟩ := reached_of_completed h .refl
  rw [htokens, List.mem_reverse] at ht
  rcases List.mem_cons.mp ht with rfl | ht
  · exact absurd heof hkind
  · obtain ⟨u, v, hu, hstep, -, hbefore, hadded⟩ := State.exists_step_adding hreach ht
    exact ⟨u, v, hu, hstep, hbefore, hadded⟩

end ScriptLint
