import ScriptLint.Proofs.Reports
import ScriptLint.Proofs.Scan.Additions
import ScriptLint.Proofs.Scan.Failures
import ScriptLint.Proofs.Slices

/-!
# Template literals are well bracketed

The tokens of a completed pass are a sequence of plain tokens and template literals, and in
a literal text and interpolations take turns.  The grammar below grows at its end, as the
tokens of a scan do, so each step of a scan is a production of it, or the end of one.  The
mode of a scan says which productions are open: none in code, one literal otherwise, and its
opening backtick is the one that the mode remembers.

If the source runs out, it does so behind the tokens of an open literal, and the pass is
aborted at its opening backtick.

## Main definitions

* `Token.IsPlain`, `Token.IsInner` — tokens outside of templates and in interpolations
* `Texts`, `Bracketed` — the grammar
* `AwaitsText`, `InHole` — the beginning of a literal, up to a text or in an interpolation
* `State.RunsOut` — a scan that the source runs out on inside a template
* `WellBracketed` — what the tokens of a pass are

## Main statements

* `shape_of_reaches` — the tokens of a reached state have the shape of its mode
* `State.failed_of_runsOut` — a scan that the source runs out on fails at the opening backtick
* `templates_well_bracketed` — every pass is well bracketed
-/

namespace ScriptLint

/-! ### The grammar -/

/-- A token outside of template literals. -/
structure Token.IsPlain (t : Token) : Prop where
  not_tick : t.isOperator "\x60" = false
  not_opening : t.isOperator "$\x7b" = false
  not_text : ¬ t.IsText

/-- A token in an interpolation. -/
structure Token.IsInner (t : Token) : Prop extends t.IsPlain where
  not_open : t.isOperator "\x7b" = false
  not_close : t.isOperator "\x7d" = false
  not_eof : t.kind ≠ .eof

/-- **The inside of a template literal**: a text, and after any interpolation another one. -/
inductive Texts : List Token → Prop
  | first {part : Token} (hpart : part.IsText) : Texts [part]
  | next {texts inner : List Token} {opens closes part : Token} (htexts : Texts texts)
      (hopens : opens.isOperator "$\x7b" = true) (hinner : ∀ t ∈ inner, t.IsInner)
      (hcloses : closes.isOperator "\x7d" = true) (hpart : part.IsText) :
      Texts (texts ++ opens :: (inner ++ [closes]) ++ [part])

/-- **Bracketed tokens**: plain tokens and template literals. -/
inductive Bracketed : List Token → Prop
  | nil : Bracketed []
  | plain {tokens : List Token} {t : Token} (htokens : Bracketed tokens) (hplain : t.IsPlain) :
      Bracketed (tokens ++ [t])
  | literal {tokens texts : List Token} {opening closing : Token} (htokens : Bracketed tokens)
      (hopening : opening.isOperator "\x60" = true) (htexts : Texts texts)
      (hclosing : closing.isOperator "\x60" = true) :
      Bracketed (tokens ++ opening :: (texts ++ [closing]))

/-- **Awaiting a text**: the tokens of a literal behind its opening backtick, up to a text. -/
inductive AwaitsText : List Token → Prop
  | first : AwaitsText []
  | next {texts inner : List Token} {opens closes : Token} (htexts : Texts texts)
      (hopens : opens.isOperator "$\x7b" = true) (hinner : ∀ t ∈ inner, t.IsInner)
      (hcloses : closes.isOperator "\x7d" = true) :
      AwaitsText (texts ++ opens :: (inner ++ [closes]))

/-- **In an interpolation**: the tokens of a literal behind its opening backtick, up to some
token of an interpolation. -/
inductive InHole : List Token → Prop
  | intro {texts inner : List Token} {opens : Token} (htexts : Texts texts)
      (hopens : opens.isOperator "$\x7b" = true) (hinner : ∀ t ∈ inner, t.IsInner) :
      InHole (texts ++ opens :: inner)

/-- **An open literal** behind bracketed tokens, opened at a place and begun in a way. -/
inductive Open (begun : List Token → Prop) (place : Position) : List Token → Prop
  | intro {tokens body : List Token} {opening : Token} (htokens : Bracketed tokens)
      (hopening : opening.isOperator "\x60" = true) (hplace : opening.start = place)
      (hbody : begun body) : Open begun place (tokens ++ opening :: body)

theorem Open.exists_opening {begun : List Token → Prop} {place : Position} {tokens : List Token}
    (h : Open begun place tokens) :
    ∃ front opening body, tokens = front ++ opening :: body ∧ Bracketed front ∧
      opening.isOperator "\x60" = true ∧ opening.start = place ∧ begun body := by
  obtain ⟨htokens, hopening, hplace, hbody⟩ := h
  exact ⟨_, _, _, rfl, htokens, hopening, hplace, hbody⟩

/-- A text that is awaited makes the inside of a literal. -/
theorem AwaitsText.texts {body : List Token} (h : AwaitsText body) {part : Token}
    (hpart : part.IsText) : Texts (body ++ [part]) := by
  cases h with
  | first => exact .first hpart
  | next htexts hopens hinner hcloses => exact .next htexts hopens hinner hcloses hpart

/-! ### The shape of the tokens so far -/

/-- **Shape**: what tokens look like in a mode. -/
def Mode.Shape : Mode → List Token → Prop
  | .code => Bracketed
  | .template place => Open AwaitsText place
  | .interpolation place => Open InHole place

/-- A text and a delimiter behind tokens in a template close the literal or open an
interpolation. -/
theorem Open.part {place : Position} {tokens : List Token} (h : Open AwaitsText place tokens)
    {part stop : Token} (hpart : part.IsText)
    (hstop : stop.isOperator "\x60" = true ∨ stop.isOperator "$\x7b" = true) :
    (((Mode.template place).after part).after stop).Shape (tokens ++ [part] ++ [stop]) := by
  have hkind : part.kind ≠ .operator := by simp [hpart.1]
  obtain @⟨tokens, body, opening, htokens, hopening, rfl, hbody⟩ := h
  have htexts := hbody.texts hpart
  have hassoc : tokens ++ opening :: body ++ [part] ++ [stop] =
      tokens ++ opening :: (body ++ [part] ++ [stop]) := by simp
  rw [Mode.after_of_kind_ne hkind, hassoc]
  rcases hstop with htick | hopens
  · rw [show Mode.after _ stop = .code by simp [Mode.after, htick]]
    exact .literal htokens hopening htexts htick
  · have htick : stop.isOperator "\x60" = false := by
      simp only [Token.isOperator, Bool.and_eq_true, beq_iff_eq] at hopens
      simp [Token.isOperator, hopens.2]
    rw [show Mode.after _ stop = .interpolation _ by simp [Mode.after, htick, hopens]; rfl]
    exact .intro htokens hopening rfl (.intro htexts hopens (by simp))

/-- A token behind tokens in an interpolation belongs to it or closes it. -/
theorem Open.inner {place : Position} {tokens : List Token} (h : Open InHole place tokens)
    {t : Token} (hplain : t.IsPlain) (hbrace : t.isOperator "\x7b" = false)
    (heof : t.kind ≠ .eof) :
    ((Mode.interpolation place).after t).Shape (tokens ++ [t]) := by
  obtain @⟨tokens, _, opening, htokens, hopening, rfl, hbody⟩ := h
  obtain @⟨texts, inner, opens, htexts, hopens, hinner⟩ := hbody
  have hassoc : tokens ++ opening :: (texts ++ opens :: inner) ++ [t] =
      tokens ++ opening :: (texts ++ opens :: (inner ++ [t])) := by simp
  rw [hassoc]
  cases hclose : t.isOperator "\x7d" with
  | true =>
    rw [show Mode.after _ t = .template _ by simp [Mode.after, hclose]; rfl]
    exact .intro htokens hopening rfl (.next htexts hopens hinner hclose)
  | false =>
    rw [show Mode.after _ t = .interpolation _ by simp [Mode.after, hclose]; rfl]
    refine .intro htokens hopening rfl (.intro htexts hopens ?_)
    intro x hx
    rcases List.mem_append.mp hx with hx | hx
    · exact hinner x hx
    · obtain rfl := List.mem_singleton.mp hx
      exact ⟨hplain, hbrace, hclose, heof⟩

/-- A token behind tokens in code is plain or opens a literal. -/
theorem Bracketed.token {tokens : List Token} (h : Bracketed tokens) {t : Token}
    (hopening : t.isOperator "$\x7b" = false) (htext : ¬ t.IsText) :
    (Mode.code.after t).Shape (tokens ++ [t]) := by
  cases htick : t.isOperator "\x60" with
  | true =>
    rw [show Mode.after _ t = .template t.start by simp [Mode.after, htick]]
    exact .intro h htick rfl .first
  | false =>
    rw [show Mode.after _ t = .code by simp [Mode.after, htick]]
    exact .plain h ⟨htick, hopening, htext⟩

/-! ### Steps are productions -/

namespace State

variable {s t : State}

/-- What a token that is read is not. -/
theorem Reads.rulesOut {new : Token} (h : Reads s new) :
    new.isOperator "$\x7b" = false ∧ ¬ new.IsText ∧ new.kind ≠ .eof ∧
      (s.inTemplate = true → new.isOperator "\x7b" = false ∧ new.isOperator "\x60" = false) := by
  cases h with
  | word hkind _ _ =>
    rcases hkind with hkind | hkind
    · simp [Token.isOperator, Token.IsText, hkind]
    · simp [Token.isOperator, Token.IsText, hkind]
  | literal hkind _ hquote =>
    rcases hkind with hkind | hkind | hkind
    · simp [Token.isOperator, Token.IsText, hkind]
    · simp [Token.isOperator, Token.IsText, hkind, hquote]
    · simp [Token.isOperator, Token.IsText, hkind]
  | regex hkind _ _ => simp [Token.isOperator, Token.IsText, hkind]
  | division hkind _ _ hvalue =>
    split at hvalue
    · simp [Token.isOperator, Token.IsText, hkind, hvalue]
    · simp [Token.isOperator, Token.IsText, hkind, hvalue]
  | punctuation hkind _ _ _ hdollar hnest =>
    refine ⟨by simp [Token.isOperator, hdollar], by simp [Token.IsText, hkind], by simp [hkind], ?_⟩
    intro hin
    simp [Token.isOperator, hnest hin]

/-- **Every step is a production**: it keeps the shape of the tokens. -/
theorem shape_of_step (hshape : (modeAfter s.tokens).Shape s.tokens.reverse)
    (hmode : s.mode = modeAfter s.tokens) (h : s.step = .next t) :
    (modeAfter t.tokens).Shape t.tokens.reverse := by
  rw [← hmode] at hshape
  cases adds_of_step h with
  | none htokens => rwa [htokens, ← hmode]
  | @read houtside new _ hread htokens =>
    obtain ⟨hopening, htext, heof, hnest⟩ := hread.rulesOut
    rw [htokens, List.reverse_cons]
    show ((modeAfter s.tokens).after new).Shape _
    rw [← hmode]
    cases hm : s.mode with
    | code =>
      rw [hm] at hshape
      exact hshape.token hopening htext
    | template place => exact absurd hm (houtside place)
    | interpolation place =>
      rw [hm] at hshape
      obtain ⟨hbrace, htick⟩ := hnest (by simp [inTemplate, hm, Mode.opening?])
      exact hshape.inner ⟨htick, hopening, htext⟩ hbrace heof
  | @part place hplace part stop hpart _ _ hstop htokens =>
    rw [htokens, List.reverse_cons, List.reverse_cons]
    show (((modeAfter s.tokens).after part).after stop).Shape _
    rw [hplace] at hshape hmode
    rw [← hmode]
    exact hshape.part hpart hstop

end State

/-- **The tokens of a reached state** have the shape of its mode. -/
theorem shape_of_reaches {lines : List Line} {s : State}
    (h : State.Reaches (.initial lines) s) : s.mode.Shape s.tokens.reverse := by
  rw [mode_of_reaches h]
  induction h with
  | refl =>
    have htokens : (State.initial lines).tokens = [] := State.tokens_initial lines
    rw [htokens]
    exact Bracketed.nil
  | tail hreach hstep ih => exact State.shape_of_step ih (mode_of_reaches hreach) hstep

/-! ### When the source runs out -/

namespace State

/-- **The source runs out** inside a template: in a text no line that is left has a delimiter, or in
an interpolation nothing is left. -/
def RunsOut (s : State) : Prop :=
  match s.mode with
  | .code => False
  | .template _ => (templateChunk [] s.rest).2 = .lineEnd ∧
      ∀ line ∈ s.below, (templateChunk [] line.text.toList).2 = .lineEnd
  | .interpolation _ => s.rest = [] ∧ s.below = []

/-- The text of a template goes on to the end of the source if no line has a delimiter. -/
theorem templateText_error_iff {s : State} (hin : s.inTemplate = true) (text : List Char) :
    (∃ t, s.templateText text = .error t) ↔
      (templateChunk [] s.rest).2 = .lineEnd ∧
        ∀ line ∈ s.below, (templateChunk [] line.text.toList).2 = .lineEnd := by
  fun_induction templateText text s with
  | case1 text s read hread u hu ih =>
    obtain ⟨line, below, hbelow, htrack⟩ := track_of_nextLine? hu
    have hmode : u.inTemplate = s.inTemplate :=
      congrArg (fun v : Track => v.mode.opening?.isSome) htrack
    have hrest : u.rest = line.text.toList := by
      have henter : u.rest = if s.inTemplate then line.text.toList else untabbed line.text.toList :=
        congrArg Track.rest htrack
      rw [henter, if_pos hin]
    have hbelow' : u.below = below := congrArg Track.below htrack
    rw [ih (hmode.trans hin), hrest, hbelow', hbelow, List.forall_mem_cons]
    exact (and_iff_right hread).symm
  | case2 text s read hread hnone =>
    refine iff_of_true ⟨s, rfl⟩ ⟨hread, ?_⟩
    rw [below_eq_nil_of_nextLine? hnone]
    simp
  | case3 text s read hread =>
    refine iff_of_false ?_ fun h => hread h.1
    rintro ⟨t, ht⟩
    cases ht

variable {s t : State}

/-- **A scan that the source runs out on** stops at the opening backtick of the template. -/
theorem failed_of_runsOut {place : Position} (hplace : s.mode.opening? = some place)
    (h : s.RunsOut) : ∃ u, u.tokens = s.tokens ∧
      s.step = .failed u { rule := .unclosedMega, line := place.line, column := place.column + 1,
                           args := [] } := by
  cases hmode : s.mode with
  | code => simp [hmode, Mode.opening?] at hplace
  | template opening =>
    obtain rfl : opening = place := by simpa [hmode, Mode.opening?] using hplace
    have hin : s.inTemplate = true := by simp [inTemplate, hmode, Mode.opening?]
    rw [RunsOut, hmode] at h
    obtain ⟨u, hu⟩ := (templateText_error_iff hin []).mpr h
    refine ⟨u.leaveLine, ?_, ?_⟩
    · have htrack := u.track_leaveLine
      exact (congrArg Track.tokens htrack).trans
        (Track.crosses_tokens (crosses_of_templateText_error hu))
    · simp [step, hmode, templatePart, hu, fail]
  | interpolation opening =>
    obtain rfl : opening = place := by simpa [hmode, Mode.opening?] using hplace
    rw [RunsOut, hmode] at h
    refine ⟨s.leaveLine, congrArg Track.tokens s.track_leaveLine, ?_⟩
    simp [step, hmode, h.1, nextLine?, h.2, finish, Mode.opening?, fail]

/-- A scan that stops inside a template stops because the source runs out, or at a token. -/
theorem runsOut_or_of_failed {fault : Finding} (hin : s.inTemplate = true)
    (h : s.step = .failed t fault) :
    s.RunsOut ∨ ∃ c tail, s.rest = c :: tail ∧ isBlank c = false := by
  have haction := s.action_of_step
  generalize s.step = outcome at haction h
  cases haction with
  | part hmode =>
    unfold templatePart at h
    split at h
    · next u hu =>
      refine .inl ?_
      rw [RunsOut, hmode]
      exact (templateText_error_iff hin []).mp ⟨u, hu⟩
    · extract_lets at h
      split at h <;> cases h
  | line _ _ _ => cases h
  | finish hmode hrest hbelow =>
    refine .inl ?_
    cases hm : s.mode with
    | code => simp [inTemplate, hm, Mode.opening?] at hin
    | template place => exact absurd hm (hmode place)
    | interpolation place =>
      rw [RunsOut, hm]
      exact ⟨hrest, hbelow⟩
  | blanks _ _ _ => cases h
  | token _ hrest hblank _ => exact .inr ⟨_, _, hrest, hblank⟩

end State

/-! ### Passes -/

/-- A backtick of a reached state stands in the source. -/
theorem shows_start_of_tick {source : Source} {s : State}
    (h : State.Reaches (.initial source.lines.toList) s) {t : Token} (ht : t ∈ s.tokens)
    (htick : t.isOperator "\x60" = true) : source.Shows t.start.line (t.start.column + 1) := by
  simp only [Token.isOperator, Bool.and_eq_true, beq_iff_eq] at htick
  obtain ⟨-, hslice⟩ := ((sliced_of_reaches h).slices t ht).verbatim (by rw [htick.1]; rfl)
  have hcolumn : t.start.column < source.lengthAt t.start.line := by
    by_contra hbeyond
    have hnil : (source.readAt s.tokens t.start.line).drop t.start.column = [] := by
      rw [List.drop_eq_nil_iff, source.length_readAt]
      exact Nat.not_lt.mp hbeyond
    rw [htick.2, List.extract_eq_take_drop, show s.track.tokens = s.tokens from rfl, hnil] at hslice
    simp at hslice
  obtain ⟨c, hchar⟩ : ∃ c, source.charAt? t.start = some c := by
    refine Option.ne_none_iff_exists'.mp fun hnone => ?_
    have hlength := List.getElem?_eq_none_iff.mp hnone
    rw [String.length_toList] at hlength
    exact absurd hcolumn (Nat.not_lt.mpr hlength)
  obtain ⟨⟨hline, hlast, -⟩, -⟩ := Source.contains_of_charAt? hchar
  exact ⟨hline, hlast, Nat.le_add_left 1 _, Nat.le_trans hcolumn (Nat.le_max_right _ _)⟩

/-- The tokens so far, when the source runs out: an open literal behind bracketed tokens. -/
theorem exists_open_of_runsOut {lines : List Line} {s : State}
    (h : State.Reaches (.initial lines) s) (hout : s.RunsOut) :
    ∃ tokens opening body, s.tokens.reverse = tokens ++ opening :: body ∧ Bracketed tokens ∧
      opening.isOperator "\x60" = true ∧ (AwaitsText body ∨ InHole body) ∧
      s.mode.opening? = some opening.start := by
  have hshape := shape_of_reaches h
  cases hmode : s.mode with
  | code =>
    rw [State.RunsOut, hmode] at hout
    exact hout.elim
  | template place =>
    rw [hmode] at hshape
    obtain ⟨tokens, opening, body, heq, htokens, hopening, rfl, hbody⟩ := hshape.exists_opening
    exact ⟨tokens, opening, body, heq, htokens, hopening, .inl hbody, rfl⟩
  | interpolation place =>
    rw [hmode] at hshape
    obtain ⟨tokens, opening, body, heq, htokens, hopening, rfl, hbody⟩ := hshape.exists_opening
    exact ⟨tokens, opening, body, heq, htokens, hopening, .inr hbody, rfl⟩

/-- **Well bracketed**: what the tokens of a pass are with respect to template literals. -/
structure WellBracketed (settings : Settings) (text : String) : Prop where
  /-- The tokens of a completed pass are bracketed, but for the last, the end of the source. -/
  completed : (Pass.run settings text).abort = none →
    ∃ tokens e, (Pass.run settings text).tokens = tokens ++ [e] ∧ e.kind = .eof ∧
      Bracketed tokens
  /-- A scan that the source runs out on inside a literal is aborted at its opening backtick. -/
  runsOut : ∀ s, State.Reaches (.initial (Source.ofString text).lines.toList) s → s.RunsOut →
    ∃ tokens opening body, (Pass.run settings text).tokens = tokens ++ opening :: body ∧
      Bracketed tokens ∧ opening.isOperator "\x60" = true ∧ (AwaitsText body ∨ InHole body) ∧
      (Pass.run settings text).abort =
        some ⟨.unclosedMega, opening.start.line, opening.start.column + 1⟩
  /-- Any other scan that stops inside a literal does so at a token, of which a character is
  there. -/
  atToken : ∀ s t fault, State.Reaches (.initial (Source.ofString text).lines.toList) s →
    s.inTemplate = true → s.step = .failed t fault →
    s.RunsOut ∨ ∃ c tail, s.rest = c :: tail ∧ isBlank c = false

/-- **Template literals are well bracketed**, whatever comments, strings and regular expressions
there are in their interpolations. -/
theorem templates_well_bracketed (settings : Settings) (text : String) :
    WellBracketed settings text where
  completed := by
    intro h
    obtain ⟨s, hreach, hmode, -, -, e, hkind, -, htokens⟩ :=
      reached_of_completed (fault_eq_none_of_abort h) .refl
    have hshape := shape_of_reaches hreach
    rw [hmode] at hshape
    refine ⟨s.tokens.reverse, e, ?_, hkind, hshape⟩
    rw [← List.reverse_cons]
    exact htokens
  runsOut := by
    intro s hreach hout
    obtain ⟨tokens, opening, body, heq, htokens, hopening, hbody, hplace⟩ :=
      exists_open_of_runsOut hreach hout
    obtain ⟨u, hu, hstep⟩ := State.failed_of_runsOut hplace hout
    have hrun := (State.run_of_reaches hreach).trans (State.run_of_failed hstep)
    refine ⟨tokens, opening, body, ?_, htokens, hopening, hbody, ?_⟩
    · show (scan (.ofString text)).tokens = _
      simp only [scan, hrun]
      rw [hu, heq]
    · have hmem : opening ∈ s.tokens := by
        rw [← List.mem_reverse, heq]
        simp
      obtain ⟨hline, hcolumn⟩ := (shows_start_of_tick hreach hmem hopening).clamp
      simp [Pass.run, Pass.ofSource, scan, hrun, hline, hcolumn]
  atToken := fun _ _ _ _ => State.runsOut_or_of_failed

/-- Literals whose interpolations hold a comment, a string and a regular expression. -/
theorem bracketed_of_interpolations :
    ∃ tokens e, (Pass.run {} "\x60a$\x7b/\x7d/ // \x60\n + '\x60'\x7d$\x7b\x7d\x60;").tokens =
      tokens ++ [e] ∧ e.kind = .eof ∧ Bracketed tokens :=
  (templates_well_bracketed {} _).completed (by decide +kernel)

end ScriptLint
