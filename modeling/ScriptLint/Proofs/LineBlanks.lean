import Mathlib.Data.List.Chain
import ScriptLint.Proofs.Findings
import ScriptLint.Proofs.LongLines
import ScriptLint.Proofs.Patterns

/-!
# Tabs and blanks of lines

Every line is checked when it is entered: for a tab, and for blanks at its end.  Inside a template
both are text, so a line that is entered there is not checked.  As the tokens tell which lines those
are, what a scan has found is what the lines entered so far have, each once.

The rule on blanks is broken as well by a token that touches a comment or a regular expression.
Behind the flags of a regular expression stands no slash if the scan completes, so in the end only
comments are touched.

## Main definitions

* `Rule.blankColumn?` — where a line breaks a rule on blanks
* `Token.Touches`, `Rule.Apart` — neighbours that break the rule on blanks, and tokens without any
* `State.Swept`, `Sweeping` — a state that has found what its lines have
* `LineBlanks` — what a completed pass reports on tabs and blanks

## Main statements

* `Sweeping.swept_of_step` — a step finds what the lines it enters have
* `kind_of_touches` — only comments are touched
* `blanks_verify` — the tabs and blanks that a completed pass reports
* `lineBlanks_exact` — they are reported exactly
-/

namespace ScriptLint

/-! ### Tabs and blanks of a text -/

namespace Rule

/-- **The column at which a line breaks a rule on blanks**: that of its first tab, or of the first
of the blanks at its end. -/
def blankColumn? (rule : Rule) (text : List Char) : Option Nat :=
  match rule with
  | noTabs =>
    let tab := (text.takeWhile (· != '\t')).length
    if tab < text.length then some (tab + 1) else none
  | noIrregularWhitespace =>
    let kept := (trimBlankEnd text).length
    if kept < text.length then some (kept + 1) else none
  | _ => none

variable {text front kept run : List Char}

theorem blankColumn?_tab (h : '\t' ∉ front) (back : List Char) :
    noTabs.blankColumn? (front ++ '\t' :: back) = some (front.length + 1) := by
  have hfront : ∀ c ∈ front, (c != '\t') = true := fun c hc => by
    rw [bne_iff_ne]
    rintro rfl
    exact h hc
  have htake : (front ++ '\t' :: back).takeWhile (· != '\t') = front := by
    rw [List.takeWhile_append_of_pos hfront, List.takeWhile_cons_of_neg (by simp),
      List.append_nil]
  simp [blankColumn?, htake]

theorem blankColumn?_of_not_mem (h : '\t' ∉ text) : noTabs.blankColumn? text = none := by
  have htake : text.takeWhile (· != '\t') = text := by
    refine List.takeWhile_eq_self_iff.mpr fun c hc => ?_
    rw [bne_iff_ne]
    rintro rfl
    exact h hc
  simp [blankColumn?, htake]

theorem blankColumn?_blanks (hrun : run ≠ []) (hblank : ∀ c ∈ run, isBlank c = true)
    (hkept : ∀ c, kept.getLast? = some c → isBlank c = false) :
    noIrregularWhitespace.blankColumn? (kept ++ run) = some (kept.length + 1) := by
  have hpos := List.length_pos_iff.mpr hrun
  simp [blankColumn?, trimBlankEnd_append hblank, trimBlankEnd_eq_self hkept, hpos]

theorem blankColumn?_of_getLast? (h : ∀ c, text.getLast? = some c → isBlank c = false) :
    noIrregularWhitespace.blankColumn? text = none := by
  simp [blankColumn?, trimBlankEnd_eq_self h]

/-- The place where a line breaks a rule is on the line. -/
theorem le_length_of_blankColumn? {rule : Rule} {column : Nat}
    (h : rule.blankColumn? text = some column) : 1 ≤ column ∧ column ≤ text.length := by
  unfold blankColumn? at h
  split at h
  · extract_lets tab at h
    split at h
    · next hlt => exact Option.some.inj h ▸ ⟨Nat.succ_pos _, hlt⟩
    · cases h
  · extract_lets kept at h
    split at h
    · next hlt => exact Option.some.inj h ▸ ⟨Nat.succ_pos _, hlt⟩
    · cases h
  · cases h

end Rule

/-! ### The findings of lines -/

/-- The finding on a line that breaks a rule on blanks. -/
def Source.blankOn? (source : Source) (rule : Rule) (n : Nat) : Option Finding :=
  (rule.blankColumn? (source.textAt n).toList).map fun column => { rule, line := n, column }

/-- **The findings on the lines** up to `n`, newest first, without the lines that some tokens tell to
start inside a template. -/
def Source.blanksUpTo (source : Source) (rule : Rule) (tokens : List Token) (n : Nat) :
    List Finding :=
  (((List.range' 1 n).filter fun m => backticksBefore tokens m % 2 = 0).filterMap
    (source.blankOn? rule)).reverse

section

variable {source : Source} {rule : Rule} {tokens : List Token} {n : Nat}

theorem blanksUpTo_succ : source.blanksUpTo rule tokens (n + 1) =
    (if backticksBefore tokens (n + 1) % 2 = 1 then []
      else (source.blankOn? rule (n + 1)).toList) ++ source.blanksUpTo rule tokens n := by
  have hlast : List.range' 1 (n + 1) = List.range' 1 n ++ [n + 1] := by
    rw [List.range'_concat, Nat.one_mul, Nat.add_comm 1 n]
  rw [Source.blanksUpTo, hlast, List.filter_append, List.filterMap_append, List.reverse_append,
    Source.blanksUpTo, List.filter_singleton]
  congr 1
  rcases Nat.mod_two_eq_zero_or_one (backticksBefore tokens (n + 1)) with heven | hodd
  · cases hfinding : source.blankOn? rule (n + 1) <;> simp [heven, hfinding]
  · simp [hodd]

/-- A backtick tells nothing of the lines up to its own. -/
theorem blanksUpTo_cons {t : Token} (h : t.isOperator "\x60" = true → n ≤ t.start.line) :
    source.blanksUpTo rule (t :: tokens) n = source.blanksUpTo rule tokens n := by
  refine congrArg (fun lines : List Nat => (lines.filterMap (source.blankOn? rule)).reverse) ?_
  refine List.filter_congr fun m hm => ?_
  have hle := (List.mem_range'_1.mp hm).2
  rw [backticksBefore_cons_of_le tokens fun htick => (by have hn := h htick; omega)]

end

/-! ### Neighbours -/

/-- **Touching**: a comment or a regular expression ends where a comment, a regular expression or a
slash starts. -/
def Token.Touches (p t : Token) : Prop :=
  p.stop = t.start ∧ p.isCommentLike = true ∧ (t.isCommentLike || t.isOperator "/") = true

instance (p t : Token) : Decidable (p.Touches t) := inferInstanceAs (Decidable (_ ∧ _))

/-- **Apart**: of tokens, newest first, no two neighbours break a rule on blanks. -/
def Rule.Apart (rule : Rule) (tokens : List Token) : Prop :=
  rule = .noIrregularWhitespace → tokens.IsChain fun t p => ¬ p.Touches t

theorem Rule.Apart.of_cons {rule : Rule} {t : Token} {tokens : List Token}
    (h : rule.Apart (t :: tokens)) : rule.Apart tokens := fun hrule => (h hrule).tail

namespace State

variable {rule : Rule} (s : State)

/-- What a line has is found when it is checked. -/
theorem found_checkBlanks (hrule : rule ∈ Rule.onBlanks) (text : List Char) :
    (s.checkBlanks text).found rule =
      ((rule.blankColumn? text).map fun column =>
        { rule, line := s.line, column : Finding }).toList ++ s.found rule := by
  unfold checkBlanks
  extract_lets tab kept
  rcases List.mem_pair.mp hrule with rfl | rfl
  · rw [found_noteIf_of_ne _ (by decide), noteIf]
    by_cases htab : tab < text.length
    · rw [if_pos (decide_eq_true htab), found_note]
      simp [Rule.blankColumn?, tab, htab]
    · rw [if_neg (by simpa using htab)]
      simp [Rule.blankColumn?, tab, htab]
  · rw [noteIf]
    by_cases hkept : kept < text.length
    · have hline : State.line _ = s.line :=
        congrArg Track.line (s.track_noteIf (decide (tab < text.length)) .noTabs (tab + 1) [])
      rw [if_pos (decide_eq_true hkept), found_note, found_noteIf_of_ne _ (by decide), hline]
      simp [Rule.blankColumn?, kept, hkept]
    · rw [if_neg (by simpa using hkept), found_noteIf_of_ne _ (by decide)]
      simp [Rule.blankColumn?, kept, hkept]

/-- A token that touches nothing breaks no rule on blanks. -/
theorem found_push_of_apart (hrule : rule ∈ Rule.onBlanks) {t : Token}
    (hapart : rule.Apart (t :: s.tokens)) : (s.push t).found rule = s.found rule := by
  show (s.checkNeighbours t).found rule = s.found rule
  unfold checkNeighbours
  split
  · rfl
  · next p older htokens =>
    extract_lets touching
    rw [found_noteIf_of_ne _ (by rintro rfl; exact absurd hrule (by decide))]
    rcases List.mem_pair.mp hrule with rfl | rfl
    · exact s.found_noteIf_of_ne (by decide) _ _ _
    · have hfree : touching = false := by
        rw [htokens] at hapart
        simpa [touching, Token.Touches] using (List.isChain_cons_cons.mp (hapart rfl)).1
      rw [hfree, noteIf]
      rfl

/-- A literal breaks no rule on blanks. -/
theorem found_noteAll_of_owned (hrule : rule ∈ Rule.onBlanks) {findings : List Finding}
    {offset : Nat} (h : ∀ f ∈ findings, (s.surroundings offset).Owns f) :
    (s.noteAll findings).found rule = s.found rule := by
  have hnone : findings.filter (·.rule = rule) = [] := by
    refine List.filter_eq_nil_iff.mpr fun f hf heq => ?_
    obtain ⟨-, -, hliteral⟩ := h f hf
    rw [of_decide_eq_true heq] at hliteral
    rcases List.mem_pair.mp hrule with rfl | rfl
    · exact absurd hliteral (by decide)
    · exact absurd hliteral (by decide)
  rw [found_noteAll, hnone, List.nil_append]

/-! ### Sweeping -/

/-- **Swept**: a state has found of a rule on blanks what its lines have. -/
def Swept (source : Source) (rule : Rule) (s : State) : Prop :=
  s.found rule = source.blanksUpTo rule s.tokens s.line

end State

/-- **Sweeping**: a state that is swept and enters its next line as the tokens tell. -/
structure Sweeping (source : Source) (rule : Rule) (s : State) : Prop where
  swept : s.Swept source rule
  below : s.below = source.lines.toList.drop s.line
  parity : s.inTemplate = decide (backticksBefore s.tokens (s.line + 1) % 2 = 1)
  start_le : ∀ t ∈ s.tokens, t.start.line ≤ s.line

section

variable {source : Source} {rule : Rule} {s t : State}

namespace State

theorem Swept.of_eq (h : s.Swept source rule) (hline : t.line = s.line)
    (htokens : t.tokens = s.tokens) (hfound : t.found rule = s.found rule) :
    t.Swept source rule := by
  rw [Swept, hfound, htokens, hline]
  exact h

theorem Swept.of_track (h : s.Swept source rule) (htrack : t.track = s.track)
    (hfound : t.found rule = s.found rule) : t.Swept source rule :=
  h.of_eq (congrArg Track.line htrack) (congrArg Track.tokens htrack) hfound

/-- Adding a token on the line, or one that is no backtick. -/
theorem Swept.push (h : s.Swept source rule) (hrule : rule ∈ Rule.onBlanks) {c : Token}
    (htick : c.isOperator "\x60" = true → s.line ≤ c.start.line)
    (hapart : rule.Apart (s.push c).tokens) : (s.push c).Swept source rule := by
  rw [tokens_push] at hapart
  rw [Swept, s.found_push_of_apart hrule hapart, tokens_push, line_push, blanksUpTo_cons htick]
  exact h

theorem Swept.pushNext (h : s.Swept source rule) (hrule : rule ∈ Rule.onBlanks) {n : Nat}
    {kind : TokenKind} {value : String} (hapart : rule.Apart (s.pushNext n kind value).tokens) :
    (s.pushNext n kind value).Swept source rule :=
  Swept.push (s := s.advance n) h hrule (fun _ => Nat.le_refl _) hapart

/-- A line is checked when it is entered outside of templates. -/
theorem found_enter_of_blanks (s : State) (hrule : rule ∈ Rule.onBlanks) (line : Line)
    (below : List Line) : (s.enter line below).found rule =
      (if s.inTemplate = true then []
        else ((rule.blankColumn? line.text.toList).map fun column =>
          { rule, line := s.line + 1, column : Finding }).toList) ++ s.found rule := by
  unfold enter
  extract_lets text u
  split
  · rfl
  · exact u.found_checkBlanks hrule text

end State

namespace Sweeping

theorem of_placed (hplaced : Placed source s.track) (h : s.Swept source rule) :
    Sweeping source rule s :=
  ⟨h, hplaced.below, hplaced.mode, hplaced.start_le⟩

theorem of_eq (h : Sweeping source rule s) (hline : t.line = s.line) (hbelow : t.below = s.below)
    (hmode : t.inTemplate = s.inTemplate) (htokens : t.tokens = s.tokens)
    (hfound : t.found rule = s.found rule) : Sweeping source rule t where
  swept := h.swept.of_eq hline htokens hfound
  below := by rw [hbelow, hline, h.below]
  parity := by rw [hmode, htokens, hline, h.parity]
  start_le := by
    rw [htokens, hline]
    exact h.start_le

theorem of_track (h : Sweeping source rule s) (htrack : t.track = s.track)
    (hfound : t.found rule = s.found rule) : Sweeping source rule t :=
  h.of_eq (congrArg Track.line htrack) (congrArg Track.below htrack)
    (congrArg Track.inTemplate htrack) (congrArg Track.tokens htrack) hfound

theorem advance (h : Sweeping source rule s) (n : Nat) : Sweeping source rule (s.advance n) :=
  h.of_eq rfl rfl rfl rfl rfl

/-- Entering a line finds what it has. -/
theorem enter (h : Sweeping source rule s) (hrule : rule ∈ Rule.onBlanks) {line : Line}
    {below : List Line} (hbelow : s.below = line :: below) :
    Sweeping source rule (s.enter line below) := by
  have htrack := s.track_enter line below
  have hline : (s.enter line below).line = s.line + 1 := congrArg Track.line htrack
  have htokens : (s.enter line below).tokens = s.tokens := congrArg Track.tokens htrack
  have hmode : (s.enter line below).inTemplate = s.inTemplate := congrArg Track.inTemplate htrack
  have hdrop : source.lines.toList.drop s.line = line :: below := h.below ▸ hbelow
  have hparity : backticksBefore s.tokens (s.line + 1 + 1) =
      backticksBefore s.tokens (s.line + 1) :=
    backticksBefore_succ fun t ht => Nat.lt_succ_of_le (h.start_le t ht)
  refine ⟨?_, ?_, ?_, fun t ht => ?_⟩
  · have hswept : s.found rule = source.blanksUpTo rule s.tokens s.line := h.swept
    rw [State.Swept, s.found_enter_of_blanks hrule, htokens, hline, blanksUpTo_succ, hswept,
      h.parity, Source.blankOn?, Source.textAt_succ hdrop]
    simp only [decide_eq_true_eq]
  · rw [State.below_enter, hline, ← List.tail_drop, hdrop]
    rfl
  · rw [hmode, htokens, hline, hparity]
    exact h.parity
  · rw [hline]
    exact Nat.le_succ_of_le (h.start_le t (htokens ▸ ht))

theorem nextLine? (h : Sweeping source rule s) (hrule : rule ∈ Rule.onBlanks)
    (hnext : s.nextLine? = some t) : Sweeping source rule t := by
  unfold State.nextLine? at hnext
  split at hnext
  · cases hnext
  · next line below hbelow =>
    obtain rfl := Option.some.inj hnext
    have htrack := s.track_leaveLine
    have hleave : Sweeping source rule s.leaveLine := h.of_track htrack s.found_leaveLine
    exact hleave.enter hrule ((congrArg Track.below htrack).trans hbelow)

/-- The end of a block comment is looked for over lines. -/
theorem closeComment (h : Sweeping source rule s) (hrule : rule ∈ Rule.onBlanks)
    {parts : List String} {text : String} (hclose : s.closeComment parts = .ok (text, t)) :
    Sweeping source rule t := by
  have hne : rule ≠ .nestedComment := by
    rintro rfl
    exact absurd hrule (by decide)
  have hnested (u : State) (part : List Char) : (u.noteNested part).found rule = u.found rule := by
    unfold State.noteNested
    split
    · exact u.found_note_of_ne hne _ _
    · rfl
  have hlast (u : State) (part : List Char) :
      (u.noteNestedLast part).found rule = u.found rule := by
    unfold State.noteNestedLast
    split
    · exact u.found_note_of_ne hne _ _
    · exact u.found_noteIf_of_ne hne _ _ _
  fun_induction State.closeComment parts s with
  | case1 parts s i hi part =>
    obtain ⟨-, rfl⟩ := Prod.mk.inj (Except.ok.inj hclose)
    exact (h.of_track (s.track_noteNestedLast part) (hlast s part)).advance _
  | case2 parts s hi s' u hu ih =>
    have hs' : Sweeping source rule s' := h.of_track (s.track_noteNested s.rest) (hnested s s.rest)
    exact ih (hs'.nextLine? hrule hu) hclose
  | case3 => cases hclose

/-- The stop of the text of a template is looked for over lines. -/
theorem templateText (h : Sweeping source rule s) (hrule : rule ∈ Rule.onBlanks)
    {text text' : List Char} {stop : TemplateStop}
    (hread : s.templateText text = .ok (text', stop, t)) : Sweeping source rule t := by
  fun_induction State.templateText text s with
  | case1 text s read hstop u hu ih => exact ih (h.nextLine? hrule hu) hread
  | case2 => cases hread
  | case3 text s read hstop =>
    obtain ⟨-, -, rfl⟩ : _ ∧ _ ∧ _ = t := by simpa using hread
    exact h.advance _

end Sweeping

/-! ### Steps -/

namespace State

section

variable (h : s.Swept source rule) (hrule : rule ∈ Rule.onBlanks)

include h hrule

/-- What a literal finds is nothing on blanks. -/
theorem Swept.noteAll {findings : List Finding} {offset : Nat}
    (howned : ∀ f ∈ findings, (s.surroundings offset).Owns f) :
    (s.noteAll findings).Swept source rule :=
  h.of_eq rfl rfl (s.found_noteAll_of_owned hrule howned)

theorem Swept.inspectComment (value : List Char) (start : Position) :
    (s.inspectComment value start).Swept source rule := by
  have hnone : rule ∉ Rule.onDirectives := by
    rcases List.mem_pair.mp hrule with rfl | rfl
    · decide
    · decide
  exact h.of_track (s.track_inspectComment value start) (s.found_inspectComment hnone value start)

variable (hapart : rule.Apart t.tokens)

include hapart

theorem Swept.of_number {lead : Nat} (hread : s.number lead = .next t) : t.Swept source rule := by
  have howned := Strand.owned_number (s.surroundings 0) s.rest lead
  unfold number at hread
  split at hread
  · cases hread
  · next read hown =>
    rw [hown] at howned
    obtain rfl := Step.next.inj hread
    exact (h.noteAll hrule howned).pushNext hrule hapart

theorem Swept.of_string {quote : Char} (hread : s.string quote = .next t) :
    t.Swept source rule := by
  have howned := Strand.owned_quoted (s.surroundings 1) s.rest.tail quote
  unfold string at hread
  split at hread
  · cases hread
  · next read hown =>
    rw [hown] at howned
    extract_lets u base at hread
    obtain rfl := Step.next.inj hread
    have hu : u.Swept source rule := h.noteAll hrule howned
    exact hu.push hrule (fun _ => Nat.le_refl _) hapart

theorem Swept.of_regex {role : SlashRole} (hread : s.regex role = .next t) :
    t.Swept source rule := by
  unfold regex at hread
  extract_lets u at hread
  have howned := Strand.owned_regex (u.surroundings 1) u.rest.tail
  split at hread
  · cases hread
  · next read missesFlag hown =>
    rw [hown] at howned
    extract_lets value v w at hread
    have hu : u.Swept source rule := h.of_eq rfl rfl rfl
    have hwtrack : w.track = v.track := v.track_noteIf _ _ _ _
    have hw (hvapart : rule.Apart v.tokens) : w.Swept source rule :=
      ((hu.noteAll hrule howned).pushNext hrule hvapart).of_track hwtrack
        (v.found_noteIf_of_ne (ne_of_mem_of_not_mem hrule (by decide)) _ _ _)
    have htokens : w.tokens = v.tokens := congrArg Track.tokens hwtrack
    split at hread
    · obtain rfl := Step.next.inj hread
      have hother : rule ≠ .unexpectedA := ne_of_mem_of_not_mem hrule (by decide)
      exact (hw (htokens ▸ hapart)).of_eq rfl rfl (w.found_emit_of_none (if_neg hother.symm))
    · obtain rfl := Step.next.inj hread
      exact (hw (htokens ▸ hapart)).of_eq rfl rfl
        (w.found_note_of_ne (ne_of_mem_of_not_mem hrule (by decide)) _ _)
    · obtain rfl := Step.next.inj hread
      exact hw (htokens ▸ hapart)

theorem Swept.of_division (hread : t = s.division) : t.Swept source rule := by
  unfold division at hread
  split at hread
  · subst hread
    have hnoted : (s.note .unexpectedA (s.column + 2) ["/="]).Swept source rule :=
      h.of_eq rfl rfl (s.found_note_of_ne (ne_of_mem_of_not_mem hrule (by decide)) _ _)
    exact hnoted.pushNext hrule hapart
  · subst hread
    exact h.pushNext hrule hapart

theorem Swept.of_backtick (hread : s.backtick = .next t) : t.Swept source rule := by
  unfold backtick at hread
  split at hread
  · cases hread
  · obtain rfl := Step.next.inj hread
    have hpush : (s.pushNext 1 .operator "\x60").Swept source rule := h.pushNext hrule hapart
    exact hpush.of_eq rfl rfl rfl

theorem Swept.of_punctuation {n : Nat} (hread : s.punctuation n = .next t) :
    t.Swept source rule := by
  unfold punctuation at hread
  extract_lets value u at hread
  have hu (huapart : rule.Apart u.tokens) : u.Swept source rule := h.pushNext hrule huapart
  split at hread
  · split at hread
    · obtain rfl := Step.next.inj hread
      exact (hu hapart).of_eq rfl rfl rfl
    · split at hread
      · cases hread
      · obtain rfl := Step.next.inj hread
        exact hu hapart
  · obtain rfl := Step.next.inj hread
    exact hu hapart

theorem Swept.of_lineComment (hread : t = s.lineComment) : t.Swept source rule := by
  unfold lineComment at hread
  extract_lets value u v at hread
  subst hread
  have hnoted := v.track_noteIf v.inTemplate .unexpectedComment v.column []
  have htokens : State.tokens _ = v.tokens :=
    (congrArg Track.tokens (track_inspectComment _ value s.position)).trans
      (congrArg Track.tokens hnoted)
  rw [htokens] at hapart
  have hu : u.Swept source rule := h.of_eq rfl rfl rfl
  have hv : v.Swept source rule := hu.push hrule (fun _ => Nat.le_refl _) hapart
  exact (hv.of_track hnoted
    (v.found_noteIf_of_ne (ne_of_mem_of_not_mem hrule (by decide)) _ _ _)).inspectComment hrule _ _

end

end State

namespace Sweeping

variable (h : Sweeping source rule s) (hrule : rule ∈ Rule.onBlanks) (hapart : rule.Apart t.tokens)

include h hrule hapart

theorem swept_of_blockComment (hread : s.blockComment = .ok t) : t.Swept source rule := by
  unfold State.blockComment at hread
  extract_lets opened opened' at hread
  have hopened : Sweeping source rule opened' :=
    (h.advance 2).of_track (opened.track_noteIf _ _ _ _)
      (opened.found_noteIf_of_ne (ne_of_mem_of_not_mem hrule (by decide)) _ _ _)
  split at hread
  · cases hread
  · next text u hu =>
    obtain rfl := Except.ok.inj hread
    have htrack := (u.push (u.token .comment text s.position)).track_inspectComment text.toList
      s.position
    rw [show State.tokens _ = State.tokens _ from congrArg Track.tokens htrack] at hapart
    have hpush := (hopened.closeComment hrule hu).swept.push hrule
      (by simp [Token.isOperator, State.token]) hapart
    exact hpush.inspectComment hrule _ _

theorem swept_of_templatePart {opening : Position} (hread : s.templatePart opening = .next t) :
    t.Swept source rule := by
  unfold State.templatePart at hread
  split at hread
  · cases hread
  · next text stop u hu =>
    extract_lets part v at hread
    have hv (hvapart : rule.Apart v.tokens) : v.Swept source rule :=
      (h.templateText hrule hu).swept.push hrule (by simp [Token.isOperator, part, State.token])
        hvapart
    -- The delimiter is the newest token, right behind the text.
    have hstop {n : Nat} {value : String}
        (hstop : rule.Apart (v.pushNext n .operator value).tokens) :
        (v.pushNext n .operator value).Swept source rule := by
      rw [State.tokens_pushNext] at hstop
      exact (hv hstop.of_cons).pushNext hrule (by rwa [State.tokens_pushNext])
    split at hread
    · obtain rfl := Step.next.inj hread
      exact (hstop hapart).of_eq rfl rfl rfl
    · obtain rfl := Step.next.inj hread
      exact (hstop hapart).of_eq rfl rfl rfl

theorem swept_of_cut {outcome : Step} (hcut : State.Cut s outcome) (hout : outcome = .next t) :
    t.Swept source rule := by
  have hs := h.swept
  cases hcut with
  | word _ =>
    obtain rfl := Step.next.inj hout
    exact State.Swept.push (s := s.advance _) hs hrule (fun _ => Nat.le_refl _) hapart
  | number _ => exact hs.of_number hrule hapart hout
  | string _ _ => exact hs.of_string hrule hapart hout
  | backtick _ => exact hs.of_backtick hrule hapart hout
  | lineComment _ => exact hs.of_lineComment hrule hapart (Step.next.inj hout).symm
  | blockComment _ hu =>
    obtain rfl := Step.next.inj hout
    exact h.swept_of_blockComment hrule hapart hu
  | unclosedComment _ _ => cases hout
  | division _ _ => exact hs.of_division hrule hapart (Step.next.inj hout).symm
  | regex _ _ => exact hs.of_regex hrule hapart hout
  | punctuation _ _ _ _ => exact hs.of_punctuation hrule hapart hout
  | unexpected _ => cases hout

/-- **Every step** finds what the lines have that it enters. -/
theorem swept_of_step (hstep : s.step = .next t) : t.Swept source rule := by
  have haction := s.action_of_step
  generalize s.step = outcome at haction hstep
  cases haction with
  | part _ => exact h.swept_of_templatePart hrule hapart hstep
  | line _ _ hnext =>
    obtain rfl := Step.next.inj hstep
    exact (h.nextLine? hrule hnext).swept
  | finish _ _ _ =>
    unfold State.finish at hstep
    split at hstep <;> cases hstep
  | blanks _ _ _ =>
    obtain rfl := Step.next.inj hstep
    exact (h.advance _).swept
  | token _ _ _ hcut =>
    have hroused : Sweeping source rule s.roused := h.of_eq rfl rfl rfl rfl rfl
    exact hroused.swept_of_cut hrule hapart hcut hstep

end Sweeping

/-! ### Scans -/

/-- Tokens before others are apart. -/
theorem Rule.Apart.of_step (h : rule.Apart t.tokens) (hstep : s.step = .next t) :
    rule.Apart s.tokens := by
  cases State.adds_of_step hstep with
  | none htokens => exact htokens ▸ h
  | read _ _ _ htokens => exact (htokens ▸ h).of_cons
  | part _ _ _ _ _ htokens => exact (htokens ▸ h).of_cons.of_cons

/-- A first line that is not scanned has been checked. -/
theorem swept_initial (hrule : rule ∈ Rule.onBlanks) :
    (State.initial source.lines.toList).Swept source rule := by
  have hstart : Sweeping source rule { below := source.lines.toList } :=
    ⟨rfl, rfl, rfl, by simp⟩
  unfold State.initial
  extract_lets s
  split
  · exact hstart.swept
  · next line below hlines =>
    split
    · exact (hstart.enter hrule hlines).swept.of_eq rfl rfl rfl
    · exact hstart.swept

/-- **Every reached state is swept**, if its tokens are apart. -/
theorem swept_of_reaches (hrule : rule ∈ Rule.onBlanks)
    (hreach : State.Reaches (.initial source.lines.toList) s) (hapart : rule.Apart s.tokens) :
    s.Swept source rule := by
  induction hreach with
  | refl => exact swept_initial hrule
  | tail hreach hstep ih =>
    have hsweeping := Sweeping.of_placed (placed_of_reaches hreach) (ih (hapart.of_step hstep))
    exact hsweeping.swept_of_step hrule hapart hstep

/-- The end of the source is nothing to be found. -/
theorem swept_of_completed (hrule : rule ∈ Rule.onBlanks)
    (hreach : State.Reaches (.initial source.lines.toList) s) (hstep : s.step = .completed t)
    (hapart : rule.Apart t.tokens) : t.Swept source rule := by
  obtain ⟨-, -, hfinish⟩ := State.finish_of_completed hstep
  unfold State.finish at hfinish
  split at hfinish
  · cases hfinish
  · extract_lets u at hfinish
    obtain rfl := Step.completed.inj hfinish
    have htrack : u.track = s.track := s.track_leaveLine
    have hbefore : rule.Apart s.tokens := by
      rw [State.tokens_push, show u.tokens = s.tokens from congrArg Track.tokens htrack] at hapart
      exact hapart.of_cons
    have hu : u.Swept source rule :=
      (swept_of_reaches hrule hreach hbefore).of_track htrack s.found_leaveLine
    exact hu.push hrule (fun _ => Nat.le_refl _) hapart

end

/-- **What a completed scan finds** on blanks is what the lines have that do not start inside a
template, if its tokens are apart. -/
theorem blanks_scan {text : String} {rule : Rule} (hrule : rule ∈ Rule.onBlanks)
    (h : (scan (.ofString text)).fault = none)
    (hapart : rule.Apart (scan (.ofString text)).tokens.reverse) :
    (scan (.ofString text)).events.filterMap (Event.findingOn? rule) =
      ((List.range' 1 (Source.ofString text).lastIndex).filter fun n =>
        startsInTemplate (scan (.ofString text)).tokens n = false).filterMap
          ((Source.ofString text).blankOn? rule) := by
  obtain ⟨s, hreach, ⟨t, hstep, hrun⟩ | ⟨t, fault, -, hrun⟩⟩ :=
    State.run_outcome (.initial (Source.ofString text).lines.toList)
  · obtain ⟨-, hrest, hbelow, e, -, -, htrack⟩ := State.completed_of_step hstep
    have hline : t.line = (Source.ofString text).lastIndex :=
      (congrArg Track.line htrack).trans ((placed_of_reaches hreach).at_end hrest hbelow).1
    have htokens : (scan (.ofString text)).tokens = t.tokens.reverse := by
      rw [scan_eq, hrun]
    have hevents : (scan (.ofString text)).events.filterMap (Event.findingOn? rule) =
        (t.found rule).reverse := by
      rw [scan_eq, hrun, List.filterMap_append,
        filterMap_issueEvents (ne_of_mem_of_not_mem hrule (by decide))
          (ne_of_mem_of_not_mem hrule (by decide)), List.nil_append, List.filterMap_reverse]
      rfl
    have hswept : t.found rule = _ :=
      swept_of_completed hrule hreach hstep (by rwa [htokens, List.reverse_reverse] at hapart)
    have hsorted := (inOrder_of_scan (Source.one_le_lastIndex text) h).sorted
    have heven := even_backticks_of_scan h
    rw [hevents, hswept, Source.blanksUpTo, List.reverse_reverse, hline]
    refine congrArg (List.filterMap _) (List.filter_congr fun n _ => ?_)
    rw [startsInTemplate_eq hsorted heven, htokens, backticksBefore, backticksBefore,
      List.countP_reverse]
    simp
  · rw [scan_eq, hrun] at h
    cases h

/-! ### Only comments are touched -/

section

variable {source : Source} {p t : Token}

/-- A comment, a regular expression and a slash start with a slash. -/
theorem exists_slash_of_mem (h : (scan source).fault = none) (ht : t ∈ (scan source).tokens)
    (hslash : (t.isCommentLike || t.isOperator "/") = true) :
    ∃ tail, (source.lineRead (scan source).tokens t.start.line).drop t.start.column =
      '/' :: tail := by
  by_cases hregex : t.kind = .regex
  · obtain ⟨body, flags, back, hahead, -⟩ := regexOf_lineRead h ht hregex
    exact ⟨_, hahead.text_eq⟩
  have hkind : t.kind = .comment ∨ t.isOperator "/" = true := by
    simpa [Token.isCommentLike, hregex] using hslash
  have hne : t.kind ≠ .eof ∧ t.kind ≠ .string := by
    rcases hkind with hkind | hkind
    · simp [hkind]
    · simp only [Token.isOperator, Bool.and_eq_true, beq_iff_eq] at hkind
      simp [hkind.1]
  obtain ⟨s, u, hreach, hstep, hbefore, hadded⟩ := exists_step_of_completed h ht hne.1
  have hnew {new : Token} (htokens : u.tokens = new :: s.tokens) : t = new :=
    (List.mem_cons.mp (htokens ▸ hadded)).resolve_right hbefore
  -- It is read at the place reached, from a slash on.
  have hread : t.start = s.position ∧ ∃ tail, s.rest = '/' :: tail := by
    cases State.adds_of_step hstep with
    | none htokens => exact absurd (htokens ▸ hadded) hbefore
    | part _ hpart _ _ hstop htokens =>
      rw [htokens] at hadded
      rcases List.mem_cons.mp hadded with rfl | hadded
      · rcases hkind with hkind | hkind
        · simp [Token.isOperator, hkind] at hstop
        · simp only [Token.isOperator, Bool.and_eq_true, beq_iff_eq] at hkind hstop
          simp [hkind.2] at hstop
      · obtain rfl := (List.mem_cons.mp hadded).resolve_right hbefore
        exact absurd hpart.1 hne.2
    | read hmode hstart _ htokens =>
      obtain rfl := hnew htokens
      refine ⟨hstart, ?_⟩
      have hleg := State.leg_of_step hstep
      have hadds : u.track.tokens = t :: s.tokens := htokens
      generalize u.track = v at hleg hadds
      cases hleg with
      | template hpart _ =>
        obtain ⟨htext, -, -, -, -, -⟩ := hpart
        exact absurd htext (hmode _)
      | move _ hmove =>
        cases hmove with
        | line _ _ => exact absurd hadds (List.cons_ne_self _ _).symm
        | blanks _ _ _ => exact absurd hadds (List.cons_ne_self _ _).symm
        | lineComment hrest _ _ _ => exact ⟨_, hrest⟩
        | blockComment hrest _ _ _ _ => exact ⟨_, hrest⟩
        | lexeme hlex =>
          obtain ⟨-, -, -, hspelled, -⟩ := hlex
          obtain rfl := (List.cons.inj hadds).1
          cases hspelled with
          | quoted _ _ hstring _ _ => exact absurd hstring hne.2
          | verbatim hverbatim hvalue =>
            rcases hkind with hkind | hkind
            · rw [hkind] at hverbatim
              cases hverbatim
            · simp only [Token.isOperator, Bool.and_eq_true, beq_iff_eq] at hkind
              have htake : s.rest.take _ = "/".toList :=
                String.ofList_inj.mp (hvalue.symm.trans hkind.2)
              exact ⟨_, (List.take_append_drop _ s.rest).symm.trans (by rw [htake]; rfl)⟩
  rw [hread.1]
  obtain ⟨tail, htail⟩ := hread.2
  exact ⟨tail, (rest_of_reaches_completed h hreach).symm.trans htail⟩

/-- **Only comments are touched** in a scan that completes: behind the flags of a regular expression
stands no slash. -/
theorem kind_of_touches (h : (scan source).fault = none) (hp : p ∈ (scan source).tokens)
    (ht : t ∈ (scan source).tokens) (htouches : p.Touches t) : p.kind = .comment := by
  obtain ⟨hstop, hlike, hslash⟩ := htouches
  by_contra hcomment
  have hregex : p.kind = .regex := by simpa [Token.isCommentLike, hcomment] using hlike
  obtain ⟨body, flags, back, hahead, hend⟩ := regexOf_lineRead h hp hregex
  obtain ⟨tail, htail⟩ := exists_slash_of_mem h ht hslash
  have hlength : body.length + flags.length + 2 = ('/' :: (body ++ '/' :: flags)).length := by
    simp only [List.length_cons, List.length_append]
    omega
  have hbehind : back = '/' :: tail := by
    rw [← hstop, hend, ← List.drop_drop, hahead.text_eq, hlength] at htail
    simpa using htail
  exact (hahead.next '/' (by rw [hbehind]; rfl)).2.1 rfl

/-- Tokens are apart if no comment among them is touched. -/
theorem apart_of_scan (h : (scan source).fault = none)
    (huntouched : (scan source).tokens.IsChain fun p t => ¬ (p.kind = .comment ∧ p.Touches t))
    (rule : Rule) : rule.Apart (scan source).tokens.reverse := by
  intro _
  rw [List.isChain_reverse]
  refine huntouched.imp_of_mem_imp fun p t hp ht hfree htouches => ?_
  exact hfree ⟨kind_of_touches h hp ht htouches, htouches⟩

end

/-! ### Passes -/

/-- The finding on a line stands on the line, which is one of the source. -/
theorem Source.of_blankOn? {source : Source} {rule : Rule} {n : Nat} {finding : Finding}
    (h : source.blankOn? rule n = some finding) :
    finding.rule = rule ∧ finding.line = n ∧ (1 ≤ n ∧ n ≤ source.lastIndex) ∧
      source.clampColumn n finding.column = finding.column := by
  obtain ⟨column, hcolumn, rfl⟩ := Option.map_eq_some_iff.mp h
  obtain ⟨hone, hle⟩ := Rule.le_length_of_blankColumn? hcolumn
  have hlength : (source.textAt n).toList.length = source.lengthAt n := String.length_toList
  rw [hlength] at hle
  refine ⟨rfl, rfl, Source.inside_of_lengthAt_pos (by omega), ?_⟩
  show source.clampColumn n column = column
  unfold Source.clampColumn
  omega

/-- Where one element alone can give what has a property, it is what that element gives. -/
theorem filter_filterMap_of_nodup {α β : Type} [DecidableEq α] {l : List α} (hnodup : l.Nodup)
    {f : α → Option β} {p : β → Bool} {a : α} (hp : ∀ x, ∀ b ∈ f x, p b = decide (x = a)) :
    (l.filterMap f).filter p = if a ∈ l then (f a).toList else [] := by
  have hone (x : α) : (f x).filter p = if x = a then f x else none := by
    cases hfx : f x with
    | none => simp
    | some b => simp [Option.filter, hp x b hfx]
  have hsplit : (l.filterMap f).filter p = (l.filter (· = a)).filterMap f := by
    rw [List.filter_filterMap, List.filterMap_filter]
    refine List.filterMap_congr fun x _ => ?_
    simpa using hone x
  rw [hsplit, List.filter_eq, hnodup.count]
  split
  · cases hfa : f a <;> simp [hfa]
  · rfl

/-- The diagnostics on a rule that stand on line `n`. -/
def diagnosticsOn (settings : Settings) (text : String) (rule : Rule) (n : Nat) :
    List Diagnostic :=
  (verify settings text).filter fun d => d.rule = rule ∧ d.line = n

section

variable {settings : Settings} {text : String} {rule : Rule} {level : Level} {severity : Severity}
  (hrule : rule ∈ Rule.onBlanks) (hset : settings.level? rule = some level)
  (hlevel : level.severity? = some severity) (habort : (Pass.run settings text).abort = none)
  (hunnamed : ∀ t ∈ (Pass.run settings text).tokens, ¬ t.NamesRule rule)
  (hapart : rule.Apart (Pass.run settings text).tokens.reverse)

include hrule hset hlevel habort hunnamed hapart

/-- **The tabs and blanks that a completed pass reports** are those of the lines, in order, but for
quiet lines and those that start inside a template. -/
theorem blanks_verify :
    (verify settings text).filter (·.rule = rule) =
      ((List.range' 1 (Source.ofString text).lastIndex).filter fun n =>
        startsInTemplate (Pass.run settings text).tokens n = false ∧
          (Source.ofString text).isQuiet n = false).filterMap fun n =>
            ((Source.ofString text).blankOn? rule n).map
              (Account.diagnostic (.ofString text) · severity) := by
  rw [verify_onRule (ne_of_mem_of_not_mem hrule (by decide))
      (ne_of_mem_of_not_mem hrule (by decide)) habort hunnamed,
    blanks_scan hrule (fault_eq_none_of_abort habort) hapart, List.filterMap_filterMap,
    List.filterMap_filter, List.filterMap_filter]
  refine List.filterMap_congr fun n _ => ?_
  rw [show (Pass.run settings text).tokens = (scan (.ofString text)).tokens from rfl]
  cases hfinding : (Source.ofString text).blankOn? rule n with
  | none => simp
  | some finding =>
    obtain ⟨hon, hline, hinside, -⟩ := Source.of_blankOn? hfinding
    have hreported := Account.reported?_of_set finding (hon ▸ hset) hlevel
      (Source.clampLine_of_inside (hline ▸ hinside))
    rw [hline] at hreported
    cases hquiet : (Source.ofString text).isQuiet n with
    | true => simp [hreported, hquiet]
    | false => simp [hreported, hquiet]

/-- A line has the diagnostic that it should have, unless it is quiet or starts inside a
template. -/
theorem diagnosticsOn_eq (n : Nat) : diagnosticsOn settings text rule n =
    if startsInTemplate (Pass.run settings text).tokens n = false ∧
        (Source.ofString text).isQuiet n = false then
      (((Source.ofString text).blankOn? rule n).map
        (Account.diagnostic (.ofString text) · severity)).toList
    else [] := by
  have hsplit : diagnosticsOn settings text rule n =
      ((verify settings text).filter (·.rule = rule)).filter fun d => d.line = n := by
    rw [List.filter_filter, diagnosticsOn]
    refine List.filter_congr fun d _ => ?_
    rw [← Bool.decide_and, decide_eq_decide, and_comm]
  have hnodup : (List.range' 1 (Source.ofString text).lastIndex).Nodup := List.nodup_range' 1
  rw [hsplit, blanks_verify hrule hset hlevel habort hunnamed hapart,
    filter_filterMap_of_nodup (a := n) (hnodup.filter _) ?_]
  · cases hfinding : (Source.ofString text).blankOn? rule n with
    | none => simp
    | some finding =>
      -- A line with a finding is one of the source.
      obtain ⟨-, -, ⟨hone, hlast⟩, -⟩ := Source.of_blankOn? hfinding
      have hmem : n ∈ List.range' 1 (Source.ofString text).lastIndex := by
        rw [List.mem_range'_1]
        omega
      simp [List.mem_filter, hmem]
  · intro m d hd
    obtain ⟨finding, hfinding, rfl⟩ := Option.map_eq_some_iff.mp hd
    obtain ⟨-, hline, hinside, -⟩ := Source.of_blankOn? hfinding
    rw [show (Account.diagnostic (.ofString text) finding severity).line = m from
      hline ▸ Source.clampLine_of_inside (hline ▸ hinside)]

end

/-- **Tabs and trailing blanks**: what a completed pass reports on them. -/
structure LineBlanks (settings : Settings) (text : String) (tabs blanks : Level) : Prop where
  /-- A line with a tab has one diagnostic, at its first tab, unless it is quiet or starts inside a
  template. -/
  tab : ∀ n front back, ((Source.ofString text).textAt n).toList = front ++ '\t' :: back →
    '\t' ∉ front → (Source.ofString text).isQuiet n = false →
    startsInTemplate (Pass.run settings text).tokens n = false →
    ∃ d, diagnosticsOn settings text .noTabs n = [d] ∧ d.column = front.length + 1 ∧
      tabs.severity? = some d.severity
  /-- Any other line has none. -/
  noTab : ∀ n, '\t' ∉ ((Source.ofString text).textAt n).toList ∨
      (Source.ofString text).isQuiet n = true ∨
      startsInTemplate (Pass.run settings text).tokens n = true →
    diagnosticsOn settings text .noTabs n = []
  /-- If no comment is touched by the token behind it, a line that ends in blanks has one diagnostic,
  at the first of these, unless it is quiet or starts inside a template. -/
  blank : ((Pass.run settings text).tokens.IsChain fun p t =>
      ¬ (p.kind = .comment ∧ p.Touches t)) →
    ∀ n kept run, ((Source.ofString text).textAt n).toList = kept ++ run → run ≠ [] →
      (∀ c ∈ run, isBlank c = true) → (∀ c, kept.getLast? = some c → isBlank c = false) →
      (Source.ofString text).isQuiet n = false →
      startsInTemplate (Pass.run settings text).tokens n = false →
      ∃ d, diagnosticsOn settings text .noIrregularWhitespace n = [d] ∧
        d.column = kept.length + 1 ∧ blanks.severity? = some d.severity
  /-- If no comment is touched by the token behind it, any other line has none. -/
  noBlank : ((Pass.run settings text).tokens.IsChain fun p t =>
      ¬ (p.kind = .comment ∧ p.Touches t)) →
    ∀ n, (∀ c, ((Source.ofString text).textAt n).toList.getLast? = some c → isBlank c = false) ∨
      (Source.ofString text).isQuiet n = true ∨
      startsInTemplate (Pass.run settings text).tokens n = true →
    diagnosticsOn settings text .noIrregularWhitespace n = []

section

variable {settings : Settings} {text : String} {rule : Rule} {level : Level}
  (hrule : rule ∈ Rule.onBlanks) (hset : settings.level? rule = some level) (hon : level ≠ .off)
  (habort : (Pass.run settings text).abort = none)
  (hunnamed : ∀ t ∈ (Pass.run settings text).tokens, ¬ t.NamesRule rule)
  (hapart : rule.Apart (Pass.run settings text).tokens.reverse)

include hrule hset hon habort hunnamed hapart

/-- A line that breaks a rule on blanks has one diagnostic, at the place where it does. -/
theorem diagnosticsOn_of_some {n column : Nat}
    (hcolumn : rule.blankColumn? ((Source.ofString text).textAt n).toList = some column)
    (hloud : (Source.ofString text).isQuiet n = false)
    (houtside : startsInTemplate (Pass.run settings text).tokens n = false) :
    ∃ d, diagnosticsOn settings text rule n = [d] ∧ d.column = column ∧
      level.severity? = some d.severity := by
  obtain ⟨severity, hlevel⟩ := Level.exists_severity hon
  have hfinding : (Source.ofString text).blankOn? rule n =
      some { rule, line := n, column } := by
    rw [Source.blankOn?, hcolumn]
    rfl
  obtain ⟨-, -, hinside, hclamp⟩ := Source.of_blankOn? hfinding
  have hat := diagnosticsOn_eq hrule hset hlevel habort hunnamed hapart n
  rw [if_pos ⟨houtside, hloud⟩, hfinding] at hat
  refine ⟨_, hat, ?_, hlevel⟩
  show Source.clampColumn _ (Source.clampLine _ n) column = column
  rw [Source.clampLine_of_inside hinside]
  exact hclamp

/-- Any other line has none. -/
theorem diagnosticsOn_of_none {n : Nat}
    (hnone : rule.blankColumn? ((Source.ofString text).textAt n).toList = none ∨
      (Source.ofString text).isQuiet n = true ∨
      startsInTemplate (Pass.run settings text).tokens n = true) :
    diagnosticsOn settings text rule n = [] := by
  obtain ⟨severity, hlevel⟩ := Level.exists_severity hon
  rw [diagnosticsOn_eq hrule hset hlevel habort hunnamed hapart]
  rcases hnone with hcolumn | hquiet | hinside
  · rw [Source.blankOn?, hcolumn]
    exact ite_self _
  · exact if_neg fun h => absurd (hquiet.symm.trans h.2) (by decide)
  · exact if_neg fun h => absurd (hinside.symm.trans h.1) (by decide)

end

/-- **Tabs and trailing blanks are reported exactly.**  If both rules are set to a warning or an
error and no directive names either, a completed pass reports one tab on every loud line with a tab
that does not start inside a template, at the first one, and none otherwise; and so it does the
blanks at the end of a line, if no comment is touched. -/
theorem lineBlanks_exact {settings : Settings} {text : String} {tabs blanks : Level}
    (htabs : settings.level? .noTabs = some tabs) (htabsOn : tabs ≠ .off)
    (hblanks : settings.level? .noIrregularWhitespace = some blanks) (hblanksOn : blanks ≠ .off)
    (habort : (Pass.run settings text).abort = none)
    (hunnamed : ∀ t ∈ (Pass.run settings text).tokens,
      ¬ t.NamesRule .noTabs ∧ ¬ t.NamesRule .noIrregularWhitespace) :
    LineBlanks settings text tabs blanks := by
  have hfault := fault_eq_none_of_abort habort
  have htab : Rule.Apart .noTabs (Pass.run settings text).tokens.reverse := by
    intro hrule
    cases hrule
  constructor
  case tab =>
    intro n front back hsplit hfirst hloud houtside
    refine diagnosticsOn_of_some (by decide) htabs htabsOn habort (fun t ht => (hunnamed t ht).1)
      htab ?_ hloud houtside
    rw [hsplit, Rule.blankColumn?_tab hfirst]
  case noTab =>
    intro n hnone
    exact diagnosticsOn_of_none (by decide) htabs htabsOn habort (fun t ht => (hunnamed t ht).1)
      htab (hnone.imp_left Rule.blankColumn?_of_not_mem)
  case blank =>
    intro huntouched n kept run hsplit hrun hblank hkept hloud houtside
    refine diagnosticsOn_of_some (by decide) hblanks hblanksOn habort
      (fun t ht => (hunnamed t ht).2) (apart_of_scan hfault huntouched _) ?_ hloud houtside
    rw [hsplit, Rule.blankColumn?_blanks hrun hblank hkept]
  case noBlank =>
    intro huntouched n hnone
    exact diagnosticsOn_of_none (by decide) hblanks hblanksOn habort
      (fun t ht => (hunnamed t ht).2) (apart_of_scan hfault huntouched _)
      (hnone.imp_left Rule.blankColumn?_of_getLast?)

/-- The last two of four lines start inside a template, so their tabs and blanks are not reported. No
comment is touched. -/
theorem lineBlanks_of_template :
    let settings := (Settings.setLevel {} .noTabs .warn).setLevel .noIrregularWhitespace .error
    let text := "run(\t1);  \n\x60\ta \n\tb \n\x60;\t// c"
    LineBlanks settings text .warn .error ∧
      (verify settings text).map (fun d => (d.rule, d.line, d.column)) =
        [(.noTabs, 1, 5), (.noIrregularWhitespace, 1, 9), (.noTabs, 2, 2),
          (.noIrregularWhitespace, 2, 4)] ∧
      (Pass.run settings text).tokens.IsChain fun p t => ¬ (p.kind = .comment ∧ p.Touches t) := by
  intro settings text
  exact ⟨@lineBlanks_exact settings text .warn .error rfl (by decide) rfl (by decide)
    (by decide +kernel) (by decide +kernel), by decide +kernel, by decide +kernel⟩

end ScriptLint
