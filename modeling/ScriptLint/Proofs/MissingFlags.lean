import ScriptLint.Proofs.Findings
import ScriptLint.Proofs.Patterns
import ScriptLint.Proofs.Regions
import ScriptLint.Proofs.Tiling

/-!
# Missing flags

An anchor inside of a pattern stands for the beginning or the end of a line only under the flag
`m`. So a regular expression needs the flag if its pattern has a bare `$` before its last
character or a bare `^` behind its first, and a pass finds a missing flag at the end of every
regular expression that needs the flag and lacks it.

Nothing else finds one: every other step is **idle** as far as the flags are concerned. So the
missing flags that a completed scan finds are those of its tokens, one by one.

## Main definitions

* `Token.NeedsFlag` — a regular expression that needs the flag and lacks it
* `State.Idle` — a stretch of a scan without regular expressions and missing flags
* `State.Marks` — what a step does about missing flags
* `MissingFlags` — what a completed pass reports about missing flags

## Main statements

* `State.marks_of_step` — every step is idle or reads a regular expression
* `found_of_reaches` — the missing flags found so far are those of the tokens so far
* `missingFlags_verify` — the missing flags that a completed pass reports
* `missingFlags_exact` — they are reported exactly
-/

namespace ScriptLint

/-! ### Regular expressions that need the flag -/

/-- Anchors are inside of a pattern if they are with spaces for its tabs. -/
theorem anchorsInside_map_untab {body : List Char} :
    AnchorsInside (body.map untab) ↔ AnchorsInside body := by
  have hplain {c : Char} {p q : Prop} (hc : c = '$' ∧ p ∨ c = '^' ∧ q) : c ≠ ' ' ∧ c ≠ '\t' := by
    rcases hc with ⟨rfl, -⟩ | ⟨rfl, -⟩
    · decide
    · decide
  constructor
  · rintro ⟨front, c, back, hsplit, hbares, hc⟩
    obtain ⟨front', back', rfl, rfl, rfl⟩ := exists_of_map_untab (hplain hc) hsplit
    rw [Zone.behind_map_untab] at hbares
    rw [Ne, List.map_eq_nil_iff, Ne, List.map_eq_nil_iff] at hc
    exact ⟨front', c, back', rfl, hbares, hc⟩
  · rintro ⟨front, c, back, rfl, hbares, hc⟩
    refine ⟨front.map untab, c, back.map untab, ?_, by rwa [Zone.behind_map_untab], ?_⟩
    · rw [List.map_append, List.map_cons, (untab_eq_iff (hplain hc)).mpr rfl]
    · rwa [Ne, List.map_eq_nil_iff, Ne, List.map_eq_nil_iff]

/-- **A flag is needed**: the pattern of a regular expression has anchors inside, and its flags have
no `m`. -/
def Token.NeedsFlag (line : Nat → List Char) (t : Token) : Prop :=
  ∃ body flags back, RegexAhead ((line t.start.line).drop t.start.column) body flags back ∧
    AnchorsInside body ∧ 'm' ∉ flags

section

variable {line line' : Nat → List Char} {t : Token} {body flags back : List Char}

/-- The text of a regular expression tells whether it needs the flag. -/
theorem Token.needsFlag_iff
    (h : RegexAhead ((line t.start.line).drop t.start.column) body flags back) :
    t.NeedsFlag line ↔ AnchorsInside body ∧ 'm' ∉ flags := by
  constructor
  · rintro ⟨body', flags', back', h', hneeds⟩
    obtain ⟨rfl, rfl, -⟩ := h.unique h'
    exact hneeds
  · exact fun hneeds => ⟨body, flags, back, h, hneeds⟩

/-- Spaces for tabs make no difference. -/
theorem Token.needsFlag_untab (h : t.RegexOf line)
    (hline : line t.start.line = (line' t.start.line).map untab) :
    t.NeedsFlag line ↔ t.NeedsFlag line' := by
  obtain ⟨body, flags, back, hahead, -⟩ := h
  have huntabbed := hahead
  rw [hline, ← List.map_drop] at huntabbed
  obtain ⟨body', flags', back', hahead', rfl, rfl⟩ := huntabbed.of_untab
  rw [needsFlag_iff hahead, needsFlag_iff hahead', anchorsInside_map_untab,
    mem_map_untab (by decide)]

end

/-- **A missing flag**: a token of a source is a regular expression that needs the flag and lacks
it. -/
def Token.MissesFlag (source : Source) (t : Token) : Prop :=
  t.kind = .regex ∧ t.NeedsFlag fun n => (source.textAt n).toList

/-- The finding of a missing flag, at the end of its token. -/
def Token.missingFlag (t : Token) : Finding where
  rule := .missingM
  line := t.stop.line
  column := t.stop.column

/-! ### Idle stretches -/

namespace State

/-- The tokens of regular expressions, newest first. -/
def regexes (s : State) : List Token := s.tokens.filter (·.kind = .regex)

/-- **Idle**: a stretch of a scan in which no regular expression is read and no missing flag is
found. -/
structure Idle (s t : State) : Prop where
  regexes : t.regexes = s.regexes
  found : t.found .missingM = s.found .missingM

variable {s t u : State}

theorem Idle.trans (h : s.Idle t) (h' : t.Idle u) : s.Idle u :=
  ⟨h'.regexes.trans h.regexes, h'.found.trans h.found⟩

/-- A stretch that goes nowhere. -/
theorem idle_of_track (htrack : t.track = s.track)
    (hfound : t.found .missingM = s.found .missingM) : s.Idle t :=
  ⟨congrArg (fun track => track.tokens.filter (·.kind = .regex)) htrack, hfound⟩

variable (s)

theorem idle_advance (n : Nat) : s.Idle (s.advance n) := ⟨rfl, rfl⟩

theorem idle_note {rule : Rule} (h : Rule.missingM ≠ rule) (column : Nat) (args : List String) :
    s.Idle (s.note rule column args) :=
  ⟨rfl, s.found_note_of_ne h column args⟩

theorem idle_noteIf {rule : Rule} (h : Rule.missingM ≠ rule) (p : Bool) (column : Nat)
    (args : List String) : s.Idle (s.noteIf p rule column args) :=
  idle_of_track (s.track_noteIf p rule column args) (s.found_noteIf_of_ne h p column args)

/-- A literal finds no missing flag. -/
theorem idle_noteAll {findings : List Finding} {offset : Nat}
    (h : ∀ f ∈ findings, (s.surroundings offset).Owns f) : s.Idle (s.noteAll findings) := by
  refine ⟨rfl, ?_⟩
  have hnone : findings.filter (·.rule = .missingM) = [] := by
    refine List.filter_eq_nil_iff.mpr fun f hf hrule => ?_
    obtain ⟨-, -, hliteral⟩ := h f hf
    rw [of_decide_eq_true hrule] at hliteral
    exact absurd hliteral (by decide)
  rw [found_noteAll, hnone, List.nil_append]

theorem idle_push {new : Token} (h : new.kind ≠ .regex) : s.Idle (s.push new) := by
  refine ⟨?_, s.found_push (by decide) new⟩
  rw [State.regexes, tokens_push, List.filter_cons_of_neg (by simpa using h)]
  rfl

theorem idle_pushNext (n : Nat) (kind : TokenKind) (value : String) (h : kind ≠ .regex) :
    s.Idle (s.pushNext n kind value) :=
  (s.idle_advance n).trans (idle_push _ h)

theorem idle_inspectComment (value : List Char) (start : Position) :
    s.Idle (s.inspectComment value start) :=
  idle_of_track (s.track_inspectComment value start)
    (s.found_inspectComment (by decide) value start)

variable {s}

theorem idle_of_nextLine? (h : s.nextLine? = some t) : s.Idle t := by
  refine ⟨?_, s.found_of_nextLine? (by decide) h⟩
  obtain ⟨line, below, -, htrack⟩ := track_of_nextLine? h
  exact congrArg (fun track => track.tokens.filter (·.kind = .regex)) htrack

/-! ### Idle readings -/

/-- A comment finds no missing flag on its lines. -/
theorem idle_of_closeComment {parts : List String} {text : String}
    (h : s.closeComment parts = .ok (text, t)) : s.Idle t := by
  have hnested (u : State) (part : List Char) : u.Idle (u.noteNested part) := by
    unfold noteNested
    split
    · exact u.idle_note (by decide) _ _
    · exact ⟨rfl, rfl⟩
  have hlast (u : State) (part : List Char) : u.Idle (u.noteNestedLast part) := by
    unfold noteNestedLast
    split
    · exact u.idle_note (by decide) _ _
    · exact u.idle_noteIf (by decide) _ _ _
  fun_induction closeComment parts s with
  | case1 parts s i hi part =>
    obtain ⟨-, rfl⟩ := Prod.mk.inj (Except.ok.inj h)
    exact (hlast s part).trans (idle_advance _ _)
  | case2 parts s hi s' u hu ih =>
    exact ((hnested s s.rest).trans (idle_of_nextLine? hu)).trans (ih h)
  | case3 => cases h

theorem idle_of_blockComment (h : s.blockComment = .ok t) : s.Idle t := by
  unfold blockComment at h
  extract_lets opened opened' at h
  have hopened : s.Idle opened' :=
    (s.idle_advance 2).trans (opened.idle_noteIf (by decide) _ _ _)
  split at h
  · cases h
  · next text u hu =>
    obtain rfl := Except.ok.inj h
    have hpush : s.Idle (u.push (u.token .comment text s.position)) :=
      (hopened.trans (idle_of_closeComment hu)).trans (u.idle_push (by simp [token]))
    exact hpush.trans (idle_inspectComment _ _ _)

theorem idle_lineComment (s : State) : s.Idle s.lineComment := by
  unfold lineComment
  extract_lets value t u
  have ht : s.Idle t := ⟨rfl, rfl⟩
  have hu : s.Idle u := ht.trans (t.idle_push (by simp [token]))
  exact (hu.trans (u.idle_noteIf (by decide) _ _ _)).trans (idle_inspectComment _ _ _)

/-- The text of a template finds no missing flag on its lines. -/
theorem idle_of_templateText {text text' : List Char} {stop : TemplateStop}
    (h : s.templateText text = .ok (text', stop, t)) : s.Idle t := by
  fun_induction templateText text s with
  | case1 text s read hread u hu ih => exact (idle_of_nextLine? hu).trans (ih h)
  | case2 => cases h
  | case3 text s read hread =>
    obtain ⟨-, -, rfl⟩ : _ ∧ _ ∧ _ = t := by simpa using h
    exact s.idle_advance _

theorem idle_of_templatePart {opening : Position} (h : s.templatePart opening = .next t) :
    s.Idle t := by
  unfold templatePart at h
  split at h
  · cases h
  · next text stop u hu =>
    extract_lets part v at h
    have hv : s.Idle v :=
      (idle_of_templateText hu).trans (u.idle_push (by simp [part, token]))
    split at h
    · obtain rfl := Step.next.inj h
      obtain ⟨hregexes, hfound⟩ := hv.trans (v.idle_pushNext 2 .operator "$\x7b" (by decide))
      exact ⟨hregexes, hfound⟩
    · obtain rfl := Step.next.inj h
      obtain ⟨hregexes, hfound⟩ := hv.trans (v.idle_pushNext 1 .operator "\x60" (by decide))
      exact ⟨hregexes, hfound⟩

theorem idle_of_number {lead : Nat} (h : s.number lead = .next t) : s.Idle t := by
  have howned := Strand.owned_number (s.surroundings 0) s.rest lead
  unfold number at h
  split at h
  · cases h
  · next read hread =>
    rw [hread] at howned
    obtain rfl := Step.next.inj h
    exact (s.idle_noteAll howned).trans (idle_pushNext _ _ _ _ (by decide))

theorem idle_of_string {quote : Char} (h : s.string quote = .next t) : s.Idle t := by
  have howned := Strand.owned_quoted (s.surroundings 1) s.rest.tail quote
  unfold string at h
  split at h
  · cases h
  · next read hread =>
    rw [hread] at howned
    obtain rfl := Step.next.inj h
    exact ((s.idle_noteAll howned).trans (idle_advance _ _)).trans (idle_push _ (by simp [token]))

theorem idle_division (s : State) : s.Idle s.division := by
  unfold division
  split
  · exact (s.idle_note (by decide) _ _).trans (idle_pushNext _ _ _ _ (by decide))
  · exact s.idle_pushNext _ _ _ (by decide)

theorem idle_of_backtick (h : s.backtick = .next t) : s.Idle t := by
  unfold backtick at h
  split at h
  · cases h
  · obtain rfl := Step.next.inj h
    obtain ⟨hregexes, hfound⟩ := s.idle_pushNext 1 .operator "\x60" (by decide)
    exact ⟨hregexes, hfound⟩

theorem idle_of_punctuation {n : Nat} (h : s.punctuation n = .next t) : s.Idle t := by
  unfold punctuation at h
  extract_lets value u at h
  have hu : s.Idle u := s.idle_pushNext n .operator value (by decide)
  split at h
  · split at h
    · obtain rfl := Step.next.inj h
      exact ⟨hu.regexes, hu.found⟩
    · split at h
      · cases h
      · obtain rfl := Step.next.inj h
        exact hu
  · obtain rfl := Step.next.inj h
    exact hu

/-! ### Steps -/

/-- **What a step does about missing flags.** -/
inductive Marks (s t : State) : Prop
  /-- It is idle. -/
  | idle (h : s.Idle t)
  /-- It reads a regular expression, and finds a missing flag at its end if it is told to. -/
  | regex {tail : List Char} {read : Strand} {missesFlag : Bool} {new : Token}
      (hrest : s.rest = '/' :: tail)
      (hread : ({ rest := tail } : Strand).regex (s.surroundings 1) = .ok (read, missesFlag))
      (hstart : new.start = s.position) (hregexes : t.regexes = new :: s.regexes)
      (hfound : t.found .missingM =
        (if missesFlag then [new.missingFlag] else []) ++ s.found .missingM)

/-- A regular expression that is read, with the findings of its literal. -/
theorem exists_regex_of_pushNext (h : s.Idle t) (hposition : t.position = s.position) (n : Nat)
    (value : String) : ∃ new : Token, new.start = s.position ∧
      new.missingFlag = { rule := .missingM, line := (t.pushNext n .regex value).line,
                          column := (t.pushNext n .regex value).column } ∧
      (t.pushNext n .regex value).regexes = new :: s.regexes := by
  have htrack := (t.advance n).track_push ((t.advance n).token .regex value t.position)
  refine ⟨(t.advance n).token .regex value t.position, hposition, ?_, ?_⟩
  · rw [Token.missingFlag,
      show (t.pushNext n .regex value).line = _ from congrArg Track.line htrack,
      show (t.pushNext n .regex value).column = _ from congrArg Track.column htrack]
    rfl
  · rw [State.regexes, tokens_pushNext, List.filter_cons_of_pos (by simp [token]), ← h.regexes]
    rfl

theorem marks_of_regex {tail : List Char} (hrest : s.rest = '/' :: tail) {role : SlashRole}
    (h : s.regex role = .next t) : Marks s t := by
  unfold regex at h
  extract_lets u at h
  have howned := Strand.owned_regex (u.surroundings 1) u.rest.tail
  split at h
  · cases h
  · next read missesFlag hread =>
    rw [hread] at howned
    extract_lets value v w at h
    rw [show u.rest.tail = tail from congrArg List.tail hrest] at hread
    have hu : s.Idle u := ⟨rfl, rfl⟩
    have hnoted := hu.trans (u.idle_noteAll howned)
    obtain ⟨new, hstart, hflag, hregexes⟩ :=
      exists_regex_of_pushNext hnoted rfl (read.taken.length + 1) value
    have hv : v.found .missingM = s.found .missingM :=
      (found_pushNext _ (by decide) _ _ _).trans hnoted.found
    have hw : w.regexes = new :: s.regexes ∧ w.found .missingM =
        (if missesFlag then [new.missingFlag] else []) ++ s.found .missingM := by
      simp only [w, noteIf]
      split
      · rw [found_note, hv, hflag]
        exact ⟨hregexes, rfl⟩
      · exact ⟨hregexes, hv⟩
    have hmarks {x : State} (hx : w.Idle x) : Marks s x :=
      .regex hrest hread hstart (hx.regexes.trans hw.1) (hx.found.trans hw.2)
    split at h
    · obtain rfl := Step.next.inj h
      exact hmarks ⟨rfl, w.found_emit_of_none rfl⟩
    · obtain rfl := Step.next.inj h
      exact hmarks (w.idle_note (by decide) _ _)
    · obtain rfl := Step.next.inj h
      exact hmarks ⟨rfl, rfl⟩

theorem marks_of_cut {outcome : Step} (hcut : Cut s outcome) (h : outcome = .next t) :
    Marks s t := by
  cases hcut with
  | word _ =>
    obtain rfl := Step.next.inj h
    refine .idle ((s.idle_advance _).trans (idle_push _ ?_))
    show (if _ then TokenKind.keyword else TokenKind.identifier) ≠ _
    split
    · decide
    · decide
  | number _ => exact .idle (idle_of_number h)
  | string _ _ => exact .idle (idle_of_string h)
  | backtick _ => exact .idle (idle_of_backtick h)
  | lineComment _ =>
    obtain rfl := Step.next.inj h
    exact .idle s.idle_lineComment
  | blockComment _ hu =>
    obtain rfl := Step.next.inj h
    exact .idle (idle_of_blockComment hu)
  | unclosedComment _ _ => cases h
  | division _ _ =>
    obtain rfl := Step.next.inj h
    exact .idle s.idle_division
  | regex hrest _ => exact marks_of_regex hrest h
  | punctuation _ _ _ _ => exact .idle (idle_of_punctuation h)
  | unexpected _ => cases h

/-- **Every step** is idle or reads a regular expression. -/
theorem marks_of_step (h : s.step = .next t) : Marks s t := by
  have haction := s.action_of_step
  generalize s.step = outcome at haction h
  cases haction with
  | part _ => exact .idle (idle_of_templatePart h)
  | line _ _ ht =>
    obtain rfl := Step.next.inj h
    exact .idle (idle_of_nextLine? ht)
  | finish _ _ _ =>
    unfold finish at h
    split at h <;> cases h
  | blanks _ _ _ =>
    obtain rfl := Step.next.inj h
    exact .idle (s.idle_advance _)
  | token _ _ _ hcut =>
    -- The state in which the token is read has the line, the tokens and the events of the state.
    cases marks_of_cut hcut h with
    | idle hidle => exact .idle ⟨hidle.regexes, hidle.found⟩
    | regex hrest hread hstart hregexes hfound => exact .regex hrest hread hstart hregexes hfound

/-- The last step is idle. -/
theorem idle_of_completed (h : s.step = .completed t) : s.Idle t := by
  obtain ⟨-, -, h⟩ := finish_of_completed h
  unfold finish at h
  split at h
  · cases h
  · obtain rfl := Step.completed.inj h
    have hleave : s.Idle s.leaveLine := idle_of_track s.track_leaveLine s.found_leaveLine
    exact hleave.trans (idle_push _ (by simp [token]))

theorem found_initial (lines : List Line) : (initial lines).found .missingM = [] := by
  unfold initial
  extract_lets s
  split
  · rfl
  · next line below =>
    split
    · exact s.found_enter (by decide) line below
    · rfl

end State

/-! ### Scans -/

section

open scoped Classical

variable {source : Source}

/-- **The missing flags found so far** are those of the regular expressions so far. -/
theorem found_of_reaches (h : (scan source).fault = none) {s : State}
    (hreach : State.Reaches (.initial source.lines.toList) s) :
    s.found .missingM = (s.regexes.filter fun t =>
      t.NeedsFlag (source.lineRead (scan source).tokens)).map Token.missingFlag := by
  induction hreach with
  | refl =>
    have hnone : (State.initial source.lines.toList).regexes = [] :=
      congrArg (List.filter _) (State.tokens_initial _)
    rw [State.found_initial, hnone, List.filter_nil, List.map_nil]
  | @tail s t hreach hstep ih =>
    cases State.marks_of_step hstep with
    | idle hidle => rw [hidle.found, ih, hidle.regexes]
    | @regex tail read missesFlag new hrest hread hstart hregexes hfound =>
      obtain ⟨body, flags, back, hahead, -, hmisses⟩ := Strand.regexAhead_of_regex _ hread
      rw [← hrest, rest_of_reaches_completed h hreach] at hahead
      have hneeds : new.NeedsFlag (source.lineRead (scan source).tokens) ↔ missesFlag = true := by
        rw [Token.needsFlag_iff (by rw [hstart]; exact hahead), hmisses]
      rw [hfound, ih, hregexes]
      cases missesFlag with
      | true => rw [List.filter_cons_of_pos (by simpa using hneeds)]; rfl
      | false => rw [List.filter_cons_of_neg (by simpa using hneeds)]; rfl

/-- The lines of the source tell what the lines as read do. -/
theorem needsFlag_lineRead (h : (scan source).fault = none) {t : Token}
    (ht : t ∈ (scan source).tokens) :
    t.kind = .regex ∧ t.NeedsFlag (source.lineRead (scan source).tokens) ↔ t.MissesFlag source := by
  refine and_congr_right fun hkind => ?_
  by_cases hinside : startsInTemplate (scan source).tokens t.start.line
  · rw [Token.NeedsFlag, Token.NeedsFlag, Source.lineRead, if_pos hinside]
  · refine Token.needsFlag_untab (regexOf_lineRead h ht hkind) ?_
    rw [Source.lineRead, if_neg hinside, untabbed_eq]

/-- **The missing flags that a completed scan finds** are those of its tokens. -/
theorem missingFlags_scan {text : String} (h : (scan (.ofString text)).fault = none) :
    (scan (.ofString text)).events.filterMap (Event.findingOn? .missingM) =
      ((scan (.ofString text)).tokens.filter (·.MissesFlag (.ofString text))).map
        Token.missingFlag := by
  obtain ⟨s, hreach, ⟨u, hstep, hrun⟩ | ⟨u, fault, -, hrun⟩⟩ :=
    State.run_outcome (.initial (Source.ofString text).lines.toList)
  · have hidle := State.idle_of_completed hstep
    have htokens : (scan (.ofString text)).tokens = u.tokens.reverse := by
      rw [scan_eq, hrun]
    have hevents : (scan (.ofString text)).events.filterMap (Event.findingOn? .missingM) =
        (u.found .missingM).reverse := by
      rw [scan_eq, hrun, List.filterMap_append,
        filterMap_issueEvents (by decide) (by decide), List.nil_append,
        List.filterMap_reverse]
      rfl
    have hmisses : (scan (.ofString text)).tokens.filter (·.MissesFlag (.ofString text)) =
        (u.regexes.filter (·.NeedsFlag
          ((Source.ofString text).lineRead (scan (.ofString text)).tokens))).reverse := by
      rw [State.regexes, List.filter_filter, ← List.filter_reverse, ← htokens]
      refine List.filter_congr fun t ht => ?_
      rw [← Bool.decide_and, decide_eq_decide, and_comm, needsFlag_lineRead h ht]
    rw [hevents, hidle.found, found_of_reaches h hreach, hmisses, List.map_reverse, hidle.regexes]
  · rw [scan_eq, hrun] at h
    cases h

/-! ### Passes -/

/-- **The missing flags that a completed pass reports** are those of its tokens, in order, but for
quiet lines. -/
theorem missingFlags_verify {settings : Settings} {text : String} {level : Level}
    {severity : Severity} (hset : settings.level? .missingM = some level)
    (hlevel : level.severity? = some severity) (habort : (Pass.run settings text).abort = none)
    (hunnamed : ∀ t ∈ (Pass.run settings text).tokens, ¬ t.NamesRule .missingM) :
    (verify settings text).filter (·.rule = .missingM) =
      ((Pass.run settings text).tokens.filter fun t => t.MissesFlag (.ofString text) ∧
        (Source.ofString text).isQuiet t.stop.line = false).map
        fun t => Account.diagnostic (.ofString text) t.missingFlag severity := by
  rw [verify_onRule (by decide) (by decide) habort hunnamed,
    missingFlags_scan (fault_eq_none_of_abort habort), List.filterMap_map, ← List.filterMap_eq_map,
    List.filterMap_filter, List.filterMap_filter]
  refine List.filterMap_congr fun t ht => ?_
  have htiling := tiling_of_scan (Source.one_le_lastIndex text) (fault_eq_none_of_abort habort)
  obtain ⟨-, hone, hlast, -⟩ := htiling.inside t ht
  by_cases hmisses : t.MissesFlag (.ofString text)
  · have hreported := Account.reported?_of_set t.missingFlag hset hlevel
      (Source.clampLine_of_inside ⟨hone, hlast⟩)
    rw [show t.missingFlag.line = t.stop.line from rfl] at hreported
    rw [if_pos (decide_eq_true hmisses), Function.comp_apply, hreported]
    cases (Source.ofString text).isQuiet t.stop.line with
    | true => simp
    | false => simp [hmisses]
  · rw [if_neg (by simpa using hmisses), if_neg (by simp [hmisses])]

end

/-- Of tokens that stand one behind the other and are not empty only one ends at a place. -/
theorem filter_stop_eq {tokens : List Token}
    (hordered : tokens.Pairwise fun a b => a.stop ≤ b.start) {p : Token → Prop} [DecidablePred p]
    (hp : ∀ x ∈ tokens, p x → x.start < x.stop) {t : Token}
    (ht : t ∈ tokens) (hlong : t.start < t.stop) :
    tokens.filter (fun x => x.stop = t.stop ∧ p x) = if p t then [t] else [] := by
  obtain ⟨front, back, rfl⟩ := List.append_of_mem ht
  obtain ⟨-, hbehind, hbefore⟩ := List.pairwise_append.mp hordered
  have hfront : front.filter (fun x => x.stop = t.stop ∧ p x) = [] := by
    refine List.filter_eq_nil_iff.mpr fun x hx hends => ?_
    have hle := hbefore x hx t List.mem_cons_self
    rw [(of_decide_eq_true hends).1] at hle
    exact absurd (hlong.trans_le hle) (lt_irrefl _)
  have hback : back.filter (fun x => x.stop = t.stop ∧ p x) = [] := by
    refine List.filter_eq_nil_iff.mpr fun x hx hends => ?_
    obtain ⟨hstop, hpx⟩ := of_decide_eq_true hends
    have hle := (List.pairwise_cons.mp hbehind).1 x hx
    have hlt := hp x (List.mem_append_right _ (List.mem_cons_of_mem _ hx)) hpx
    rw [← hstop] at hle
    exact absurd (hlt.trans_le hle) (lt_irrefl _)
  rw [List.filter_append, hfront, List.nil_append, List.filter_cons, hback]
  by_cases hpt : p t
  · simp [hpt]
  · simp [hpt]

/-- A regular expression of a completed pass is not empty, and its end is where a diagnostic
there shows it. -/
theorem end_of_regex {settings : Settings} {text : String}
    (habort : (Pass.run settings text).abort = none) {t : Token}
    (ht : t ∈ (Pass.run settings text).tokens) (hkind : t.kind = .regex) (severity : Severity) :
    t.start < t.stop ∧ t.stop.line = t.start.line ∧
      (Account.diagnostic (.ofString text) t.missingFlag severity).line = t.stop.line ∧
      (Account.diagnostic (.ofString text) t.missingFlag severity).column = t.stop.column := by
  obtain ⟨body, flags, back, -, hstop⟩ := regexOf_textAt (fault_eq_none_of_abort habort) ht hkind
  have htiling := tiling_of_scan (Source.one_le_lastIndex text) (fault_eq_none_of_abort habort)
  obtain ⟨-, hone, hlast, hcolumn⟩ := htiling.inside t ht
  have hline : t.stop.line = t.start.line := by rw [hstop]
  have hlength : t.stop.column = t.start.column + (body.length + flags.length + 2) := by rw [hstop]
  have hclamp := Source.clampLine_of_inside ⟨hone, hlast⟩
  refine ⟨Position.lt_iff.mpr (.inr ⟨hline.symm, by omega⟩), hline, hclamp, ?_⟩
  show Source.clampColumn _ (Source.clampLine _ t.stop.line) t.stop.column = t.stop.column
  rw [hclamp, Source.clampColumn]
  omega

/-- The diagnostics on missing flags at a place. -/
def missingFlagsAt (settings : Settings) (text : String) (p : Position) : List Diagnostic :=
  (verify settings text).filter fun d =>
    d.rule = .missingM ∧ d.line = p.line ∧ d.column = p.column

open scoped Classical in
/-- At the end of a regular expression stands the missing flag of its own token, if any. -/
theorem missingFlagsAt_eq {settings : Settings} {text : String} {level : Level}
    {severity : Severity} (hset : settings.level? .missingM = some level)
    (hlevel : level.severity? = some severity) (habort : (Pass.run settings text).abort = none)
    (hunnamed : ∀ t ∈ (Pass.run settings text).tokens, ¬ t.NamesRule .missingM) {t : Token}
    (ht : t ∈ (Pass.run settings text).tokens) (hkind : t.kind = .regex) :
    missingFlagsAt settings text t.stop =
      if t.MissesFlag (.ofString text) ∧ (Source.ofString text).isQuiet t.stop.line = false then
        [Account.diagnostic (.ofString text) t.missingFlag severity]
      else [] := by
  have hsplit : missingFlagsAt settings text t.stop =
      ((verify settings text).filter (·.rule = .missingM)).filter fun d =>
        d.line = t.stop.line ∧ d.column = t.stop.column := by
    rw [missingFlagsAt, List.filter_filter]
    refine List.filter_congr fun d _ => ?_
    rw [← Bool.decide_and, decide_eq_decide, and_comm]
  have hlong {x : Token} (hx : x ∈ (Pass.run settings text).tokens) (hkind : x.kind = .regex) :=
    end_of_regex habort hx hkind severity
  have hone := filter_stop_eq (ordered_of_scan (fault_eq_none_of_abort habort))
    (fun x hx (hmisses : x.MissesFlag (.ofString text) ∧
      (Source.ofString text).isQuiet x.stop.line = false) => (hlong hx hmisses.1.1).1) ht
    (hlong ht hkind).1
  rw [hsplit, missingFlags_verify hset hlevel habort hunnamed, List.filter_map, List.filter_filter]
  refine (congrArg _ ((List.filter_congr fun x hx => ?_).trans hone)).trans ?_
  · rw [Function.comp_apply, ← Bool.decide_and, decide_eq_decide]
    refine and_congr_left fun hmisses => ?_
    obtain ⟨-, -, hline, hcolumn⟩ := hlong hx hmisses.1.1
    rw [hline, hcolumn]
    constructor
    · rintro ⟨hline, hcolumn⟩
      exact congrArg₂ Position.mk hline hcolumn
    · intro hstop
      rw [hstop]
      exact ⟨rfl, rfl⟩
  · split
    · rfl
    · rfl

/-- **Missing flags**: what a completed pass reports about them. -/
structure MissingFlags (settings : Settings) (text : String) (level : Level) : Prop where
  /-- A regular expression is a pattern between slashes and its flags, on one line. -/
  regex : ∀ t ∈ (Pass.run settings text).tokens, t.kind = .regex →
    t.RegexOf fun n => ((Source.ofString text).textAt n).toList
  /-- At the end of one that misses the flag stands one diagnostic, unless its line is quiet. -/
  needed : ∀ t ∈ (Pass.run settings text).tokens, t.MissesFlag (.ofString text) →
    (Source.ofString text).isQuiet t.start.line = false →
    ∃ d, missingFlagsAt settings text t.stop = [d] ∧ level.severity? = some d.severity
  /-- At the end of any other one stands none. -/
  unneeded : ∀ t ∈ (Pass.run settings text).tokens, t.kind = .regex →
    ¬ t.MissesFlag (.ofString text) → missingFlagsAt settings text t.stop = []
  /-- None stands anywhere else. -/
  only : ∀ d ∈ verify settings text, d.rule = .missingM →
    ∃ t ∈ (Pass.run settings text).tokens, t.MissesFlag (.ofString text) ∧
      d ∈ missingFlagsAt settings text t.stop

/-- **Missing flags are reported exactly.**  If the rule is set to a warning or an error and no
directive names it, a completed pass reports one missing flag at the end of every regular
expression on a loud line whose pattern has anchors inside and whose flags have no `m`, and none
otherwise.  Here an escape without its closing brace takes what stands in the place of it. -/
theorem missingFlags_exact {settings : Settings} {text : String} {level : Level}
    (hset : settings.level? .missingM = some level) (hon : level ≠ .off)
    (habort : (Pass.run settings text).abort = none)
    (hunnamed : ∀ t ∈ (Pass.run settings text).tokens, ¬ t.NamesRule .missingM) :
    MissingFlags settings text level := by
  classical
  obtain ⟨severity, hlevel⟩ : ∃ severity, level.severity? = some severity := by
    cases level with
    | off => exact absurd rfl hon
    | warn => exact ⟨_, rfl⟩
    | error => exact ⟨_, rfl⟩
  constructor
  case regex => exact fun t ht hkind => regexOf_textAt (fault_eq_none_of_abort habort) ht hkind
  case needed =>
    intro t ht hmisses hloud
    rw [← (end_of_regex habort ht hmisses.1 severity).2.1] at hloud
    have hat := missingFlagsAt_eq hset hlevel habort hunnamed ht hmisses.1
    exact ⟨_, hat.trans (if_pos ⟨hmisses, hloud⟩), hlevel⟩
  case unneeded =>
    intro t ht hkind hmisses
    have hat := missingFlagsAt_eq hset hlevel habort hunnamed ht hkind
    exact hat.trans (if_neg fun h => hmisses h.1)
  case only =>
    intro d hd hrule
    have hmem : d ∈ (verify settings text).filter (·.rule = .missingM) :=
      List.mem_filter.mpr ⟨hd, decide_eq_true hrule⟩
    rw [missingFlags_verify hset hlevel habort hunnamed] at hmem
    obtain ⟨t, ht, rfl⟩ := List.mem_map.mp hmem
    obtain ⟨ht, hmisses⟩ := List.mem_filter.mp ht
    have hmisses := (of_decide_eq_true hmisses).1
    obtain ⟨-, -, hplace⟩ := end_of_regex habort ht hmisses.1 severity
    exact ⟨t, ht, hmisses, List.mem_filter.mpr ⟨hd, decide_eq_true ⟨rfl, hplace⟩⟩⟩

/-- Of three patterns only the one in the middle misses the flag: the anchors of the first are at
its ends, in its class or escaped, and the last has the flag. -/
theorem missingFlags_of_anchors :
    let settings := Settings.setLevel {} .missingM .warn
    let text := "run(/^a[$^]\\^$/, /(?:b|^)c/g, /d$e/m);"
    MissingFlags settings text .warn ∧
      ((verify settings text).filter (·.rule = .missingM)).map (·.column) = [28] := by
  intro settings text
  exact ⟨@missingFlags_exact settings text .warn rfl (by decide) (by decide +kernel)
    (by decide +kernel), by decide +kernel⟩

end ScriptLint
