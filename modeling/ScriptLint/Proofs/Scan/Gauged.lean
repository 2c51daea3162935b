import ScriptLint.Proofs.Accounts
import ScriptLint.Proofs.Scan.Additions
import ScriptLint.Proofs.Scan.Failures
import ScriptLint.Proofs.Scan.Gauge

/-!
# Gauges along a scan

Every reached state of a scan has the gauge that its tokens tell.  While a token is read it is
not among them yet, but lines may be entered in it, and a fault in it leaves its line.  What the
tokens tell with this one on top is the gauge there.  So where a scan ends, completed or not, the
lines left are those that some tokens limit, and its own tokens are among these.

## Main definitions

* `Gauged` — a state with the gauge that some tokens tell
* `State.Takes`, `State.Adopts` — a token taken on the current line, and added there
* `Settled` — a state whose lines left are those that some tokens limit

## Main statements

* `gauged_of_reaches` — the gauge of a reached state is what its tokens tell
* `linesLeft_of_scan`, `linesLeft_of_completed` — the lines left in the end
-/

namespace ScriptLint

open Track

/-- **Gauged**: a state with the gauge that some tokens tell, which start no later and say
whether a template is open. -/
structure Gauged (source : Source) (tokens : List Token) (s : State) : Prop where
  start_le : ∀ t ∈ tokens, t.start.line ≤ s.line
  parity : s.inTemplate = decide (tokens.countP (·.isOperator "\x60") % 2 = 1)
  one_le_line : source.hasInterpreterLine = true → 1 ≤ s.line
  gauge : s.gauge = gaugeOf source tokens s.line

/-- **Told**: a state with the gauge that its own tokens tell. -/
def State.Told (source : Source) (s : State) : Prop := s.gauge = gaugeOf source s.tokens s.line

theorem State.Told.of_track {source : Source} {s t : State} (h : s.Told source)
    (htrack : t.track = s.track) (hgauge : t.gauge = s.gauge) : t.Told source := by
  have hline : t.line = s.line := congrArg Track.line htrack
  have htokens : t.tokens = s.tokens := congrArg Track.tokens htrack
  rw [State.Told, hgauge, htokens, hline]
  exact h

/-- **Settled**: a state whose lines left, up to its own, are those that some tokens limit, its own
among them. -/
def Settled (source : Source) (s : State) : Prop :=
  ∃ tokens, s.tokens <:+ tokens ∧ s.gauge.left = linesLeft source tokens (s.line + 1)

namespace Gauged

variable {source : Source} {tokens : List Token} {s t : State}

/-- A state that differs in none of this. -/
theorem of_eq (h : Gauged source tokens s) (hline : t.line = s.line)
    (hmode : t.inTemplate = s.inTemplate) (hgauge : t.gauge = s.gauge) :
    Gauged source tokens t where
  start_le u hu := hline ▸ h.start_le u hu
  parity := hmode.trans h.parity
  one_le_line hinterpreter := hline ▸ h.one_le_line hinterpreter
  gauge := by rw [hgauge, hline, h.gauge]

/-- Entering a line adds no token. -/
theorem nextLine? (h : Gauged source tokens s) (hnext : s.nextLine? = some t) :
    Gauged source tokens t := by
  obtain ⟨line, below, -, htrack⟩ := State.track_of_nextLine? hnext
  have hline : t.line = s.line + 1 := congrArg Track.line htrack
  have hmode : t.inTemplate = s.inTemplate := congrArg Track.inTemplate htrack
  refine ⟨fun u hu => ?_, hmode.trans h.parity, fun _ => ?_, ?_⟩
  · rw [hline]
    exact Nat.le_succ_of_le (h.start_le u hu)
  · rw [hline]
    exact Nat.succ_pos _
  · rw [State.gauge_of_nextLine? hnext, hline, gaugeOf_succ h.start_le h.one_le_line, ← h.parity,
      h.gauge]

/-- The end of a block comment is looked for over lines. -/
theorem closeComment (h : Gauged source tokens s) (parts : List String) :
    (∀ t, s.closeComment parts = .error t → Gauged source tokens t) ∧
      ∀ text t, s.closeComment parts = .ok (text, t) → Gauged source tokens t := by
  fun_induction State.closeComment parts s with
  | case1 parts s i hi part =>
    refine ⟨fun t ht => (by simp at ht), fun text t ht => ?_⟩
    obtain ⟨-, rfl⟩ := Prod.mk.inj (Except.ok.inj ht)
    have htrack := State.track_noteNestedLast s part
    exact h.of_eq (congrArg Track.line htrack) (congrArg Track.inTemplate htrack) (by simp)
  | case2 parts s hi s' u hu ih =>
    have htrack : s'.track = s.track := State.track_noteNested s s.rest
    have hs' : Gauged source tokens s' :=
      h.of_eq (congrArg Track.line htrack) (congrArg Track.inTemplate htrack) (by simp [s'])
    exact ih (hs'.nextLine? hu)
  | case3 parts s hi s' hu =>
    refine ⟨fun t ht => ?_, fun text t ht => (by simp at ht)⟩
    obtain rfl := Except.error.inj ht
    have htrack : s'.track = s.track := State.track_noteNested s s.rest
    exact h.of_eq (congrArg Track.line htrack) (congrArg Track.inTemplate htrack) (by simp [s'])

/-- The stop of the text of a template is looked for over lines. -/
theorem templateText (h : Gauged source tokens s) (text : List Char) :
    (∀ t, s.templateText text = .error t → Gauged source tokens t) ∧
      ∀ text' stop t, s.templateText text = .ok (text', stop, t) → Gauged source tokens t := by
  fun_induction State.templateText text s with
  | case1 text s read hread u hu ih => exact ih (h.nextLine? hu)
  | case2 text s read hread hu =>
    refine ⟨fun t ht => ?_, fun text' stop t ht => (by simp at ht)⟩
    obtain rfl := Except.error.inj ht
    exact h
  | case3 text s read hread =>
    refine ⟨fun t ht => (by simp at ht), fun text' stop t ht => ?_⟩
    simp only [Except.ok.injEq, Prod.mk.injEq] at ht
    obtain ⟨-, -, rfl⟩ := ht
    exact h.of_eq rfl rfl rfl

/-- Leaving the line settles a state. -/
theorem settled (h : Gauged source tokens s) (hsuffix : s.tokens <:+ tokens) :
    Settled source s.leaveLine := by
  have htrack := State.track_leaveLine s
  have htokens : s.leaveLine.tokens = s.tokens := congrArg Track.tokens htrack
  have hline : s.leaveLine.line = s.line := congrArg Track.line htrack
  refine ⟨tokens, htokens ▸ hsuffix, ?_⟩
  rw [State.gauge_leaveLine, hline, h.gauge, linesLeft_leave h.start_le]

end Gauged

/-! ### Taking tokens -/

namespace State

/-- **Taking**: a token on the current line is taken, whether it is among the tokens or not yet. -/
structure Takes (s : State) (c : Token) (t : State) : Prop where
  start : c.start.line = s.line
  kind : c.kind ≠ .eof
  line : t.line = s.line
  gauge : t.gauge = s.gauge.take s.tokens c

/-- **Adopting**: a token on the current line is taken and added. -/
def Adopts (s t : State) : Prop := ∃ c, t.tokens = c :: s.tokens ∧ s.Takes c t

variable {s t u : State}

@[simp] theorem line_push (s : State) (c : Token) : (s.push c).line = s.line :=
  congrArg Track.line (s.track_push c)

theorem Adopts.of_eq (h : s.Adopts u) (hline : t.line = u.line) (htokens : t.tokens = u.tokens)
    (hgauge : t.gauge = u.gauge) : s.Adopts t := by
  obtain ⟨c, hc, htakes⟩ := h
  exact ⟨c, htokens.trans hc, htakes.start, htakes.kind, hline.trans htakes.line,
    hgauge.trans htakes.gauge⟩

/-- What is recorded behind a token does not matter. -/
theorem Adopts.of_track (h : s.Adopts u) (htrack : t.track = u.track) (hgauge : t.gauge = u.gauge) :
    s.Adopts t :=
  h.of_eq (congrArg Track.line htrack) (congrArg Track.tokens htrack) hgauge

/-- A token is added behind what was recorded on it. -/
theorem adopts_push {c : Token} (hline : u.line = s.line) (htokens : u.tokens = s.tokens)
    (hgauge : u.gauge = s.gauge) (hstart : c.start.line = s.line) (heof : c.kind ≠ .eof)
    (hregex : c.kind ≠ .regex) : s.Adopts (u.push c) := by
  refine ⟨c, by rw [tokens_push, htokens], hstart, heof, (u.line_push c).trans hline, ?_⟩
  rw [gauge_push, hgauge, htokens, Gauge.take_of_kind_ne hregex]

theorem adopts_pushNext {n : Nat} {kind : TokenKind} {value : String} (hline : u.line = s.line)
    (htokens : u.tokens = s.tokens) (hgauge : u.gauge = s.gauge) (heof : kind ≠ .eof)
    (hregex : kind ≠ .regex) : s.Adopts (u.pushNext n kind value) :=
  adopts_push (u := u.advance n) hline htokens hgauge hline heof hregex

theorem adopts_identifier (n : Nat) : s.Adopts (s.identifier n) := by
  unfold identifier
  extract_lets value keyword precededByDot kind u base
  have hkind : kind ≠ .eof ∧ kind ≠ .regex := by
    simp only [kind]
    split <;> decide
  exact adopts_push (u := u) rfl rfl rfl rfl hkind.1 hkind.2

theorem adopts_of_number {lead : Nat} (h : s.number lead = .next t) : s.Adopts t := by
  unfold number at h
  split at h
  · cases h
  · next read _ =>
    obtain rfl := Step.next.inj h
    exact adopts_pushNext rfl rfl (s.gauge_noteAll read.findings) (by decide) (by decide)

theorem adopts_of_string {quote : Char} (h : s.string quote = .next t) : s.Adopts t := by
  unfold string at h
  split at h
  · cases h
  · next read _ =>
    extract_lets u base at h
    obtain rfl := Step.next.inj h
    have hkind : base.kind = .string := rfl
    exact adopts_push (u := u) rfl rfl (s.gauge_noteAll read.findings) rfl (by simp [hkind])
      (by simp [hkind])

theorem adopts_of_regex {role : SlashRole} (h : s.regex role = .next t) : s.Adopts t := by
  unfold regex at h
  extract_lets u at h
  split at h
  · cases h
  · next read missesFlag _ =>
    extract_lets value v w at h
    have hv : s.Adopts v := by
      refine ⟨_, tokens_pushNext _ _ _ _, rfl, by simp [token], line_push _ _, ?_⟩
      have hgauge : (u.noteAll read.findings).gauge = u.gauge := u.gauge_noteAll _
      rw [gauge_pushNext, hgauge, Gauge.push_of_kind_ne (by simp [token]), Gauge.take_of_regex rfl]
      rfl
    have hw : s.Adopts w := hv.of_track (track_noteIf _ _ _ _ _) (gauge_noteIf _ _ _ _ _)
    split at h
    · obtain rfl := Step.next.inj h
      exact hw.of_track rfl (w.gauge_emit rfl)
    · obtain rfl := Step.next.inj h
      exact hw.of_track rfl (w.gauge_note _ _ _)
    · obtain rfl := Step.next.inj h
      exact hw

theorem adopts_division : s.Adopts s.division := by
  unfold division
  split
  · exact adopts_pushNext rfl rfl (s.gauge_note _ _ _) (by decide) (by decide)
  · exact adopts_pushNext rfl rfl rfl (by decide) (by decide)

theorem adopts_of_backtick (h : s.backtick = .next t) : s.Adopts t := by
  unfold backtick at h
  split at h
  · cases h
  · obtain rfl := Step.next.inj h
    have hpush : s.Adopts (s.pushNext 1 .operator "\x60") :=
      adopts_pushNext rfl rfl rfl (by decide) (by decide)
    exact hpush.of_eq rfl rfl rfl

theorem adopts_of_punctuation {n : Nat} (h : s.punctuation n = .next t) : s.Adopts t := by
  unfold punctuation at h
  extract_lets value u at h
  have hu : s.Adopts u := adopts_pushNext rfl rfl rfl (by decide) (by decide)
  split at h
  · split at h
    · obtain rfl := Step.next.inj h
      exact hu.of_eq rfl rfl rfl
    · split at h
      · cases h
      · obtain rfl := Step.next.inj h
        exact hu
  · obtain rfl := Step.next.inj h
    exact hu

theorem adopts_lineComment : s.Adopts s.lineComment := by
  unfold lineComment
  extract_lets value u v
  have hv : s.Adopts v := adopts_push (u := u) rfl rfl rfl rfl (by simp [token]) (by simp [token])
  exact hv.of_track (by simp) (by simp)

end State

/-! ### States with a token in mind -/

section

variable {source : Source} {s t : State}

/-- A token taken outside of the first line, if that is not scanned, tells with the others what
the gauge is. -/
theorem Gauged.takes (h : Gauged source s.tokens s)
    (hhead : source.hasInterpreterLine = true → s.line ≠ 1) {c : Token}
    (htakes : s.roused.Takes c t) : t.gauge = gaugeOf source (c :: s.tokens) t.line := by
  have hstart : c.start.line = s.line := htakes.start
  have hline : t.line = s.line := htakes.line
  rw [htakes.gauge, hline, gaugeOf_cons hstart htakes.kind fun _ => hhead, ← h.parity, ← h.gauge]
  rfl

/-- While a token that is no backtick is read, the state is gauged as if it were there. -/
theorem Gauged.pending (h : Gauged source s.tokens s)
    (hhead : source.hasInterpreterLine = true → s.line ≠ 1) {c : Token}
    (htakes : s.roused.Takes c t) (hmode : t.inTemplate = s.inTemplate)
    (htick : c.isOperator "\x60" = false) : Gauged source (c :: s.tokens) t where
  start_le u hu := by
    have hline : t.line = s.line := htakes.line
    rw [hline]
    rcases List.mem_cons.mp hu with rfl | hu
    · exact Nat.le_of_eq htakes.start
    · exact h.start_le u hu
  parity := by rw [hmode, h.parity, List.countP_cons, if_neg (by simp [htick]), Nat.add_zero]
  one_le_line hinterpreter := by
    have hline : t.line = s.line := htakes.line
    exact hline ▸ h.one_le_line hinterpreter
  gauge := h.takes hhead htakes

/-- A token added tells with the others what the gauge is. -/
theorem Gauged.adopts (h : Gauged source s.tokens s)
    (hhead : source.hasInterpreterLine = true → s.line ≠ 1) (hadopts : s.roused.Adopts t) :
    t.Told source := by
  obtain ⟨c, htokens, htakes⟩ := hadopts
  rw [State.Told, htokens]
  exact h.takes hhead htakes

/-- A fault in a token leaves the line as if the token were there. -/
theorem Gauged.settled_of_takes (h : Gauged source s.tokens s)
    (hhead : source.hasInterpreterLine = true → s.line ≠ 1) {c : Token} {u : State}
    (htakes : s.roused.Takes c u) (htrack : u.track = s.track)
    (htick : c.isOperator "\x60" = false) : Settled source u.leaveLine := by
  have htokens : u.tokens = s.tokens := congrArg Track.tokens htrack
  exact (h.pending hhead htakes (congrArg Track.inTemplate htrack) htick).settled
    (htokens ▸ List.suffix_cons c s.tokens)

/-! ### Comments -/

/-- The opening of a block comment takes the comment. -/
theorem State.takes_opened {c : Token} {p : Bool} {rule : Rule} {column : Nat} {args : List String}
    (hstart : c.start.line = s.line) (hkind : c.kind = .comment) :
    s.Takes c ((s.advance 2).noteIf p rule column args) where
  start := hstart
  kind := by simp [hkind]
  line := congrArg Track.line ((s.advance 2).track_noteIf _ _ _ _)
  gauge := by
    rw [gauge_noteIf, gauge_advance, Gauge.take_of_kind_ne (by simp [hkind]),
      Gauge.push_of_kind_ne (by simp [hkind])]

/-- A block comment tells of the line it starts on, and its lines are entered behind it. -/
theorem Gauged.blockComment (h : Gauged source s.tokens s)
    (hhead : source.hasInterpreterLine = true → s.line ≠ 1) :
    (∀ t, s.roused.blockComment = .error t → Settled source t.leaveLine) ∧
      ∀ t, s.roused.blockComment = .ok t → t.Told source := by
  unfold State.blockComment
  extract_lets opened opened'
  have htrack : opened'.track = opened.track := opened.track_noteIf _ _ _ _
  have htokens : opened'.tokens = s.tokens := congrArg Track.tokens htrack
  have hopened (c : Token) (hstart : c.start.line = s.line) (hkind : c.kind = .comment) :
      Gauged source (c :: s.tokens) opened' :=
    h.pending hhead (State.takes_opened hstart hkind) (congrArg Track.inTemplate htrack)
      (by simp [Token.isOperator, hkind])
  constructor
  · intro t ht
    split at ht
    · next u hu =>
      obtain rfl := Except.error.inj ht
      have hgauged := ((hopened (s.token .comment "" s.position) rfl rfl).closeComment []).1 u hu
      have hkept : u.tokens = opened'.tokens :=
        crosses_tokens (State.crosses_of_closeComment_error hu)
      rw [htokens] at hkept
      exact hgauged.settled (hkept ▸ List.suffix_cons _ _)
    · cases ht
  · intro t ht
    split at ht
    · cases ht
    · next text u hu =>
      obtain rfl := Except.ok.inj ht
      -- The token was in mind from the opening on.
      have hgauged := ((hopened (u.token .comment text s.position) rfl rfl).closeComment []).2
        text u hu
      obtain ⟨v, n, hcross, -, hclose⟩ := State.crosses_of_closeComment hu
      have hkept : u.tokens = opened'.tokens :=
        (congrArg Track.tokens hclose).trans (crosses_tokens hcross)
      have hpush : (u.push (u.token .comment text s.position)).Told source := by
        rw [State.Told, State.gauge_push, State.tokens_push, State.line_push, hkept, htokens,
          ← hgauged.gauge]
        exact Gauge.push_of_kind_ne (by simp [State.token]) _ _
      exact hpush.of_track (State.track_inspectComment _ _ _) (State.gauge_inspectComment _ _ _)

/-! ### Templates -/

/-- The text of a template and the delimiter behind it tell nothing of a line. -/
theorem State.Told.pushNext_text {c : Token} {n : Nat} {value : String} {mode : Mode}
    (h : Gauged source s.tokens s) (hin : s.inTemplate = true) (hkind : c.kind = .string) :
    State.Told source { (s.push c).pushNext n .operator value with mode := mode } := by
  have hodd : s.tokens.countP (·.isOperator "\x60") % 2 = 1 := of_decide_eq_true (h.parity ▸ hin)
  have hodd' : (c :: s.tokens).countP (·.isOperator "\x60") % 2 = 1 := by
    rw [List.countP_cons, if_neg (by simp [Token.isOperator, hkind]), Nat.add_zero]
    exact hodd
  have hline : ((s.push c).pushNext n .operator value).line = s.line :=
    (State.line_push _ _).trans (s.line_push c)
  have hgauge : ((s.push c).pushNext n .operator value).gauge = s.gauge := by
    rw [State.gauge_pushNext, State.tokens_push, Gauge.push_cons, State.gauge_push,
      Gauge.push_of_kind_ne (by simp [hkind])]
  show ((s.push c).pushNext n .operator value).gauge =
    gaugeOf source ((s.push c).pushNext n .operator value).tokens
      ((s.push c).pushNext n .operator value).line
  rw [hline, hgauge, State.tokens_pushNext, State.tokens_push,
    gaugeOf_cons (s.line_push c) (by simp [State.token]) (by omega), decide_eq_true hodd',
    Gauge.rouse_true, Gauge.take_of_kind_ne (by simp [State.token]), Gauge.push_cons,
    gaugeOf_cons_text hkind hodd, ← h.gauge]

/-- In a template a step reads over lines up to a delimiter. -/
theorem Gauged.templatePart (h : Gauged source s.tokens s) {opening : Position}
    (hmode : s.mode = .template opening) :
    (∀ t fault, s.templatePart opening = .failed t fault → Settled source t) ∧
      ∀ t, s.templatePart opening = .next t → t.Told source := by
  obtain ⟨herror, hok⟩ := h.templateText []
  unfold State.templatePart
  split
  · next u hu =>
    refine ⟨fun t fault ht => ?_, fun t ht => (by cases ht)⟩
    obtain ⟨rfl, -⟩ := Step.failed.inj ht
    have hkept : u.tokens = s.tokens := crosses_tokens (State.crosses_of_templateText_error hu)
    exact (herror u hu).settled (hkept ▸ List.suffix_refl _)
  · next text stop u hu =>
    extract_lets part v opened closed
    obtain ⟨-, w, n, hcross, -, htrack⟩ := State.crosses_of_templateText hu
    have hkept : u.tokens = s.tokens := (congrArg Track.tokens htrack).trans (crosses_tokens hcross)
    have hin : u.inTemplate = true := by
      have hmode' : u.mode = s.mode := (congrArg Track.mode htrack).trans (crosses_mode hcross)
      rw [State.inTemplate, hmode', hmode]
      rfl
    have hgauged : Gauged source u.tokens u := hkept ▸ hok _ _ _ hu
    split
    · refine ⟨fun t fault ht => (by cases ht), fun t ht => ?_⟩
      obtain rfl := Step.next.inj ht
      exact .pushNext_text hgauged hin rfl
    · refine ⟨fun t fault ht => (by cases ht), fun t ht => ?_⟩
      obtain rfl := Step.next.inj ht
      exact .pushNext_text hgauged hin rfl

/-! ### Steps -/

/-- A token read tells with the others what the gauge is. -/
theorem Gauged.told_of_cut (h : Gauged source s.tokens s)
    (hhead : source.hasInterpreterLine = true → s.line ≠ 1) {outcome : Step}
    (hcut : State.Cut s.roused outcome) (hout : outcome = .next t) : t.Told source := by
  cases hcut with
  | word _ =>
    obtain rfl := Step.next.inj hout
    exact h.adopts hhead (State.adopts_identifier _)
  | number _ => exact h.adopts hhead (State.adopts_of_number hout)
  | string _ _ => exact h.adopts hhead (State.adopts_of_string hout)
  | backtick _ => exact h.adopts hhead (State.adopts_of_backtick hout)
  | lineComment _ =>
    obtain rfl := Step.next.inj hout
    exact h.adopts hhead State.adopts_lineComment
  | blockComment _ hu =>
    obtain rfl := Step.next.inj hout
    exact (h.blockComment hhead).2 _ hu
  | unclosedComment _ _ => cases hout
  | division _ _ =>
    obtain rfl := Step.next.inj hout
    exact h.adopts hhead State.adopts_division
  | regex _ _ => exact h.adopts hhead (State.adopts_of_regex hout)
  | punctuation _ _ _ _ => exact h.adopts hhead (State.adopts_of_punctuation hout)
  | unexpected _ => cases hout

/-- A fault where a token was to be read leaves its line as if the token were there. -/
theorem Gauged.settled_of_cut (h : Gauged source s.tokens s)
    (hhead : source.hasInterpreterLine = true → s.line ≠ 1) {outcome : Step} {fault : Finding}
    (hcut : State.Cut s.roused outcome) (hout : outcome = .failed t fault) : Settled source t := by
  -- Any token that is no operator stands for one that could not be read.
  have hplain {u : State} (htrack : u.track = s.track) (hgauge : u.gauge = s.roused.gauge) :
      Settled source u.leaveLine := by
    refine h.settled_of_takes hhead (c := s.token .number "" s.position) ?_ htrack rfl
    refine ⟨rfl, by simp [State.token], congrArg Track.line htrack, ?_⟩
    rw [hgauge, Gauge.take_of_kind_ne (by simp [State.token]),
      Gauge.push_of_kind_ne (by simp [State.token])]
  cases hcut with
  | word _ => cases hout
  | number _ =>
    unfold State.number at hout
    split at hout
    · next halt _ =>
      obtain ⟨rfl, -⟩ := Step.failed.inj hout
      exact hplain rfl (s.roused.gauge_noteAll halt.findings)
    · cases hout
  | string _ _ =>
    unfold State.string at hout
    split at hout
    · next halt _ =>
      obtain ⟨rfl, -⟩ := Step.failed.inj hout
      exact hplain rfl (s.roused.gauge_noteAll halt.findings)
    · cases hout
  | backtick _ =>
    unfold State.backtick at hout
    split at hout
    · obtain ⟨rfl, -⟩ := Step.failed.inj hout
      exact hplain rfl rfl
    · cases hout
  | lineComment _ => cases hout
  | blockComment _ _ => cases hout
  | unclosedComment _ hu =>
    obtain ⟨rfl, -⟩ := Step.failed.inj hout
    exact (h.blockComment hhead).1 _ hu
  | division _ _ => cases hout
  | regex _ _ =>
    unfold State.regex at hout
    extract_lets u at hout
    split at hout
    · next halt _ =>
      obtain ⟨rfl, -⟩ := Step.failed.inj hout
      refine h.settled_of_takes hhead (c := s.token .regex "" s.position) ?_ rfl rfl
      refine ⟨rfl, by simp [State.token], rfl, ?_⟩
      rw [State.gauge_noteAll, Gauge.take_of_regex rfl]
      rfl
    · split at hout <;> cases hout
  | punctuation _ _ _ _ =>
    unfold State.punctuation at hout
    extract_lets value u at hout
    split at hout
    · split at hout
      · cases hout
      · split at hout
        · next hvalue =>
          -- The brace is among the tokens already.
          obtain ⟨rfl, -⟩ := Step.failed.inj hout
          have hu : u.track = _ := State.track_push _ _
          obtain ⟨c, htokens, htakes⟩ : s.roused.Adopts u :=
            State.adopts_pushNext rfl rfl rfl (by decide) (by decide)
          have htick : c.isOperator "\x60" = false := by
            have hc : c = _ :=
              (List.cons.inj (htokens.symm.trans (State.tokens_pushNext _ _ _ _))).1
            rw [hc]
            simp [Token.isOperator, State.token, hvalue]
          exact (h.pending hhead htakes (congrArg Track.inTemplate hu) htick).settled
            (htokens ▸ List.suffix_refl _)
        · cases hout
    · cases hout
  | unexpected _ =>
    obtain ⟨rfl, -⟩ := Step.failed.inj hout
    exact hplain rfl rfl

/-- **What a step tells**: going on, the gauge that its tokens tell; at a fault, the lines left. -/
theorem Gauged.of_step (h : Gauged source s.tokens s)
    (hhead : source.hasInterpreterLine = true → s.rest ≠ [] → s.line ≠ 1) :
    (∀ t, s.step = .next t → t.Told source) ∧
      ∀ t fault, s.step = .failed t fault → Settled source t := by
  have haction := s.action_of_step
  generalize s.step = outcome at haction
  cases haction with
  | part hmode => exact (h.templatePart hmode).symm
  | line _ _ hnext =>
    refine ⟨fun t ht => ?_, fun t fault ht => (by cases ht)⟩
    obtain rfl := Step.next.inj ht
    obtain ⟨line, below, -, htrack⟩ := State.track_of_nextLine? hnext
    have htokens : State.tokens _ = s.tokens := congrArg Track.tokens htrack
    rw [State.Told, htokens]
    exact (h.nextLine? hnext).gauge
  | finish _ _ _ =>
    refine ⟨fun t ht => ?_, fun t fault ht => ?_⟩
    · unfold State.finish at ht
      split at ht <;> cases ht
    · unfold State.finish at ht
      split at ht
      · obtain ⟨rfl, -⟩ := Step.failed.inj ht
        exact h.settled (List.suffix_refl _)
      · cases ht
  | blanks _ _ _ =>
    refine ⟨fun t ht => ?_, fun t fault ht => (by cases ht)⟩
    obtain rfl := Step.next.inj ht
    exact h.gauge
  | token _ hrest _ hcut =>
    have hline : source.hasInterpreterLine = true → s.line ≠ 1 := fun hinterpreter =>
      hhead hinterpreter (by simp [hrest])
    exact ⟨fun t ht => h.told_of_cut hline hcut ht,
      fun t fault ht => h.settled_of_cut hline hcut ht⟩

end

/-! ### Scans -/

/-- A scan begins with the gauge that no token tells. -/
theorem Gauged.initial (source : Source) : Gauged source [] (.initial source.lines.toList) := by
  have hstart (hinterpreter : source.hasInterpreterLine = false) :
      Gauged source [] { below := source.lines.toList } := by
    refine ⟨by simp, rfl, by simp [hinterpreter], ?_⟩
    simp [State.gauge, gaugeOf, sheltered, backticksBefore, regexOn, linesLeft]
  unfold State.initial
  extract_lets s
  split
  · next hlines =>
    refine hstart ?_
    have hnone : source.lines[0]? = none := by simp [← Array.getElem?_toList, hlines]
    simp [Source.hasInterpreterLine, Source.textAt, Source.line?, hnone]
  · next line below hlines =>
    split
    · next hmark =>
      have hinterpreter : source.hasInterpreterLine = true := by
        rw [Source.hasInterpreterLine, Source.textAt_one hlines, hmark]
      have htrack := State.track_enter s line below
      have hline : (s.enter line below).line = 1 := congrArg Track.line htrack
      have hgauge : (s.enter line below).gauge = ⟨false, false, false, []⟩ :=
        State.gauge_enter s line below
      refine ⟨by simp, congrArg Track.inTemplate htrack, fun _ => Nat.le_of_eq hline.symm, ?_⟩
      show { (s.enter line below).gauge with exempt := true } =
        gaugeOf source [] (s.enter line below).line
      rw [hgauge, hline]
      simp [gaugeOf, sheltered, hinterpreter, regexOn, linesLeft]
    · next hmark =>
      refine hstart ?_
      rw [Source.hasInterpreterLine, Source.textAt_one hlines]
      exact eq_false_of_ne_true hmark

/-- A first line that is not scanned lies behind every reached state. -/
theorem head_le_of_reaches {source : Source} {s : State}
    (h : State.Reaches (.initial source.lines.toList) s)
    (hinterpreter : source.hasInterpreterLine = true) :
    (⟨1, source.lengthAt 1⟩ : Position) ≤ s.position := by
  refine h.invariant (P := fun track => (⟨1, source.lengthAt 1⟩ : Position) ≤ track.position)
    (fun s t hs hleg => hs.trans (position_lt_of_leg hleg).le) ?_
  have hone := (Gauged.initial source).one_le_line hinterpreter
  have hlength := (Placed.initial source).length_rest
  rcases State.track_initial source.lines.toList with htrack | ⟨line, below, -, -, htrack⟩
  · -- Before the first line no line has been read.
    have hzero : (State.initial source.lines.toList).line = 0 := congrArg Track.line htrack
    omega
  · rw [htrack] at hlength ⊢
    refine Position.le_iff.mpr (.inr ⟨rfl, ?_⟩)
    simp only [Track.advance, List.drop_length, List.length_nil] at hlength
    exact Nat.le_of_sub_eq_zero hlength.symm

/-- Behind a first line that is not scanned there are characters on lines below alone. -/
theorem line_ne_one_of_reaches {source : Source} {s : State}
    (h : State.Reaches (.initial source.lines.toList) s)
    (hinterpreter : source.hasInterpreterLine = true) :
    1 ≤ s.line ∧ (s.rest ≠ [] → s.line ≠ 1) := by
  have hlength : s.rest.length = source.lengthAt s.line - s.column :=
    (placed_of_reaches h).length_rest
  have hle : 1 < s.line ∨ 1 = s.line ∧ source.lengthAt 1 ≤ s.column :=
    Position.le_iff.mp (head_le_of_reaches h hinterpreter)
  refine ⟨by omega, fun hrest hone => hrest (List.length_eq_zero_iff.mp ?_)⟩
  rw [hone] at hle hlength
  omega

/-- **The gauge of a reached state** is what its tokens tell. -/
theorem gauged_of_reaches {source : Source} {s : State}
    (h : State.Reaches (.initial source.lines.toList) s) : Gauged source s.tokens s := by
  have hgauged {s : State} (h : State.Reaches (.initial source.lines.toList) s)
      (htold : s.Told source) : Gauged source s.tokens s := by
    have hplaced := placed_of_reaches h
    exact ⟨hplaced.start_le, hplaced.inTemplate_eq,
      fun hinterpreter => (line_ne_one_of_reaches h hinterpreter).1, htold⟩
  refine hgauged h ?_
  induction h with
  | refl =>
    have htokens : (State.initial source.lines.toList).tokens = [] := State.tokens_initial _
    rw [State.Told, htokens]
    exact (Gauged.initial source).gauge
  | tail hreach hstep ih =>
    exact ((hgauged hreach ih).of_step fun hinterpreter =>
      (line_ne_one_of_reaches hreach hinterpreter).2).1 _ hstep

/-- The end of the source is the last line that is left. -/
theorem Gauged.left_of_completed {source : Source} {s t : State} (h : Gauged source s.tokens s)
    (hstep : s.step = .completed t) : t.gauge.left = linesLeft source t.tokens (t.line + 1) := by
  obtain ⟨-, -, hfinish⟩ := State.finish_of_completed hstep
  unfold State.finish at hfinish
  split at hfinish
  · cases hfinish
  · extract_lets u at hfinish
    obtain rfl := Step.completed.inj hfinish
    have htrack : u.track = s.track := s.track_leaveLine
    have htokens : u.tokens = s.tokens := congrArg Track.tokens htrack
    have hline : u.line = s.line := congrArg Track.line htrack
    have hleft : u.gauge.left = linesLeft source s.tokens (s.line + 1) := by
      rw [State.gauge_leaveLine, h.gauge, linesLeft_leave h.start_le]
    rw [State.gauge_push, State.tokens_push, State.line_push, htokens, hline]
    exact hleft.trans (linesLeft_congr fun m _ => (limited_cons_eof rfl).symm)

/-- The lines that a scan leaves, in order. -/
def Scan.linesLeft (scan : Scan) : List Nat := scan.events.filterMap Event.lineLeft?

/-- The issues of the region markers leave no line. -/
theorem linesLeft_scan (source : Source) : (scan source).linesLeft =
    (State.initial source.lines.toList).run.1.gauge.left.reverse := by
  have hissues : source.issueEvents.filterMap Event.lineLeft? = [] := by
    simp [Source.issueEvents, List.filterMap_map, Event.lineLeft?]
  rw [Scan.linesLeft, scan_eq, List.filterMap_append, hissues, List.nil_append,
    List.filterMap_reverse]
  rfl

/-- **The lines left**, whether the scan completes or not, are those that some tokens limit, up to
the line it ends on.  Its own tokens are among these. -/
theorem linesLeft_of_scan (source : Source) :
    ∃ tokens last, (scan source).tokens.reverse <:+ tokens ∧ last ≤ source.lastIndex ∧
      (scan source).linesLeft = (List.range' 1 last).filter (limited source tokens) := by
  have hsettled : Settled source (State.initial source.lines.toList).run.1 := by
    obtain ⟨s, hreach, ⟨t, hstep, hrun⟩ | ⟨t, fault, hstep, hrun⟩⟩ :=
      State.run_outcome (.initial source.lines.toList)
    · rw [hrun]
      exact ⟨t.tokens, List.suffix_refl _, (gauged_of_reaches hreach).left_of_completed hstep⟩
    · rw [hrun]
      exact ((gauged_of_reaches hreach).of_step fun hinterpreter =>
        (line_ne_one_of_reaches hreach hinterpreter).2).2 _ _ hstep
  obtain ⟨tokens, hsuffix, hleft⟩ := hsettled
  refine ⟨tokens, _, ?_, (placed_of_run source).line_le, ?_⟩
  · rw [scan_eq, List.reverse_reverse]
    exact hsuffix
  · rw [linesLeft_scan, hleft]
    exact List.reverse_reverse _

/-- **The lines left by a completed scan** are those that its tokens limit. -/
theorem linesLeft_of_completed {source : Source} (h : (scan source).fault = none) :
    (scan source).linesLeft =
      (List.range' 1 source.lastIndex).filter (limited source (scan source).tokens.reverse) := by
  obtain ⟨s, hreach, ⟨t, hstep, hrun⟩ | ⟨t, fault, hstep, hrun⟩⟩ :=
    State.run_outcome (.initial source.lines.toList)
  · obtain ⟨-, hrest, hbelow, e, -, -, htrack⟩ := State.completed_of_step hstep
    have hline : t.line = source.lastIndex :=
      (congrArg Track.line htrack).trans ((placed_of_reaches hreach).at_end hrest hbelow).1
    rw [linesLeft_scan, scan_eq, hrun, (gauged_of_reaches hreach).left_of_completed hstep, hline,
      List.reverse_reverse]
    exact List.reverse_reverse _
  · rw [scan_eq, hrun] at h
    cases h

end ScriptLint
