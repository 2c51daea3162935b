import ScriptLint.Proofs.Literal.Relocation
import ScriptLint.Proofs.Scan.Actions
import ScriptLint.Proofs.Scan.Track

/-!
# Events are never taken back

A scan records events and forgets none: whatever a step does, it leaves the events before
it as they are and puts its own on top.  So an event can be acted upon at the moment it
is recorded.

What a step records concerns the lines it goes over, from the one it begins on to the one it
ends on, and its findings are regular; that a line is too long is never one of them: it is left
to the report of the lines that were left.  A fault is on a fatal rule and stands on the line on
which its step begins, unless a template is not closed; that one stands at the opening of the
template.

## Main definitions

* `State.Grows` — a later state has the events of an earlier one, and newer ones
* `State.eventsSince` — the newer ones, in order
* `State.Records` — the newer events concern the lines gone over
* `State.PlacesFault` — the place of a fault and its rule
* `Step.state` — the state a step ends in

## Main statements

* `State.records_step` — what a step records, whatever its outcome
* `State.placesFault_of_step` — where the fault of a step stands
* `State.grows_step` — the events grow along every step, also along the last
-/

namespace ScriptLint

/-- The state a step ends in, whatever its outcome. -/
def Step.state : Step → State
  | next s => s
  | completed s => s
  | failed s _ => s

/-- **Within lines**: an event that concerns a line between two, or none; a finding is regular. -/
def Event.Within (first last : Nat) : Event → Prop
  | found finding => first ≤ finding.line ∧ finding.line ≤ last ∧ finding.Regular
  | lineLeft line | todo line _ => first ≤ line ∧ line ≤ last
  | levelSet _ _ | flagSet _ _ | globalDeclared _ | propertyNamed _ => True

theorem Event.Within.mono {event : Event} {first last first' last' : Nat}
    (h : event.Within first last) (hfirst : first' ≤ first) (hlast : last ≤ last') :
    event.Within first' last' := by
  cases event with
  | found finding => exact ⟨Nat.le_trans hfirst h.1, Nat.le_trans h.2.1 hlast, h.2.2⟩
  | lineLeft line => exact ⟨Nat.le_trans hfirst h.1, Nat.le_trans h.2 hlast⟩
  | todo line column => exact ⟨Nat.le_trans hfirst h.1, Nat.le_trans h.2 hlast⟩
  | levelSet rule level => trivial
  | flagSet flag on => trivial
  | globalDeclared name => trivial
  | propertyNamed name => trivial

namespace State

/-- **Growth**: the events of a state are those of an earlier one with newer ones on top. -/
def Grows (s t : State) : Prop := s.events <:+ t.events

/-- The events recorded since an earlier state, in order. -/
def eventsSince (s t : State) : List Event :=
  (t.events.take (t.events.length - s.events.length)).reverse

/-- The events before and the events since are all events. -/
theorem Grows.events_append {s t : State} (h : s.Grows t) :
    s.events.reverse ++ s.eventsSince t = t.events.reverse := by
  obtain ⟨newer, hnewer⟩ := h
  rw [eventsSince, ← hnewer, List.length_append, Nat.add_sub_cancel, List.take_left,
    List.reverse_append]

/-- **Recording**: a later state stands no earlier, and what it has recorded since concerns the
lines gone over. -/
structure Records (s t : State) : Prop where
  line_le : s.line ≤ t.line
  events : ∃ newer, t.events = newer ++ s.events ∧ ∀ e ∈ newer, e.Within s.line t.line

namespace Records

variable {s t u : State}

theorem refl (s : State) : s.Records s := ⟨Nat.le_refl _, [], rfl, by simp⟩

theorem trans (h : s.Records t) (h' : t.Records u) : s.Records u := by
  obtain ⟨hline, newer, hnewer, hwithin⟩ := h
  obtain ⟨hline', newer', hnewer', hwithin'⟩ := h'
  refine ⟨Nat.le_trans hline hline', newer' ++ newer, ?_, fun e he => ?_⟩
  · rw [hnewer', hnewer, List.append_assoc]
  · rcases List.mem_append.mp he with he | he
    · exact (hwithin' e he).mono hline (Nat.le_refl _)
    · exact (hwithin e he).mono (Nat.le_refl _) hline'

/-- Events that concern the lines gone over are recorded on the way. -/
theorem append (h : s.Records t) (events : List Event) (hline : u.line = t.line)
    (hevents : u.events = events ++ t.events) (hwithin : ∀ e ∈ events, e.Within s.line t.line) :
    s.Records u := by
  obtain ⟨hle, newer, hnewer, hold⟩ := h
  refine ⟨hline ▸ hle, events ++ newer, ?_, fun e he => ?_⟩
  · rw [hevents, hnewer, List.append_assoc]
  · rw [hline]
    rcases List.mem_append.mp he with he | he
    · exact hwithin e he
    · exact hold e he

theorem grows (h : s.Records t) : s.Grows t := by
  obtain ⟨newer, hnewer, -⟩ := h.events
  exact ⟨newer, hnewer.symm⟩

end Records

variable (s : State)

/-! ### Reports and moves -/

/-- A state that differs in neither line nor events. -/
theorem records_of_eq {s t : State} (hline : t.line = s.line) (hevents : t.events = s.events) :
    s.Records t :=
  (Records.refl s).append [] hline hevents (by simp)

theorem records_emit {event : Event} (h : event.Within s.line s.line) :
    s.Records (s.emit event) :=
  (Records.refl s).append [event] rfl rfl (by simpa using h)

theorem records_note {rule : Rule} (hrule : rule ≠ .noLongLines) (column : Nat)
    (args : List String) : s.Records (s.note rule column args) :=
  s.records_emit ⟨Nat.le_refl _, Nat.le_refl _, regular_of_default hrule _ _ _⟩

theorem records_noteIf (p : Bool) {rule : Rule} (hrule : rule ≠ .noLongLines) (column : Nat)
    (args : List String) : s.Records (s.noteIf p rule column args) := by
  unfold noteIf
  split
  · exact s.records_note hrule _ _
  · exact .refl s

/-- The findings of a literal are recorded. -/
theorem records_noteAll {findings : List Finding} {offset : Nat}
    (h : ∀ f ∈ findings, (s.surroundings offset).Owns f) : s.Records (s.noteAll findings) := by
  refine (Records.refl s).append (findings.map .found) rfl rfl fun e he => ?_
  obtain ⟨f, hf, rfl⟩ := List.mem_map.mp he
  obtain ⟨hline, hregular, -⟩ := h f hf
  exact ⟨Nat.le_of_eq hline.symm, Nat.le_of_eq hline, hregular⟩

theorem records_leaveLine : s.Records s.leaveLine := by
  unfold leaveLine
  split
  · exact .refl s
  · exact s.records_emit ⟨Nat.le_refl _, Nat.le_refl _⟩

theorem records_checkBlanks (text : List Char) : s.Records (s.checkBlanks text) :=
  (s.records_noteIf _ (by decide) _ _).trans (records_noteIf _ _ (by decide) _ _)

/-- What is recorded when a line is entered concerns this line. -/
theorem records_enter (line : Line) (below : List Line) :
    ∃ t : State, t.line = s.line + 1 ∧ t.events = s.events ∧ t.Records (s.enter line below) := by
  refine ⟨{ s with line := s.line + 1 }, rfl, rfl, ?_⟩
  unfold enter
  extract_lets text t
  have ht : State.Records { s with line := s.line + 1 } t := records_of_eq rfl rfl
  split
  · exact ht
  · exact (ht.trans (t.records_checkBlanks text)).trans (records_of_eq rfl rfl)

theorem records_of_nextLine? {s t : State} (h : s.nextLine? = some t) : s.Records t := by
  unfold nextLine? at h
  split at h
  · simp at h
  · next line below _ =>
    obtain rfl := Option.some.inj h
    obtain ⟨u, hline, hevents, hu⟩ := s.leaveLine.records_enter line below
    have hleave := s.records_leaveLine
    have hgo : s.leaveLine.Records u :=
      ⟨hline ▸ Nat.le_succ _, [], hevents, by simp⟩
    exact (hleave.trans hgo).trans hu

theorem records_checkNeighbours (t : Token) : s.Records (s.checkNeighbours t) := by
  unfold checkNeighbours
  split
  · exact .refl s
  · exact (s.records_noteIf _ (by decide) _ _).trans (records_noteIf _ _ (by decide) _ _)

theorem records_push (t : Token) : s.Records (s.push t) :=
  (s.records_checkNeighbours t).trans (records_of_eq rfl rfl)

theorem records_advance (n : Nat) : s.Records (s.advance n) := records_of_eq rfl rfl

theorem records_pushNext (n : Nat) (kind : TokenKind) (value : String) :
    s.Records (s.pushNext n kind value) :=
  (s.records_advance n).trans (records_push _ _)

/-! ### Comments -/

theorem within_directiveItem (item : DirectiveItem) (directive : Directive) {line column : Nat}
    {first last : Nat} (hfirst : first ≤ line) (hlast : line ≤ last) :
    ∀ e ∈ item.events directive line column, e.Within first last := by
  intro e he
  unfold DirectiveItem.events at he
  split at he
  · rcases List.mem_append.mp he with he | he
    · split at he
      · obtain rfl := List.mem_singleton.mp he
        exact ⟨hfirst, hlast, regular_of_default (by decide) _ _ _⟩
      · cases he
    · obtain rfl := List.mem_singleton.mp he
      trivial
  · obtain rfl := List.mem_singleton.mp he
    trivial
  · extract_lets on at he
    split at he
    · obtain rfl := List.mem_singleton.mp he
      trivial
    · obtain rfl := List.mem_singleton.mp he
      trivial
    · obtain rfl := List.mem_singleton.mp he
      exact ⟨hfirst, hlast, regular_of_default (by decide) _ _ _⟩

theorem within_directive (directive : Directive) (body : List Char) {line column : Nat}
    {first last : Nat} (hfirst : first ≤ line) (hlast : line ≤ last) :
    ∀ e ∈ directive.events body line column, e.Within first last := by
  intro e he
  unfold Directive.events at he
  rcases List.mem_append.mp he with he | he
  · obtain ⟨item, -, he⟩ := List.mem_flatMap.mp he
    exact within_directiveItem item directive hfirst hlast e he
  · split at he
    · cases he
    · obtain rfl := List.mem_singleton.mp he
      exact ⟨hfirst, hlast, regular_of_default (by decide) _ _ _⟩

/-- A comment is searched behind its end, for what concerns its start. -/
theorem records_inspectComment {s t : State} (h : s.Records t) (value : List Char)
    {start : Position} (hstart : start.line = s.line) :
    s.Records (t.inspectComment value start) := by
  have hfirst : s.line ≤ start.line := Nat.le_of_eq hstart.symm
  have hlast : start.line ≤ t.line := hstart ▸ h.line_le
  unfold inspectComment
  extract_lets line column u
  have hu : s.Records u ∧ u.line = t.line := by
    simp only [u]
    split
    · exact ⟨h.append [_] rfl rfl (by simpa using ⟨hfirst, hlast⟩), rfl⟩
    · exact ⟨h, rfl⟩
  obtain ⟨hu, hline⟩ := hu
  split
  · exact hu
  · next directive body _ =>
    split
    · refine hu.append _ rfl rfl fun e he => ?_
      rw [hline]
      exact within_directive directive body hfirst hlast e (List.mem_reverse.mp he)
    · refine hu.append [_] rfl rfl fun e he => ?_
      obtain rfl := List.mem_singleton.mp he
      rw [hline]
      exact ⟨hfirst, hlast, regular_of_default (by decide) _ _ _⟩

theorem records_noteNested (part : List Char) : s.Records (s.noteNested part) := by
  unfold noteNested
  split
  · exact s.records_note (by decide) _ _
  · exact .refl s

theorem records_noteNestedLast (part : List Char) : s.Records (s.noteNestedLast part) := by
  unfold noteNestedLast
  split
  · exact s.records_note (by decide) _ _
  · exact s.records_noteIf _ (by decide) _ _

theorem records_lineComment : s.Records s.lineComment := by
  unfold lineComment
  extract_lets value t u
  have ht : s.Records t := records_of_eq rfl rfl
  have hu : s.Records u := ht.trans (t.records_push _)
  exact records_inspectComment (hu.trans (u.records_noteIf _ (by decide) _ _)) value rfl

/-- The state where a reading of several lines ends, at its goal or at the end of the source. -/
theorem records_closeComment (parts : List String) :
    (∀ t, s.closeComment parts = .error t → s.Records t) ∧
      ∀ text t, s.closeComment parts = .ok (text, t) → s.Records t := by
  fun_induction closeComment parts s with
  | case1 parts s i hi part =>
    refine ⟨fun t h => (by simp at h), fun text t h => ?_⟩
    obtain ⟨-, rfl⟩ := Prod.mk.inj (Except.ok.inj h)
    exact (s.records_noteNestedLast part).trans (records_advance _ _)
  | case2 parts s hi s' u hu ih =>
    -- The line is left and the search goes on in the next one.
    have hon : s.Records u := (s.records_noteNested s.rest).trans (records_of_nextLine? hu)
    exact ⟨fun t h => hon.trans (ih.1 t h), fun text t h => hon.trans (ih.2 text t h)⟩
  | case3 parts s hi s' hu =>
    refine ⟨fun t h => ?_, fun text t h => (by simp at h)⟩
    obtain rfl := Except.error.inj h
    exact s.records_noteNested s.rest

theorem records_blockComment :
    (∀ t, s.blockComment = .error t → s.Records t) ∧
      ∀ t, s.blockComment = .ok t → s.Records t := by
  unfold blockComment
  extract_lets opened opened'
  have hopened : s.Records opened' :=
    (s.records_advance 2).trans (opened.records_noteIf _ (by decide) _ _)
  obtain ⟨herror, hok⟩ := opened'.records_closeComment []
  split
  · next u hu =>
    refine ⟨fun t h => ?_, fun t h => (by simp at h)⟩
    obtain rfl := Except.error.inj h
    exact hopened.trans (herror _ hu)
  · next text u hu =>
    refine ⟨fun t h => (by simp at h), fun t h => ?_⟩
    obtain rfl := Except.ok.inj h
    exact records_inspectComment ((hopened.trans (hok _ _ hu)).trans (u.records_push _)) _ rfl

/-! ### Tokens -/

theorem records_fail (rule : Rule) (line column : Nat) (args : List String) :
    s.Records (s.fail rule line column args).state :=
  s.records_leaveLine

theorem records_failWith {halt : Halt} {offset : Nat}
    (h : ∀ f ∈ halt.findings, (s.surroundings offset).Owns f) :
    s.Records (s.failWith halt).state :=
  (s.records_noteAll h).trans (records_leaveLine _)

theorem records_finish : s.Records s.finish.state := by
  unfold finish
  split
  · exact s.records_fail _ _ _ _
  · exact s.records_leaveLine.trans (records_push _ _)

theorem records_identifier (n : Nat) : s.Records (s.identifier n) :=
  (s.records_advance n).trans (records_push _ _)

theorem records_number (lead : Nat) : s.Records (s.number lead).state := by
  have howned := Strand.owned_number (s.surroundings 0) s.rest lead
  unfold number
  split
  · next halt hhalt =>
    rw [hhalt] at howned
    exact s.records_failWith howned.2
  · next read hread =>
    rw [hread] at howned
    exact (s.records_noteAll howned).trans (records_pushNext _ _ _ _)

theorem records_string (quote : Char) : s.Records (s.string quote).state := by
  have howned := Strand.owned_quoted (s.surroundings 1) s.rest.tail quote
  unfold string
  split
  · next halt hhalt =>
    rw [hhalt] at howned
    exact s.records_failWith howned.2
  · next read hread =>
    rw [hread] at howned
    exact ((s.records_noteAll howned).trans (records_advance _ _)).trans (records_push _ _)

theorem records_regex (role : SlashRole) : s.Records (s.regex role).state := by
  unfold regex
  extract_lets u
  have howned := Strand.owned_regex (u.surroundings 1) u.rest.tail
  have hu : s.Records u := records_of_eq rfl rfl
  split
  · next halt hhalt =>
    rw [hhalt] at howned
    exact hu.trans (u.records_failWith howned.2)
  · next read missesFlag hread =>
    rw [hread] at howned
    extract_lets value t t'
    have ht : s.Records t' := (hu.trans (u.records_noteAll howned)).trans
      ((records_pushNext _ _ _ _).trans (t.records_noteIf _ (by decide) _ _))
    split
    · exact ht.trans (t'.records_emit
        ⟨Nat.le_refl _, Nat.le_refl _, show Rule.unexpectedA ≠ _ by decide, .inr ⟨rfl, rfl⟩⟩)
    · exact ht.trans (t'.records_note (by decide) _ _)
    · exact ht

theorem records_division : s.Records s.division := by
  unfold division
  split
  · exact (s.records_note (by decide) _ _).trans (records_pushNext _ _ _ _)
  · exact s.records_pushNext _ _ _

theorem records_backtick : s.Records s.backtick.state := by
  unfold backtick
  split
  · exact s.records_fail _ _ _ _
  · exact (s.records_pushNext _ _ _).trans (records_of_eq rfl rfl)

theorem records_punctuation (n : Nat) : s.Records (s.punctuation n).state := by
  unfold punctuation
  extract_lets value t
  have ht : s.Records t := s.records_pushNext _ _ _
  split
  · split
    · exact ht.trans (records_of_eq rfl rfl)
    · split
      · exact ht.trans (t.records_fail _ _ _ _)
      · exact ht
  · exact ht

theorem records_of_cut {s : State} {outcome : Step} (h : Cut s outcome) :
    s.Records outcome.state := by
  cases h with
  | word _ => exact s.records_identifier _
  | number _ => exact s.records_number _
  | string _ _ => exact s.records_string _
  | backtick _ => exact s.records_backtick
  | lineComment _ => exact s.records_lineComment
  | blockComment _ ht => exact s.records_blockComment.2 _ ht
  | unclosedComment _ ht => exact (s.records_blockComment.1 _ ht).trans (records_fail _ _ _ _ _)
  | division _ _ => exact s.records_division
  | regex _ _ => exact s.records_regex _
  | punctuation _ _ _ _ => exact s.records_punctuation _
  | unexpected _ => exact s.records_fail _ _ _ _

/-! ### Templates -/

theorem records_templateText (text : List Char) :
    (∀ t, s.templateText text = .error t → s.Records t) ∧
      ∀ text' stop t, s.templateText text = .ok (text', stop, t) → s.Records t := by
  fun_induction templateText text s with
  | case1 text s read hread u hu ih =>
    have hon : s.Records u := records_of_nextLine? hu
    exact ⟨fun t h => hon.trans (ih.1 t h),
      fun text' stop t h => hon.trans (ih.2 text' stop t h)⟩
  | case2 text s read hread hu =>
    refine ⟨fun t h => ?_, fun text' stop t h => (by simp at h)⟩
    obtain rfl := Except.error.inj h
    exact .refl s
  | case3 text s read hread =>
    refine ⟨fun t h => (by simp at h), fun text' stop t h => ?_⟩
    simp only [Except.ok.injEq, Prod.mk.injEq] at h
    obtain ⟨-, -, rfl⟩ := h
    exact s.records_advance _

theorem records_templatePart (opening : Position) :
    s.Records (s.templatePart opening).state := by
  obtain ⟨herror, hok⟩ := s.records_templateText []
  unfold templatePart
  split
  · next t ht => exact (herror t ht).trans (t.records_fail _ _ _ _)
  · next text stop t ht =>
    extract_lets part u
    have hu : s.Records u := (hok text stop t ht).trans (t.records_push _)
    split
    · exact (hu.trans (u.records_pushNext _ _ _)).trans (records_of_eq rfl rfl)
    · exact (hu.trans (u.records_pushNext _ _ _)).trans (records_of_eq rfl rfl)

/-! ### Steps -/

/-- **What a step records**, whatever its outcome, concerns the lines it goes over. -/
theorem records_step : s.Records s.step.state := by
  generalize s.step = outcome, s.action_of_step = haction
  cases haction with
  | part _ => exact s.records_templatePart _
  | line _ _ ht => exact records_of_nextLine? ht
  | finish _ _ _ => exact s.records_finish
  | blanks _ _ _ => exact s.records_advance _
  | token _ _ _ hcut =>
    have hroused : s.Records s.roused := records_of_eq rfl rfl
    exact hroused.trans (records_of_cut hcut)

/-- **Events are never taken back**, whatever the outcome of a step. -/
theorem grows_step : s.Grows s.step.state := s.records_step.grows

/-! ### Faults -/

/-- **The place of a fault**: the line on which its step begins, or the opening of a template that
is not closed.  Its rule is a fatal one. -/
structure PlacesFault (s : State) (fault : Finding) : Prop where
  fatal : fault.rule.Fatal
  line : fault.line = s.line ∨ fault.rule = .unclosedMega ∧
    ∃ opening, s.mode.opening? = some opening ∧ fault.line = opening.line

variable {s} {t : State} {fault : Finding}

/-- A step that fails at a finding on its line. -/
theorem PlacesFault.of_fail {u : State} {rule : Rule} {line column : Nat} {args : List String}
    (h : u.fail rule line column args = .failed t fault) (hrule : rule.Fatal)
    (hline : line = s.line) : s.PlacesFault fault := by
  obtain ⟨-, rfl⟩ := Step.failed.inj h
  exact ⟨hrule, .inl hline⟩

/-- A step that fails at a template that is not closed. -/
theorem PlacesFault.of_unclosed {u : State} {opening : Position} {column : Nat}
    (h : u.fail .unclosedMega opening.line column = .failed t fault)
    (hmode : s.mode.opening? = some opening) : s.PlacesFault fault := by
  obtain ⟨-, rfl⟩ := Step.failed.inj h
  exact ⟨show Rule.Fatal .unclosedMega by decide, .inr ⟨rfl, opening, hmode, rfl⟩⟩

/-- A step that fails at the fault of a literal. -/
theorem PlacesFault.of_failWith {u : State} {halt : Halt} {offset : Nat}
    (h : u.failWith halt = .failed t fault) (howned : (s.surroundings offset).StopsAt halt.fault) :
    s.PlacesFault fault := by
  obtain ⟨-, rfl⟩ := Step.failed.inj h
  exact ⟨howned.2, .inl howned.1⟩

theorem placesFault_of_cut {outcome : Step} (hcut : Cut s outcome)
    (h : outcome = .failed t fault) : s.PlacesFault fault := by
  cases hcut with
  | word _ => cases h
  | number _ =>
    have howned := Strand.owned_number (s.surroundings 0) s.rest (numberLength s.rest)
    unfold State.number at h
    split at h
    · next halt hhalt =>
      rw [hhalt] at howned
      exact .of_failWith h howned.1
    · cases h
  | @string quote tail _ _ =>
    have howned := Strand.owned_quoted (s.surroundings 1) s.rest.tail quote
    unfold State.string at h
    split at h
    · next halt hhalt =>
      rw [hhalt] at howned
      exact .of_failWith h howned.1
    · cases h
  | backtick _ =>
    unfold State.backtick at h
    split at h
    · exact .of_fail h (by decide) rfl
    · cases h
  | lineComment _ => cases h
  | blockComment _ _ => cases h
  | unclosedComment _ _ => exact .of_fail h (by decide) rfl
  | division _ _ => cases h
  | regex _ _ =>
    unfold State.regex at h
    extract_lets u at h
    have howned := Strand.owned_regex (u.surroundings 1) u.rest.tail
    split at h
    · next halt hhalt =>
      rw [hhalt] at howned
      exact .of_failWith h howned.1
    · split at h <;> cases h
  | punctuation _ _ _ _ =>
    unfold State.punctuation at h
    extract_lets value u at h
    have hline : u.line = s.line := congrArg Track.line (track_push (s.advance _) _)
    split at h
    · split at h
      · cases h
      · split at h
        · exact .of_fail h (by decide) hline
        · cases h
    · cases h
  | unexpected _ => exact .of_fail h (by decide) rfl

/-- **Where a fault stands.** -/
theorem placesFault_of_step (h : s.step = .failed t fault) : s.PlacesFault fault := by
  have haction := s.action_of_step
  generalize s.step = outcome at haction h
  cases haction with
  | @part opening hmode =>
    have hopening : s.mode.opening? = some opening := by rw [hmode, Mode.opening?]
    unfold templatePart at h
    split at h
    · exact .of_unclosed h hopening
    · extract_lets at h
      split at h <;> cases h
  | line _ _ _ => cases h
  | finish _ _ _ =>
    unfold finish at h
    split at h
    · next opening hopening => exact .of_unclosed h hopening
    · cases h
  | blanks _ _ _ => cases h
  | token _ _ _ hcut =>
    obtain ⟨hfatal, hline⟩ := placesFault_of_cut (s := s.roused) hcut h
    exact ⟨hfatal, hline⟩

end State

end ScriptLint
