import ScriptLint.Proofs.ActiveDirectives
import ScriptLint.Proofs.Knobs
import ScriptLint.Proofs.Regions

/-!
# Findings on one rule

What a stretch of a scan **finds** on one rule, and what is reported for it. The findings of a
state on a rule are a view of its events, with one equation for each operation: most leave it as
it is, whatever the rule, and the others do for every rule but those that they check. As long as
nothing sets the level of the rule, what is reported are these findings, each decided alone.

## Main definitions

* `State.found` — the findings of a state on a rule
* `Rule.onNeighbours`, `Rule.onBlanks`, `Rule.onDirectives` — the rules that tokens, lines and
  comments are checked against
* `Account.onRule` — the diagnostics on a rule
* `State.ReportsOn` — what a step reports on a rule

## Main statements

* `Account.onRule_recordAll` — the diagnostics that events make on a rule
* `Account.onRule_upTo` — what a stretch of a scan reports on a rule
* `verify_onRule` — what a pass that completes reports on a rule that no directive names
-/

namespace ScriptLint

/-! ### Findings of a state -/

/-- The finding that an event is, if it is one on a rule. -/
def Event.findingOn? (rule : Rule) : Event → Option Finding
  | found finding => if finding.rule = rule then some finding else none
  | _ => none

theorem Event.rule_of_findingOn? {rule : Rule} {event : Event} {finding : Finding}
    (h : event.findingOn? rule = some finding) : finding.rule = rule := by
  unfold findingOn? at h
  split at h
  · split at h
    · next hrule => exact Option.some.inj h ▸ hrule
    · cases h
  · cases h

namespace Rule

/-- The rules on what stands before a token. -/
def onNeighbours : List Rule := [.noIrregularWhitespace, .noFloatingDecimal]

/-- The rules on the tabs and blanks of a line. -/
def onBlanks : List Rule := [.noTabs, .noIrregularWhitespace]

/-- The rules on what a comment says as a directive. -/
def onDirectives : List Rule := [.badOptionA, .badDirectiveA, .misplacedDirectiveA]

end Rule

namespace State

/-- **The findings** of a state on a rule, newest first. -/
def found (rule : Rule) (s : State) : List Finding :=
  s.events.filterMap (Event.findingOn? rule)

variable {rule : Rule} (s : State)

/-! ### What is left as it is -/

theorem found_emit_of_none {event : Event} (h : event.findingOn? rule = none) :
    (s.emit event).found rule = s.found rule :=
  List.filterMap_cons_none h

theorem found_note_of_ne {other : Rule} (h : rule ≠ other) (column : Nat) (args : List String) :
    (s.note other column args).found rule = s.found rule :=
  s.found_emit_of_none (if_neg h.symm)

theorem found_noteIf_of_ne {other : Rule} (h : rule ≠ other) (p : Bool) (column : Nat)
    (args : List String) : (s.noteIf p other column args).found rule = s.found rule := by
  unfold noteIf
  split
  · exact s.found_note_of_ne h column args
  · rfl

@[simp] theorem found_advance (n : Nat) : (s.advance n).found rule = s.found rule := rfl

@[simp] theorem found_leaveLine : s.leaveLine.found rule = s.found rule := by
  unfold leaveLine
  split
  · rfl
  · exact s.found_emit_of_none rfl

theorem found_checkNeighbours (h : rule ∉ Rule.onNeighbours) (t : Token) :
    (s.checkNeighbours t).found rule = s.found rule := by
  have hblank : rule ≠ .noIrregularWhitespace := fun heq => h (heq ▸ by decide)
  have hdot : rule ≠ .noFloatingDecimal := fun heq => h (heq ▸ by decide)
  unfold checkNeighbours
  split
  · rfl
  · exact (found_noteIf_of_ne _ hdot _ _ _).trans (s.found_noteIf_of_ne hblank _ _ _)

theorem found_push (h : rule ∉ Rule.onNeighbours) (t : Token) :
    (s.push t).found rule = s.found rule :=
  s.found_checkNeighbours h t

theorem found_pushNext (h : rule ∉ Rule.onNeighbours) (n : Nat) (kind : TokenKind)
    (value : String) : (s.pushNext n kind value).found rule = s.found rule :=
  (s.advance n).found_push h _

theorem found_enter (h : rule ∉ Rule.onBlanks) (line : Line) (below : List Line) :
    (s.enter line below).found rule = s.found rule := by
  have htab : rule ≠ .noTabs := fun heq => h (heq ▸ by decide)
  have hblank : rule ≠ .noIrregularWhitespace := fun heq => h (heq ▸ by decide)
  unfold enter
  extract_lets text t
  split
  · rfl
  · exact (found_noteIf_of_ne _ hblank _ _ _).trans (t.found_noteIf_of_ne htab _ _ _)

theorem found_of_nextLine? (h : rule ∉ Rule.onBlanks) {t : State} (ht : s.nextLine? = some t) :
    t.found rule = s.found rule := by
  unfold nextLine? at ht
  split at ht
  · cases ht
  · obtain rfl := Option.some.inj ht
    rw [found_enter _ h, found_leaveLine]

/-- What a directive says is found on the rules for directives alone. -/
theorem findingOn?_of_directive (h : rule ∉ Rule.onDirectives) (directive : Directive)
    (body : List Char) (line column : Nat) :
    ∀ event ∈ directive.events body line column, event.findingOn? rule = none := by
  have hoption : rule ≠ .badOptionA := fun heq => h (heq ▸ by decide)
  have hbody : rule ≠ .badDirectiveA := fun heq => h (heq ▸ by decide)
  have hitem (item : DirectiveItem) :
      ∀ event ∈ item.events directive line column, event.findingOn? rule = none := by
    intro event hevent
    unfold DirectiveItem.events at hevent
    split at hevent
    · rcases List.mem_append.mp hevent with hevent | hevent
      · split at hevent
        · obtain rfl := List.mem_singleton.mp hevent
          exact if_neg hoption.symm
        · cases hevent
      · obtain rfl := List.mem_singleton.mp hevent
        rfl
    · obtain rfl := List.mem_singleton.mp hevent
      rfl
    · extract_lets on at hevent
      split at hevent
      · obtain rfl := List.mem_singleton.mp hevent
        rfl
      · obtain rfl := List.mem_singleton.mp hevent
        rfl
      · obtain rfl := List.mem_singleton.mp hevent
        exact if_neg hoption.symm
  intro event hevent
  unfold Directive.events at hevent
  rcases List.mem_append.mp hevent with hevent | hevent
  · obtain ⟨item, -, hevent⟩ := List.mem_flatMap.mp hevent
    exact hitem item event hevent
  · split at hevent
    · cases hevent
    · obtain rfl := List.mem_singleton.mp hevent
      exact if_neg hbody.symm

theorem found_inspectComment (h : rule ∉ Rule.onDirectives) (value : List Char)
    (start : Position) : (s.inspectComment value start).found rule = s.found rule := by
  have hmisplaced : rule ≠ .misplacedDirectiveA := fun heq => h (heq ▸ by decide)
  unfold inspectComment
  extract_lets line column u
  have hu : u.found rule = s.found rule := by
    simp only [u]
    split
    · exact s.found_emit_of_none rfl
    · rfl
  split
  · exact hu
  · next directive body _ =>
    split
    · have hnone : (directive.events body line column).reverse.filterMap
          (Event.findingOn? rule) = [] := by
        rw [List.filterMap_eq_nil_iff]
        intro event hevent
        exact findingOn?_of_directive h directive body line column event
          (List.mem_reverse.mp hevent)
      rw [← hu]
      exact List.filterMap_append.trans (congrArg (· ++ u.found rule) hnone)
    · rw [← hu]
      exact u.found_emit_of_none (if_neg hmisplaced.symm)

/-- What a comment says is recorded on top. -/
theorem grows_inspectComment (value : List Char) (start : Position) :
    s.Grows (s.inspectComment value start) := by
  unfold inspectComment
  extract_lets line column u
  have hu : s.Grows u := by
    simp only [u]
    split
    · exact List.suffix_cons _ _
    · exact List.suffix_rfl
  split
  · exact hu
  · split
    · exact hu.trans (List.suffix_append _ _)
    · exact hu.trans (List.suffix_cons _ _)

/-! ### What is found -/

theorem found_note (column : Nat) (args : List String) :
    (s.note rule column args).found rule =
      { rule, line := s.line, column, args } :: s.found rule :=
  List.filterMap_cons_some (if_pos rfl)

/-- Of the findings of a literal those on the rule count. -/
theorem found_noteAll (findings : List Finding) :
    (s.noteAll findings).found rule = findings.filter (·.rule = rule) ++ s.found rule := by
  have hfilter : (findings.map Event.found).filterMap (Event.findingOn? rule) =
      findings.filter (·.rule = rule) := by
    rw [List.filterMap_map, ← List.filterMap_eq_filter]
    refine List.filterMap_congr fun finding _ => ?_
    simp [Event.findingOn?, Option.guard]
  exact List.filterMap_append.trans (congrArg (· ++ _) hfilter)

/-- The findings of a later state are those since an earlier one and those up to there. -/
theorem Grows.found_eq {s t : State} (h : s.Grows t) (rule : Rule) :
    t.found rule =
      ((s.eventsSince t).filterMap (Event.findingOn? rule)).reverse ++ s.found rule := by
  have hevents : t.events = (s.eventsSince t).reverse ++ s.events := by
    rw [← List.reverse_inj, ← h.events_append]
    simp
  rw [found, hevents, List.filterMap_append, List.filterMap_reverse]
  rfl

end State

/-! ### Diagnostics on a rule -/

/-- What is set to a warning or an error has a severity. -/
theorem Level.exists_severity {level : Level} (h : level ≠ .off) :
    ∃ severity, level.severity? = some severity := by
  cases level with
  | off => exact absurd rfl h
  | warn => exact ⟨_, rfl⟩
  | error => exact ⟨_, rfl⟩

namespace Account

variable {source : Source} {settings : Settings} {rule : Rule} {a : Account}

/-- The diagnostics on a rule, newest first. -/
def onRule (rule : Rule) (a : Account) : List Diagnostic := a.diagnostics.filter (·.rule = rule)

/-- An event makes a diagnostic on a rule if it is a finding on it. -/
theorem onRule_record (hlines : rule ≠ .noLongLines) (htodo : rule ≠ .todoComment)
    (event : Event) :
    (a.record source settings event).onRule rule =
      ((event.findingOn? rule).bind (a.reported? source settings)).toList ++ a.onRule rule := by
  have hother (h : event.rule? ≠ some rule) :
      ((a.diagnosticOf? source settings event).toList).filter (·.rule = rule) = [] := by
    refine List.filter_eq_nil_iff.mpr fun d hd => ?_
    obtain ⟨hrule, -⟩ := rule_of_diagnosticOf? (Option.mem_toList.mp hd)
    simp only [decide_eq_true_eq]
    rintro rfl
    exact h hrule
  rw [onRule, diagnostics_record, List.filter_append, ← onRule]
  congr 1
  cases event with
  | found finding =>
    by_cases hrule : finding.rule = rule
    · rw [Event.findingOn?, if_pos hrule, Option.bind_some, diagnosticOf?]
      refine List.filter_eq_self.mpr fun d hd => ?_
      obtain ⟨hd, -⟩ := of_reported? (Option.mem_toList.mp hd)
      exact decide_eq_true (hd.trans hrule)
    · rw [hother (by simpa [Event.rule?] using hrule), Event.findingOn?, if_neg hrule]
      rfl
  | lineLeft line => exact hother (by simpa [Event.rule?] using hlines.symm)
  | todo line column => exact hother (by simpa [Event.rule?] using htodo.symm)
  | levelSet rule level => rfl
  | flagSet flag on => rfl
  | globalDeclared name => rfl
  | propertyNamed name => rfl

/-- Whether a finding is reported hangs on what is set for its rule. -/
theorem reported?_eq_of_level? {a b : Account} {finding : Finding}
    (h : a.level? finding.rule = b.level? finding.rule) :
    a.reported? source settings finding = b.reported? source settings finding :=
  reported?_congr (by unfold Account.level; rw [h])

/-- **The diagnostics on a rule** that events make are those of the findings on it, each decided
alone, as long as nothing sets its level. -/
theorem onRule_recordAll (hlines : rule ≠ .noLongLines) (htodo : rule ≠ .todoComment)
    {events : List Event} (hevents : ∀ level, .levelSet rule level ∉ events) :
    (a.recordAll source settings events).onRule rule =
      ((events.filterMap (Event.findingOn? rule)).filterMap
        (a.reported? source settings)).reverse ++ a.onRule rule := by
  induction events generalizing a with
  | nil => rfl
  | cons event events ih =>
    have hkeep : (a.record source settings event).level? rule = a.level? rule :=
      level?_record (fun level h => hevents level (h ▸ List.mem_cons_self)) a
    have hrest := ih (a := a.record source settings event) fun level h =>
      hevents level (List.mem_cons_of_mem _ h)
    have hsame : (events.filterMap (Event.findingOn? rule)).filterMap
          ((a.record source settings event).reported? source settings) =
        (events.filterMap (Event.findingOn? rule)).filterMap (a.reported? source settings) := by
      refine List.filterMap_congr fun finding hfinding => reported?_eq_of_level? ?_
      obtain ⟨event, -, hevent⟩ := List.mem_filterMap.mp hfinding
      rw [Event.rule_of_findingOn? hevent]
      exact hkeep
    refine hrest.trans ?_
    rw [hsame, onRule_record hlines htodo, ← List.append_assoc]
    congr 1
    cases hfinding : event.findingOn? rule with
    | none => rw [List.filterMap_cons_none hfinding]; simp
    | some finding =>
      rw [List.filterMap_cons_some hfinding, List.filterMap_cons, Option.bind_some]
      cases a.reported? source settings finding with
      | none => exact List.append_nil _
      | some d => exact List.reverse_cons.symm

/-- Events without findings on a rule make no diagnostic on it, whatever they set. -/
theorem onRule_recordAll_of_silent (hlines : rule ≠ .noLongLines) (htodo : rule ≠ .todoComment)
    {events : List Event} (hsilent : ∀ event ∈ events, event.findingOn? rule = none) :
    (a.recordAll source settings events).onRule rule = a.onRule rule := by
  induction events generalizing a with
  | nil => rfl
  | cons event events ih =>
    obtain ⟨hevent, hevents⟩ := List.forall_mem_cons.mp hsilent
    refine (ih hevents).trans ?_
    rw [onRule_record hlines htodo, hevent]
    rfl

/-- **What a stretch of a scan reports on a rule**: what it finds on it, each finding decided
alone, if it changes nothing that is set. -/
theorem onRule_upTo {s t : State} {new : List Finding} (hlines : rule ≠ .noLongLines)
    (htodo : rule ≠ .todoComment) (hgrows : s.Grows t)
    (hkeep : t.ledger.changes = s.ledger.changes) (hfound : t.found rule = new ++ s.found rule) :
    (upTo source settings t).onRule rule =
      new.filterMap ((upTo source settings s).reported? source settings) ++
        (upTo source settings s).onRule rule := by
  have hnew : ((s.eventsSince t).filterMap (Event.findingOn? rule)).reverse = new :=
    List.append_cancel_right ((hgrows.found_eq rule).symm.trans hfound)
  have hsince : (s.eventsSince t).filter Event.isChange = [] := by
    have hsplit := congrArg (List.filter Event.isChange) hgrows.events_append
    rw [List.filter_append, List.filter_reverse, List.filter_reverse] at hsplit
    exact List.append_right_eq_self.mp
      (hsplit.trans (congrArg List.reverse hkeep))
  have hevents (level : Level) : .levelSet rule level ∉ s.eventsSince t := fun h =>
    absurd (List.filter_eq_nil_iff.mp hsince _ h) (by simp [Event.isChange])
  rw [upTo_eq_recordAll source settings hgrows, onRule_recordAll hlines htodo hevents, ← hnew,
    List.filterMap_reverse]

/-- A stretch of a scan that finds nothing on a rule reports nothing on it. -/
theorem onRule_upTo_of_silent {s t : State} (hlines : rule ≠ .noLongLines)
    (htodo : rule ≠ .todoComment) (hgrows : s.Grows t) (hfound : t.found rule = s.found rule) :
    (upTo source settings t).onRule rule = (upTo source settings s).onRule rule := by
  have hnone : (s.eventsSince t).filterMap (Event.findingOn? rule) = [] := by
    rw [hgrows.found_eq rule, List.append_left_eq_self, List.reverse_eq_nil_iff] at hfound
    exact hfound
  rw [upTo_eq_recordAll source settings hgrows]
  exact onRule_recordAll_of_silent hlines htodo (List.filterMap_eq_nil_iff.mp hnone)

/-- What is reported of a finding on a line of the source if the configuration alone sets the level
of its rule. -/
theorem reported?_of_set {level : Level} {severity : Severity} (finding : Finding)
    (hset : settings.level? finding.rule = some level) (hlevel : level.severity? = some severity)
    (hline : source.clampLine finding.line = finding.line) :
    ({ globals := settings.globals } : Account).reported? source settings finding =
      if source.isQuiet finding.line then none
      else some (Account.diagnostic source finding severity) := by
  have hunset (unset : Level) : ({ globals := settings.globals } : Account).level settings
      finding.rule unset = level := by
    simp [Account.level, hset]
  simp only [Account.reported?, hunset, hlevel, hline]

end Account

/-! ### Passes -/

/-- The issues of region markers are findings on their own rules alone. -/
theorem filterMap_issueEvents {rule : Rule} (hopened : rule ≠ .unopenedEnable)
    (hunclosed : rule ≠ .unclosedDisable) (text : String) :
    (Source.ofString text).issueEvents.filterMap (Event.findingOn? rule) = [] := by
  refine List.filterMap_eq_nil_iff.mpr fun event hevent => ?_
  obtain ⟨issue, hissue, rfl⟩ := List.mem_map.mp hevent
  refine if_neg fun hrule => ?_
  rcases rule_of_mem_issues text hissue with heq | heq
  · exact hopened (hrule.symm.trans heq)
  · exact hunclosed (hrule.symm.trans heq)

/-- **What a completed pass reports on a rule**: what its scan finds on it, each finding decided by
the configuration, if no directive names the rule. -/
theorem verify_onRule {settings : Settings} {text : String} {rule : Rule}
    (hlines : rule ≠ .noLongLines) (htodo : rule ≠ .todoComment)
    (habort : (Pass.run settings text).abort = none)
    (hunnamed : ∀ t ∈ (Pass.run settings text).tokens, ¬ t.NamesRule rule) :
    (verify settings text).filter (·.rule = rule) =
      ((scan (.ofString text)).events.filterMap (Event.findingOn? rule)).filterMap
        (({ globals := settings.globals } : Account).reported? (.ofString text) settings) := by
  have hall : (Account.atEnd settings text).onRule rule = _ :=
    Account.onRule_recordAll hlines htodo (levelSet_not_mem_events hunnamed)
  rw [verify_eq, fault_eq_none_of_abort habort, Account.faultDiagnostic?, Option.bind_none,
    Option.toList_none, List.append_nil, List.filter_reverse]
  refine (congrArg List.reverse hall).trans ?_
  rw [List.reverse_append, List.reverse_reverse]
  rfl

/-! ### Steps -/

/-- **What a step reports on a rule**: these findings, in order, each unless its line is quiet or
the rule is off when the step begins. -/
def State.ReportsOn (source : Source) (settings : Settings) (s : State) (rule : Rule)
    (findings : List Finding) : Prop :=
  (Account.upTo source settings s.step.state).onRule rule =
    (findings.filterMap ((Account.upTo source settings s).reported? source settings)).reverse ++
      (Account.upTo source settings s).onRule rule

/-- A step reports what it finds up to a point, if it changes nothing that is set before it and
finds nothing behind it. -/
theorem State.reportsOn_of_found {source : Source} {settings : Settings} {rule : Rule}
    (hlines : rule ≠ .noLongLines) (htodo : rule ≠ .todoComment) {s t : State}
    {findings : List Finding} (hfirst : s.Grows t) (hlast : t.Grows s.step.state)
    (hkeep : t.ledger.changes = s.ledger.changes)
    (hfound : t.found rule = findings.reverse ++ s.found rule)
    (hsilent : s.step.state.found rule = t.found rule) :
    s.ReportsOn source settings rule findings := by
  rw [ReportsOn, Account.onRule_upTo_of_silent hlines htodo hlast hsilent,
    Account.onRule_upTo hlines htodo hfirst hkeep hfound, List.filterMap_reverse]

end ScriptLint
