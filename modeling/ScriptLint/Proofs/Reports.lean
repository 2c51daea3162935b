import ScriptLint.Lexer
import ScriptLint.Proofs.Places

/-!
# Reports point into the source

A pass hears the events of its scan one by one, and then of the fault if one stopped the
scan.  An event makes one diagnostic at most, and which one it makes hangs on what is set
at that moment; so what is said of all diagnostics of a pass is said of one event.  The
fault is the only thing that is reported on a quiet line, and it is reported last.

## Main definitions

* `Event.rule?` — the rule that an event may report on
* `Account.diagnosticOf?` — the diagnostic that an event makes
* `Account.atEnd` — the account of a pass when its scan has ended, before the fault
* `Account.faultDiagnostic?` — the diagnostic that the fault makes
* `Source.Shows` — a place that a diagnostic may have
* `WellPlaced` — where the diagnostics of a pass stand

## Main statements

* `Account.diagnostics_record` — an event adds its diagnostic and no other
* `verify_eq` — the diagnostics of the events, and that of the fault behind them
* `diagnostics_well_placed` — every pass is well placed
-/

namespace ScriptLint

/-! ### What an event reports -/

/-- The rule that an event may report on. -/
def Event.rule? : Event → Option Rule
  | found finding => some finding.rule
  | lineLeft _ => some .noLongLines
  | todo _ _ => some .todoComment
  | levelSet _ _ | flagSet _ _ | globalDeclared _ | propertyNamed _ => none

namespace Account

variable (source : Source) (settings : Settings)

/-- The diagnostic of a finding: none if its rule is off or its line is quiet. -/
def reported? (a : Account) (finding : Finding) : Option Diagnostic :=
  match (a.level settings finding.rule finding.unset).severity? with
  | none => none
  | some severity =>
    if source.isQuiet (source.clampLine finding.line) then none
    else some (diagnostic source finding severity)

/-- **The diagnostic of an event**, if it makes one. -/
def diagnosticOf? (a : Account) : Event → Option Diagnostic
  | .found finding => a.reported? source settings finding
  | .lineLeft line =>
    let limit := settings.maxLineLength.toNat
    if source.lengthAt line > limit then
      a.reported? source settings
        { rule := .noLongLines, line, column := limit, args := [toString limit] }
    else none
  | .todo line column =>
    if a.flag settings .devel then none
    else a.reported? source settings { rule := .todoComment, line, column }
  | _ => none

/-- The diagnostic of the fault that stopped a scan, if one did and its rule is not off. -/
def faultDiagnostic? (a : Account) (fault : Option Finding) : Option Diagnostic :=
  fault.bind fun fault =>
    if a.level settings fault.rule .error = .off then none
    else some (diagnostic source fault .error)

theorem diagnostics_report (a : Account) (finding : Finding) :
    (a.report source settings finding).diagnostics =
      (a.reported? source settings finding).toList ++ a.diagnostics := by
  cases hlevel : (a.level settings finding.rule finding.unset).severity? with
  | none => simp [report, reported?, hlevel]
  | some severity =>
    by_cases hquiet : source.isQuiet (source.clampLine finding.line) = true
    · simp [report, reported?, hlevel, hquiet]
    · simp [report, reported?, hlevel, hquiet, add]

/-- **An event adds its diagnostic** and no other. -/
theorem diagnostics_record (a : Account) (event : Event) :
    (a.record source settings event).diagnostics =
      (a.diagnosticOf? source settings event).toList ++ a.diagnostics := by
  cases event with
  | found finding => exact a.diagnostics_report source settings finding
  | lineLeft line =>
    simp only [record, diagnosticOf?]
    split
    · exact a.diagnostics_report source settings _
    · rfl
  | todo line column =>
    simp only [record, diagnosticOf?]
    split
    · rfl
    · exact a.diagnostics_report source settings _
  | levelSet rule level => rfl
  | flagSet flag on => rfl
  | globalDeclared name => rfl
  | propertyNamed name => rfl

theorem diagnostics_reportFault (a : Account) (fault : Finding) :
    (a.reportFault source settings fault).diagnostics =
      (a.faultDiagnostic? source settings (some fault)).toList ++ a.diagnostics := by
  simp only [reportFault, faultDiagnostic?, Option.bind_some]
  split
  · rfl
  · rfl

variable {source settings} {a : Account} {d : Diagnostic}

/-- The diagnostic of a finding has its rule, at the severity of the level of the rule, and is not
on a quiet line. -/
theorem of_reported? {finding : Finding} (h : a.reported? source settings finding = some d) :
    d.rule = finding.rule ∧
      (a.level settings finding.rule finding.unset).severity? = some d.severity ∧
      source.isQuiet (source.clampLine finding.line) = false ∧
      d = diagnostic source finding d.severity := by
  unfold reported? at h
  split at h
  · cases h
  · next severity hlevel =>
    split at h
    · cases h
    · next hquiet =>
      obtain rfl := Option.some.inj h
      exact ⟨rfl, hlevel, Bool.eq_false_of_not_eq_true hquiet, rfl⟩

/-- The diagnostic of an event is that of a finding on its rule. -/
theorem of_diagnosticOf? {event : Event} (h : a.diagnosticOf? source settings event = some d) :
    ∃ finding : Finding, event.rule? = some finding.rule ∧
      a.reported? source settings finding = some d := by
  cases event with
  | found finding => exact ⟨finding, rfl, h⟩
  | lineLeft line =>
    simp only [diagnosticOf?] at h
    split at h
    · exact ⟨_, rfl, h⟩
    · cases h
  | todo line column =>
    simp only [diagnosticOf?] at h
    split at h
    · cases h
    · exact ⟨_, rfl, h⟩
  | levelSet rule level => cases h
  | flagSet flag on => cases h
  | globalDeclared name => cases h
  | propertyNamed name => cases h

/-- **Where a diagnostic comes from**: it was there before, or one of the events made it. -/
theorem of_mem_diagnostics_recordAll {events : List Event}
    (h : d ∈ (a.recordAll source settings events).diagnostics) :
    d ∈ a.diagnostics ∨
      ∃ event ∈ events, ∃ b : Account, b.diagnosticOf? source settings event = some d := by
  induction events generalizing a with
  | nil => exact .inl h
  | cons event events ih =>
    rcases ih h with hnow | ⟨later, hlater, b, hb⟩
    · rw [diagnostics_record, List.mem_append, Option.mem_toList] at hnow
      rcases hnow with hnew | hold
      · exact .inr ⟨event, List.mem_cons_self, a, hnew⟩
      · exact .inl hold
    · exact .inr ⟨later, List.mem_cons_of_mem event hlater, b, hb⟩

/-- What holds of the diagnostic of every event holds of all diagnostics of the events. -/
theorem forall_diagnostics_recordAll {P : Diagnostic → Prop}
    (hevent : ∀ (a : Account) event d, a.diagnosticOf? source settings event = some d → P d)
    (ha : ∀ d ∈ a.diagnostics, P d) (events : List Event) :
    ∀ d ∈ (a.recordAll source settings events).diagnostics, P d := by
  intro d hd
  rcases of_mem_diagnostics_recordAll hd with hold | ⟨event, -, b, hb⟩
  · exact ha d hold
  · exact hevent b event d hb

end Account

/-! ### The account at the end of a scan -/

/-- **The account at the end of a scan**: of all its events, before its fault is reported. -/
def Account.atEnd (settings : Settings) (text : String) : Account :=
  ({ globals := settings.globals } : Account).recordAll (.ofString text) settings
    (scan (.ofString text)).events

/-- There is no order of one thing. -/
theorem reverse_toList {α : Type} (x : Option α) : x.toList.reverse = x.toList := by
  cases x <;> rfl

/-- **The diagnostics of a pass**: those of the events in order, and behind them that of the
fault. -/
theorem verify_eq (settings : Settings) (text : String) :
    verify settings text = (Account.atEnd settings text).diagnostics.reverse ++
      ((Account.atEnd settings text).faultDiagnostic? (.ofString text) settings
        (scan (.ofString text)).fault).toList := by
  rw [verify_eq_run]
  show (Account.ofScan (.ofString text) settings (scan (.ofString text))).diagnostics.reverse = _
  unfold Account.ofScan
  cases hfault : (scan (.ofString text)).fault with
  | none => simp [Account.atEnd, Account.faultDiagnostic?]
  | some fault =>
    simp only [Account.diagnostics_reportFault, List.reverse_append, reverse_toList, Account.atEnd]

/-- Every diagnostic of a pass is that of a finding. -/
theorem exists_finding_of_mem_verify {settings : Settings} {text : String} {d : Diagnostic}
    (h : d ∈ verify settings text) :
    ∃ finding severity, d = Account.diagnostic (.ofString text) finding severity := by
  rw [verify_eq, List.mem_append, List.mem_reverse, Option.mem_toList] at h
  rcases h with hevent | hfault
  · rcases Account.of_mem_diagnostics_recordAll hevent with hnone | ⟨event, -, a, ha⟩
    · cases hnone
    · obtain ⟨finding, -, hfinding⟩ := Account.of_diagnosticOf? ha
      obtain ⟨-, -, -, hd⟩ := Account.of_reported? hfinding
      exact ⟨finding, d.severity, hd⟩
  · obtain ⟨fault, -, hfault⟩ := Option.bind_eq_some_iff.mp hfault
    split at hfault
    · cases hfault
    · exact ⟨fault, .error, (Option.some.inj hfault).symm⟩

/-- What is not among the diagnostics of the events is that of the fault, which is the last. -/
theorem last_of_verify_eq {settings : Settings} {text : String} {front back : List Diagnostic}
    {d : Diagnostic} (hsplit : verify settings text = front ++ d :: back)
    (hd : d ∉ (Account.atEnd settings text).diagnostics) :
    back = [] ∧ (Account.atEnd settings text).faultDiagnostic? (.ofString text) settings
      (scan (.ofString text)).fault = some d := by
  rw [verify_eq] at hsplit
  have hfound : d ∉ (Account.atEnd settings text).diagnostics.reverse := by
    rwa [List.mem_reverse]
  cases hfault : (Account.atEnd settings text).faultDiagnostic? (.ofString text) settings
      (scan (.ofString text)).fault with
  | none =>
    rw [hfault, Option.toList_none, List.append_nil] at hsplit
    refine absurd ?_ hfound
    rw [hsplit]
    simp
  | some e =>
    rw [hfault, Option.toList_some] at hsplit
    rcases List.eq_nil_or_concat back with rfl | ⟨back, y, rfl⟩
    · obtain ⟨-, hlast⟩ := List.append_inj' hsplit rfl
      exact ⟨rfl, congrArg some (List.cons.inj hlast).1⟩
    · -- Otherwise something else is the last, and the diagnostic is before it.
      have hassoc : front ++ d :: (back ++ [y]) = (front ++ d :: back) ++ [y] := by simp
      rw [List.concat_eq_append, hassoc] at hsplit
      obtain ⟨hevents, -⟩ := List.append_inj' hsplit rfl
      refine absurd ?_ hfound
      rw [hevents]
      simp

/-! ### Places to show -/

/-- **A place to show**: a line of the source and a column of the line, from 1; an empty line has
the column 1. -/
structure Source.Shows (source : Source) (line column : Nat) : Prop where
  one_le_line : 1 ≤ line
  line_le : line ≤ source.lastIndex
  one_le_column : 1 ≤ column
  column_le : column ≤ max 1 (source.lengthAt line)

/-- Every place moved into the source can be shown. -/
theorem Source.shows_clamp {source : Source} (hlines : 1 ≤ source.lastIndex)
    (line column : Nat) :
    source.Shows (source.clampLine line) (source.clampColumn (source.clampLine line) column) where
  one_le_line := Nat.le_max_left _ _
  line_le := by
    unfold clampLine
    omega
  one_le_column := Nat.le_max_left _ _
  column_le := by
    unfold clampColumn
    omega

/-- A place to show is not moved. -/
theorem Source.Shows.clamp {source : Source} {line column : Nat} (h : source.Shows line column) :
    source.clampLine line = line ∧ source.clampColumn line column = column := by
  obtain ⟨hline, hlast, hcolumn, hlength⟩ := h
  unfold clampLine clampColumn
  omega

/-- The diagnostic of a finding stands at a place to show, with the text of its line. -/
theorem Account.shows_diagnostic {source : Source} (hlines : 1 ≤ source.lastIndex)
    (finding : Finding) (severity : Severity) :
    source.Shows (diagnostic source finding severity).line
        (diagnostic source finding severity).column ∧
      (diagnostic source finding severity).sourceLine =
        source.textAt (diagnostic source finding severity).line :=
  ⟨Source.shows_clamp hlines _ _, rfl⟩

/-- **Well placed**: where the diagnostics of a pass stand, and its abort. -/
structure WellPlaced (settings : Settings) (text : String) : Prop where
  /-- Every diagnostic stands in the source, with the text of its line. -/
  shown : ∀ d ∈ verify settings text, (Source.ofString text).Shows d.line d.column ∧
    d.sourceLine = (Source.ofString text).textAt d.line
  /-- No diagnostic stands on a quiet line, unless it is the last one of a pass that aborts. -/
  quiet : ∀ front d back, verify settings text = front ++ d :: back →
    (Source.ofString text).isQuiet d.line = true →
    back = [] ∧ (Pass.run settings text).abort.isSome
  /-- An abort stands in the source. -/
  abort : ∀ a, (Pass.run settings text).abort = some a →
    (Source.ofString text).Shows a.line a.column
  /-- Unless its rule is off at the end of the scan, an abort has the last diagnostic, an error. -/
  fatal : ∀ a, (Pass.run settings text).abort = some a →
    (Account.atEnd settings text).level settings a.rule .error ≠ .off →
    ∃ d, verify settings text = (Account.atEnd settings text).diagnostics.reverse ++ [d] ∧
      d.severity = .error ∧ d.rule = a.rule ∧ d.line = a.line ∧ d.column = a.column
  /-- If its rule is off there, an abort adds no diagnostic. -/
  silent : ∀ a, (Pass.run settings text).abort = some a →
    (Account.atEnd settings text).level settings a.rule .error = .off →
    verify settings text = (Account.atEnd settings text).diagnostics.reverse

/-- The abort of a pass is the fault of its scan, at a place inside the source. -/
theorem fault_of_abort {settings : Settings} {text : String} {a : Abort}
    (h : (Pass.run settings text).abort = some a) :
    ∃ fault, (scan (.ofString text)).fault = some fault ∧ a.rule = fault.rule ∧
      a.line = (Source.ofString text).clampLine fault.line ∧
      a.column = (Source.ofString text).clampColumn a.line fault.column := by
  obtain ⟨fault, hfault, rfl⟩ := Option.map_eq_some_iff.mp h
  exact ⟨fault, hfault, rfl, rfl, rfl⟩

/-- An abort whose rule is not off has the last diagnostic, an error at its place. -/
theorem exists_fatal {settings : Settings} {text : String} {a : Abort}
    (h : (Pass.run settings text).abort = some a)
    (hlevel : (Account.atEnd settings text).level settings a.rule .error ≠ .off) :
    ∃ d, verify settings text = (Account.atEnd settings text).diagnostics.reverse ++ [d] ∧
      d.severity = .error ∧ d.rule = a.rule ∧ d.line = a.line ∧ d.column = a.column := by
  obtain ⟨fault, hfault, hrule, hline, hcolumn⟩ := fault_of_abort h
  refine ⟨Account.diagnostic (.ofString text) fault .error, ?_, rfl, hrule.symm, hline.symm, ?_⟩
  · rw [hrule] at hlevel
    simp [verify_eq, hfault, Account.faultDiagnostic?, hlevel]
  · rw [hcolumn, hline]
    rfl

/-- The diagnostics of the events of a scan stand at places to show, on lines that are not
quiet. -/
theorem Account.diagnostics_atEnd (settings : Settings) (text : String) :
    ∀ d ∈ (atEnd settings text).diagnostics,
      ((Source.ofString text).Shows d.line d.column ∧
        d.sourceLine = (Source.ofString text).textAt d.line) ∧
      (Source.ofString text).isQuiet d.line = false := by
  refine forall_diagnostics_recordAll ?_ (by simp) _
  intro a event d hd
  obtain ⟨finding, -, hfinding⟩ := of_diagnosticOf? hd
  obtain ⟨-, -, hquiet, hd⟩ := of_reported? hfinding
  rw [hd]
  exact ⟨shows_diagnostic (Source.one_le_lastIndex text) _ _, hquiet⟩

/-- **Diagnostics point into the source.**  Under any settings, every pass is well placed: its
diagnostics and its abort stand at places of the source, and at most one diagnostic, the last,
is that of the fault. -/
theorem diagnostics_well_placed (settings : Settings) (text : String) :
    WellPlaced settings text where
  shown := by
    intro d hd
    rw [verify_eq, List.mem_append, List.mem_reverse, Option.mem_toList] at hd
    rcases hd with hd | hd
    · exact (Account.diagnostics_atEnd settings text d hd).1
    · obtain ⟨fault, -, hfault⟩ := Option.bind_eq_some_iff.mp hd
      split at hfault
      · cases hfault
      · obtain rfl := Option.some.inj hfault
        exact Account.shows_diagnostic (Source.one_le_lastIndex text) _ _
  quiet := by
    intro front d back hsplit hquiet
    have hfound : d ∉ (Account.atEnd settings text).diagnostics := by
      intro hd
      have hloud := (Account.diagnostics_atEnd settings text d hd).2
      rw [hquiet] at hloud
      cases hloud
    -- So the diagnostic is that of the fault, which is the last.
    obtain ⟨hback, hfault⟩ := last_of_verify_eq hsplit hfound
    obtain ⟨fault, hscan, -⟩ := Option.bind_eq_some_iff.mp hfault
    exact ⟨hback, by simp [Pass.run, Pass.ofSource, hscan]⟩
  abort := by
    intro a ha
    obtain ⟨fault, -, -, hline, hcolumn⟩ := fault_of_abort ha
    rw [hcolumn, hline]
    exact Source.shows_clamp (Source.one_le_lastIndex text) _ _
  fatal := fun _ => exists_fatal
  silent := by
    intro a ha hlevel
    obtain ⟨fault, hfault, hrule, -, -⟩ := fault_of_abort ha
    rw [hrule] at hlevel
    simp [verify_eq, hfault, Account.faultDiagnostic?, hlevel]

/-- The fault of a quiet line is reported. -/
theorem fatal_on_quiet_line :
    ∃ d, verify {} "'abc //jslint-quiet" =
        (Account.atEnd {} "'abc //jslint-quiet").diagnostics.reverse ++ [d] ∧
      d.severity = .error ∧ d.rule = .unclosedString ∧ d.line = 1 ∧ d.column = 19 :=
  (diagnostics_well_placed {} _).fatal ⟨.unclosedString, 1, 19⟩ (by decide +kernel)
    (by decide +kernel)

end ScriptLint
