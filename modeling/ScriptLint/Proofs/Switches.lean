import ScriptLint.Proofs.ActiveDirectives
import ScriptLint.Proofs.Knobs
import ScriptLint.Proofs.Regions
import ScriptLint.Proofs.Scan.Growth
import ScriptLint.Proofs.Tiling

/-!
# Switching a rule off in the source

A directive in the first comment switches a rule off.  When the scan stands behind that
comment, everything recorded concerns the lines up to there, and from there on the rule is
off, whatever the configuration says.  So the rule is silent on the lines below.

The rules of the region markers are an exception by design: a source is split into lines
before any of it is scanned, and what is wrong with its markers is reported first.

## Main statements

* `diagnostics_upTo` — what is reported up to a state stands on the lines gone over, but for the
  region markers
* `silent_recordAll` — a rule that is off stays silent until a directive sets it
* `level?_upTo_switch` — behind the switch the rule is off
* `silent_below_switch` — a rule switched off in the first comment is silent below it
-/

namespace ScriptLint

/-! ### What is reported up to a state -/

/-- A diagnostic stands on the lines that its event concerns. -/
theorem Account.line_of_diagnosticOf? {source : Source} {settings : Settings} {a : Account}
    {event : Event} {d : Diagnostic} {n : Nat} (hn : 1 ≤ n) (hevent : event.Within 0 n)
    (h : a.diagnosticOf? source settings event = some d) : d.line ≤ n := by
  have hreported {finding : Finding} (hline : finding.line ≤ n)
      (h : a.reported? source settings finding = some d) : d.line ≤ n := by
    obtain ⟨-, -, -, hd⟩ := of_reported? h
    rw [hd]
    show source.clampLine finding.line ≤ n
    unfold Source.clampLine
    omega
  cases event with
  | found finding => exact hreported hevent.2.1 h
  | lineLeft line =>
    simp only [diagnosticOf?] at h
    split at h
    · exact hreported hevent.2 h
    · cases h
  | todo line column =>
    simp only [diagnosticOf?] at h
    split at h
    · cases h
    · exact hreported hevent.2 h
  | levelSet rule level => cases h
  | flagSet flag on => cases h
  | globalDeclared name => cases h
  | propertyNamed name => cases h

/-- The issue of a region marker stands on a line of the source. -/
theorem clampLine_issue {text : String} {issue : LineIssue}
    (h : issue ∈ (Source.ofString text).issues) :
    (Source.ofString text).clampLine issue.line = issue.line := by
  have hmarked : ∃ marker, Marked marker (rawLines text) issue.line := by
    rcases (mem_issues_ofString text issue).mp h with ⟨-, henables, -⟩ | ⟨-, hleast⟩
    · exact ⟨_, henables⟩
    · exact ⟨_, hleast.1.1⟩
  obtain ⟨marker, hmarked⟩ := hmarked
  exact Source.clampLine_of_inside
    ⟨hmarked.1, hmarked.le_length.trans_eq (lastIndex_ofString text).symm⟩

/-- **What is reported up to a state** stands on the lines gone over, but for the issues of the
region markers. -/
theorem Account.diagnostics_upTo {settings : Settings} {text : String} {s : State}
    (hreach : State.Reaches (.initial (Source.ofString text).lines.toList) s)
    (hline : 1 ≤ s.line) :
    ∀ d ∈ (upTo (.ofString text) settings s).diagnostics,
      d.line ≤ s.line ∨ ⟨d.rule, d.line⟩ ∈ (Source.ofString text).issues := by
  intro d hd
  rcases of_mem_diagnostics_recordAll hd with hnone | ⟨event, hevent, a, ha⟩
  · cases hnone
  · rcases List.mem_append.mp hevent with hissue | hscan
    · obtain ⟨issue, hmem, rfl⟩ := List.mem_map.mp hissue
      obtain ⟨hrule, -, -, hd⟩ := of_reported? ha
      have hplace : d.line = issue.line := by
        rw [hd]
        exact clampLine_issue hmem
      refine .inr ?_
      rw [hrule, hplace]
      exact hmem
    · have hwithin := State.within_of_reaches hreach event (List.mem_reverse.mp hscan)
      exact .inl (line_of_diagnosticOf? hline hwithin ha)

/-! ### A rule that is off -/

/-- **A rule that a directive switched off** stays silent until a directive sets it. -/
theorem silent_recordAll {source : Source} {settings : Settings} {rule : Rule}
    {events : List Event} (hevents : ∀ level, .levelSet rule level ∉ events) {a : Account}
    (ha : a.level? rule = some .off) :
    (a.recordAll source settings events).level? rule = some .off ∧
      ∀ d ∈ (a.recordAll source settings events).diagnostics, d.rule = rule →
        d ∈ a.diagnostics := by
  obtain ⟨hoff, hreported⟩ := severity_recordAll Option.some_or hevents ha
  refine ⟨hoff, fun d hd hrule => (hreported d hd hrule).resolve_right ?_⟩
  -- A diagnostic has a severity, and what is off has none.
  intro hseverity
  cases hseverity

/-! ### Behind the switch -/

/-- No rule has the name of a flag. -/
theorem Rule.ofName?_key_flag (rule : Rule) : OptionFlag.ofName? rule.key = none := by
  cases rule <;> decide

/-- The entry that switches a rule off. -/
theorem change?_off (rule : Rule) :
    DirectiveItem.change? ⟨rule.key, some false⟩ .options = some (.levelSet rule .off) := by
  unfold DirectiveItem.change?
  rw [rule.ofName?_key_flag, rule.ofName?_key]
  rfl

section

variable {settings : Settings} {text : String} {rule : Rule} {t : Token} {s : State}

/-- **Behind a switch** that is the only token read the rule is off. -/
theorem level?_upTo_switch (hentry : t.IsEntry .options ⟨rule.key, some false⟩) (hs : s.Heeds)
    (htokens : s.tokens = [t]) :
    (Account.upTo (.ofString text) settings s).level? rule = some .off := by
  have hsettled := Account.settled_upTo (.ofString text) settings hs
  rw [htokens, List.reverse_singleton, activeItems_cons_of_isEntry hentry rule.isIdentifier_key,
    Account.setAll_cons, Account.set, change?_off] at hsettled
  refine (congrArg (fun a => a.level? rule) hsettled).trans ?_
  show (if rule = rule then some Level.off else none) = some .off
  rw [if_pos rfl]

/-- An active entry sets the level of no rule that its comment does not name. -/
theorem exists_namesRule_of_activeChanges {tokens : List Token} {level : Level}
    (h : .levelSet rule level ∈ activeChanges tokens) : ∃ u ∈ tokens, u.NamesRule rule := by
  obtain ⟨x, hx, hchange⟩ := List.mem_filterMap.mp h
  obtain ⟨u, hu, hitem⟩ := List.mem_flatMap.mp hx
  have hkind : (u.kind == .comment) = true :=
    List.mem_takeWhile_imp (p := fun x : Token => x.kind == .comment) hu
  have hlevel : .levelSet rule level ∈ u.changes := by
    rw [u.changes_eq_items]
    exact List.mem_filterMap.mpr ⟨x, hitem, hchange⟩
  exact ⟨u, (List.takeWhile_sublist _).subset hu,
    u.namesRule_of_levelSet (beq_iff_eq.mp hkind) hlevel⟩

/-- If no later comment names the rule, no later event sets its level. -/
theorem levelSet_not_mem_eventsSince {u : State} {rest : List Token}
    (hentry : t.IsEntry .options ⟨rule.key, some false⟩) (hs : s.Heeds) (hu : u.Heeds)
    (hgrows : s.Grows u) (htokens : s.tokens = [t]) (hrest : u.tokens.reverse = t :: rest)
    (hothers : ∀ x ∈ rest, ¬ x.NamesRule rule) (level : Level) :
    .levelSet rule level ∉ s.eventsSince u := by
  intro hmem
  have hsince := hs.filter_eventsSince hu hgrows
  rw [htokens, hrest, List.reverse_singleton,
    activeChanges_cons_of_isEntry hentry rule.isIdentifier_key,
    activeChanges_cons_of_isEntry hentry rule.isIdentifier_key, List.append_assoc,
    List.append_cancel_left_eq] at hsince
  have hchange : .levelSet rule level ∈ (s.eventsSince u).filter Event.isChange :=
    List.mem_filter.mpr ⟨hmem, rfl⟩
  rw [show (s.eventsSince u).filter Event.isChange = activeChanges rest from hsince] at hchange
  obtain ⟨x, hx, hnames⟩ := exists_namesRule_of_activeChanges hchange
  exact hothers x hx hnames

/-- **From the switch on** the rule is off, and nothing more is reported on it. -/
theorem silent_from_switch {rest : List Token}
    (hentry : t.IsEntry .options ⟨rule.key, some false⟩)
    (hreach : State.Reaches (.initial (Source.ofString text).lines.toList) s)
    (htokens : s.tokens = [t]) (hrest : (Pass.run settings text).tokens = t :: rest)
    (hothers : ∀ x ∈ rest, ¬ x.NamesRule rule) :
    (Account.atEnd settings text).level? rule = some .off ∧
      ∀ d ∈ (Account.atEnd settings text).diagnostics, d.rule = rule →
        d ∈ (Account.upTo (.ofString text) settings s).diagnostics := by
  have hs := State.heeds_of_reaches hreach (State.heeds_initial _)
  have hgrows : s.Grows s.run.1 := s.records_run.grows
  have hend : s.run.1.tokens.reverse = t :: rest := by
    rw [← State.run_of_reaches hreach]
    exact hrest
  rw [Account.atEnd_eq_upTo, State.run_of_reaches hreach, Account.upTo_eq_recordAll _ _ hgrows]
  refine silent_recordAll ?_ (level?_upTo_switch hentry hs htokens)
  exact levelSet_not_mem_eventsSince hentry hs (State.run_keeps (fun _ => State.heeds_step) hs)
    hgrows htokens hend hothers

end

/-- **A rule switched off in the first comment is silent below it.**  If the first token is a
comment on one line that switches a rule off, and no other comment is a directive that names the
rule, then under any settings every diagnostic on the rule below that line is the issue of a region
marker; so if the rule is not that of a marker there is none. -/
theorem silent_below_switch {settings : Settings} {rule : Rule} {text : String} {t : Token}
    (hfirst : (Pass.run settings text).tokens.head? = some t)
    (hentry : t.IsEntry .options ⟨rule.key, some false⟩) (hline : t.start.line = t.stop.line)
    (hothers : ∀ u ∈ (Pass.run settings text).tokens.tail, ¬ u.NamesRule rule) :
    (∀ d ∈ verify settings text, d.rule = rule → t.start.line < d.line →
      ⟨rule, d.line⟩ ∈ (Source.ofString text).issues) ∧
    (rule ≠ .unopenedEnable → rule ≠ .unclosedDisable →
      ∀ d ∈ verify settings text, d.rule = rule → d.line ≤ t.start.line) := by
  have hbelow : ∀ d ∈ verify settings text, d.rule = rule → t.start.line < d.line →
      ⟨rule, d.line⟩ ∈ (Source.ofString text).issues := by
    obtain ⟨rest, hrest⟩ := List.head?_eq_some_iff.mp hfirst
    rw [hrest, List.tail_cons] at hothers
    have hend : (State.initial (Source.ofString text).lines.toList).run.1.tokens =
        rest.reverse ++ [t] := by
      rw [← List.reverse_cons, ← hrest]
      exact (List.reverse_reverse _).symm
    obtain ⟨s, hreach, htokens, hplace⟩ := State.exists_first_comment hend hentry.1
    have hone : 1 ≤ s.line := by
      have ht : t ∈ s.tokens := htokens ▸ List.mem_singleton.mpr rfl
      rw [hplace]
      exact ((tiled_of_reaches hreach).inside t ht).2.one_le_line
    obtain ⟨hoff, hsilent⟩ := silent_from_switch hentry hreach htokens hrest hothers
    intro d hd hrule hlt
    rw [verify_eq, List.mem_append, List.mem_reverse, Option.mem_toList] at hd
    rcases hd with hd | hd
    · rcases Account.diagnostics_upTo hreach hone d (hsilent d hd hrule) with hle | hissue
      · omega
      · exact hrule ▸ hissue
    · obtain ⟨-, -, -, hon⟩ := Account.of_faultDiagnostic? hd
      simp [Account.level, hrule, hoff] at hon
  refine ⟨hbelow, fun hopened hclosed d hd hrule => Nat.le_of_not_lt fun hlt => ?_⟩
  rcases rule_of_mem_issues text (hbelow d hd hrule hlt) with hmarker | hmarker
  · exact hopened hmarker
  · exact hclosed hmarker

/-- A tab is reported below a comment, but not below one that switches its rule off. -/
theorem tabs_below_switch :
    (∃ d ∈ verify (({} : Settings).setLevel .noTabs .error) "/*tabs*/\n\tx",
        d.rule = .noTabs ∧ 1 < d.line) ∧
      ∀ d ∈ verify (({} : Settings).setLevel .noTabs .error) "/*jslint no_tabs:false*/\n\tx",
        d.rule = .noTabs → d.line ≤ 1 :=
  ⟨by decide +kernel, (silent_below_switch
    (t := ⟨.comment, "jslint no_tabs:false", ⟨1, 0⟩, ⟨1, 24⟩, 0, none, false, none⟩)
    (by decide +kernel) (by decide +kernel) rfl (by decide +kernel)).2 (by decide) (by decide)⟩

/-- An enable marker that closes nothing is reported below the comment that switches its rule
off. -/
theorem marker_below_switch :
    ¬ ∀ (settings : Settings) (rule : Rule) (text : String) (t : Token),
      (Pass.run settings text).tokens.head? = some t →
      t.IsEntry .options ⟨rule.key, some false⟩ → t.start.line = t.stop.line →
      (∀ u ∈ (Pass.run settings text).tokens.tail, ¬ u.NamesRule rule) →
      ∀ d ∈ verify settings text, d.rule = rule → d.line ≤ t.start.line := by
  intro h
  have hsilent := h {} .unopenedEnable "/*jslint unopened_enable:false*/\n/*jslint-enable*/"
    ⟨.comment, "jslint unopened_enable:false", ⟨1, 0⟩, ⟨1, 32⟩, 0, none, false, none⟩
    (by decide +kernel) (by decide +kernel) rfl (by decide +kernel)
  revert hsilent
  decide +kernel

end ScriptLint
