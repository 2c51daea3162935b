import ScriptLint.Proofs.Knobs
import ScriptLint.Proofs.Regions
import ScriptLint.Proofs.Scan.Course

/-!
# Defaults set by hand

A rule that nobody sets reports at the level its finding asks for.  That is the default level of
the rule, for all findings of a scan but two: a regular expression behind a keyword that hardly
wants one, and a code point in braces in a JSON text, are errors on a rule that starts as a
warning.  So to switch on a rule that is on already changes nothing, except that it turns those
errors into warnings.

A fault is reported as an error at any level, and none is on that rule.

## Main definitions

* `softened` — a diagnostic with what is unexpected as a warning

## Main statements

* `regular_of_found` — the findings of a scan are regular
* `Account.map_reported?` — what a regular finding reports when its rule is switched on
* `verify_enabled` — to switch on a rule that is on already
-/

namespace ScriptLint

/-! ### What a scan finds -/

/-- **The findings of a scan are regular**, the issues of its region markers among them. -/
theorem regular_of_found (text : String) {finding : Finding}
    (h : .found finding ∈ (scan (.ofString text)).events) : finding.Regular := by
  rw [scan_eq, List.mem_append, List.mem_reverse] at h
  rcases h with h | h
  · obtain ⟨issue, hissue, hfound⟩ := List.mem_map.mp h
    obtain rfl := Event.found.inj hfound
    refine regular_of_default ?_ _ _ _
    rcases rule_of_mem_issues text hissue with hrule | hrule <;> simp [hrule]
  · exact (State.within_of_run _ _ h).2.2

/-- A scan does not stop at something unexpected. -/
theorem rule_ne_of_fault {source : Source} {fault : Finding}
    (h : (scan source).fault = some fault) : fault.rule ≠ .unexpectedA := by
  intro hrule
  have hfatal : fault.rule.Fatal := State.fatal_of_run h
  rw [hrule] at hfatal
  exact absurd hfatal (by decide)

/-! ### A rule that is on -/

/-- A rule that is on by default is switched on at its default level. -/
theorem Rule.enabledLevel_of_on {rule : Rule} (h : rule.defaultLevel ≠ .off) :
    rule.enabledLevel = rule.defaultLevel := by
  unfold enabledLevel
  split
  · next hoff => exact absurd hoff h
  · rfl

/-- To set the level of a rule is the business of no other rule. -/
theorem Settings.agreeBeyond_setLevel (settings : Settings) (rule : Rule) (level : Level) :
    settings.AgreeBeyond rule (settings.setLevel rule level) where
  level? _ hr := (if_neg hr).symm
  maxLineLength _ := rfl
  flag _ := rfl

/-- What is unexpected made a warning. -/
def softened (d : Diagnostic) : Diagnostic :=
  if d.rule = .unexpectedA then { d with severity := .warning } else d

/-- Nothing else is touched. -/
theorem map_softened_of_ne {d? : Option Diagnostic}
    (h : ∀ d, d? = some d → d.rule ≠ .unexpectedA) : d?.map softened = d? := by
  cases d? with
  | none => rfl
  | some d => exact congrArg some (if_neg (h d rfl))

/-- To agree but for what is made a warning goes by parts. -/
theorem byParts_softened : ByParts fun l l' => l.map softened = l' where
  nil := rfl
  append h h' := by rw [List.map_append, h, h']
  reverse h := by rw [List.map_reverse, h]

theorem byParts_eq : ByParts Eq where
  nil := rfl
  append h h' := by rw [h, h']
  reverse h := by rw [h]

namespace Account

variable {settings : Settings} {source : Source} {rule : Rule} {level : Level} {a b : Account}

/-- A rule that nobody sets has the level that is asked for. -/
theorem level_of_unset (ha : a.level? rule = none) (hunset : settings.level? rule = none)
    (unset : Level) : a.level settings rule unset = unset := by
  simp [Account.level, ha, hunset]

/-- A rule that the configuration alone sets has the level set there. -/
theorem level_setLevel (hb : b.level? rule = none) (unset : Level) :
    b.level (settings.setLevel rule level) rule unset = level := by
  simp [Account.level, Settings.setLevel, hb]

/-- A finding at the default level of its rule reports the same when the rule is switched on. -/
theorem reported?_of_default {finding : Finding} (hon : finding.rule.defaultLevel ≠ .off)
    (hunset : settings.level? finding.rule = none) (hab : a.Alike b)
    (ha : a.level? finding.rule = none) (hdefault : finding.unset = finding.rule.defaultLevel) :
    a.reported? source settings finding =
      b.reported? source (settings.setLevel finding.rule finding.rule.enabledLevel) finding := by
  have hb : b.level? finding.rule = none := hab.level? ▸ ha
  refine reported?_congr ?_
  rw [level_of_unset ha hunset, level_setLevel hb, hdefault, Rule.enabledLevel_of_on hon]

/-- **What is unexpected** reports a warning when its rule is switched on. -/
theorem map_reported? {finding : Finding} (hrule : finding.rule = .unexpectedA)
    (hunset : settings.level? .unexpectedA = none) (hab : a.Alike b)
    (ha : a.level? .unexpectedA = none) (hregular : finding.Regular) :
    (a.reported? source settings finding).map softened =
      b.reported? source (settings.setLevel .unexpectedA .warn) finding := by
  have hb : b.level? .unexpectedA = none := hab.level? ▸ ha
  have hsoft (severity : Severity) :
      softened (diagnostic source finding severity) = diagnostic source finding .warning :=
    if_pos hrule
  -- It may be a warning or an error if nobody sets its rule.
  have hunexpected : finding.unset = .warn ∨ finding.unset = .error := by
    refine hregular.2.imp (fun hdefault => ?_) And.right
    rw [hdefault, hrule]
    rfl
  unfold reported?
  rw [hrule, level_of_unset ha hunset, level_setLevel hb]
  rcases hunexpected with hunset | hunset
  all_goals
    rw [hunset]
    dsimp only [Level.severity?]
    split
    · rfl
    · rw [Option.map_some, hsoft]

/-- **An event reports the same** when a rule is switched on that is on already, if it is not that
of what is unexpected. -/
theorem diagnosticOf?_enabled {event : Event} (hon : rule.defaultLevel ≠ .off)
    (hunset : settings.level? rule = none) (hab : a.Alike b) (ha : a.level? rule = none)
    (hevent : ∀ finding, event = .found finding → finding.Regular) (hne : rule ≠ .unexpectedA) :
    a.diagnosticOf? source settings event =
      b.diagnosticOf? source (settings.setLevel rule rule.enabledLevel) event := by
  by_cases hown : event.rule? = some rule
  · cases event with
    | found finding =>
      obtain rfl := Option.some.inj hown
      refine reported?_of_default hon hunset hab ha ?_
      exact (hevent finding rfl).2.resolve_right fun hsharp => hne hsharp.1
    | lineLeft line =>
      obtain rfl := Option.some.inj hown
      exact absurd rfl hon
    | todo line column =>
      obtain rfl := Option.some.inj hown
      have hdevel : b.flag (settings.setLevel .todoComment Rule.todoComment.enabledLevel) .devel =
          a.flag settings .devel := hab.symm.flag rfl
      simp only [diagnosticOf?, hdevel]
      rw [reported?_of_default hon hunset hab ha rfl]
    | levelSet _ _ | flagSet _ _ | globalDeclared _ | propertyNamed _ => cases hown
  · exact (settings.agreeBeyond_setLevel rule _).diagnosticOf? hab hown

/-- The same for the rule of what is unexpected, of which everything becomes a warning. -/
theorem map_diagnosticOf? {event : Event} (hunset : settings.level? .unexpectedA = none)
    (hab : a.Alike b) (ha : a.level? .unexpectedA = none)
    (hevent : ∀ finding, event = .found finding → finding.Regular) :
    (a.diagnosticOf? source settings event).map softened =
      b.diagnosticOf? source (settings.setLevel .unexpectedA .warn) event := by
  by_cases hown : event.rule? = some .unexpectedA
  · cases event with
    | found finding =>
      exact map_reported? (Option.some.inj hown) hunset hab ha (hevent finding rfl)
    | lineLeft _ | todo _ _ | levelSet _ _ | flagSet _ _ | globalDeclared _ | propertyNamed _ =>
      cases hown
  · rw [← (settings.agreeBeyond_setLevel .unexpectedA .warn).diagnosticOf? hab hown]
    refine map_softened_of_ne fun d hd hrule => hown ?_
    exact hrule ▸ (rule_of_diagnosticOf? hd).1

/-- **A fault reports the same** when a rule is switched on that is on already. -/
theorem faultDiagnostic?_enabled (hon : rule.defaultLevel ≠ .off)
    (hunset : settings.level? rule = none) (hab : a.Alike b) (ha : a.level? rule = none)
    (fault : Option Finding) :
    a.faultDiagnostic? source settings fault =
      b.faultDiagnostic? source (settings.setLevel rule rule.enabledLevel) fault := by
  refine faultDiagnostic?_congr fun finding _ => ?_
  by_cases hrule : finding.rule = rule
  · have hb : b.level? rule = none := hab.level? ▸ ha
    rw [hrule, level_of_unset ha hunset, level_setLevel hb, Rule.enabledLevel_of_on hon]
    exact iff_of_false (by decide) hon
  · rw [hab.level ((settings.agreeBeyond_setLevel rule _).level? _ hrule)]

end Account

/-! ### Two passes -/

/-- **To switch on a rule that is on already** changes nothing, but for what is unexpected: of that
everything becomes a warning. -/
theorem verify_enabled {settings : Settings} {text : String} {rule : Rule}
    (hon : rule.defaultLevel ≠ .off) (hunset : settings.level? rule = none)
    (hunnamed : ∀ t ∈ (Pass.run settings text).tokens, ¬ t.NamesRule rule) :
    (rule ≠ .unexpectedA →
      verify (settings.setLevel rule rule.enabledLevel) text = verify settings text) ∧
    (rule = .unexpectedA →
      verify (settings.setLevel rule rule.enabledLevel) text =
        (verify settings text).map softened) := by
  have hregular {event : Event} (hmem : event ∈ (scan (.ofString text)).events) :
      ∀ finding, event = .found finding → finding.Regular := by
    rintro finding rfl
    exact regular_of_found text hmem
  -- As no directive names the rule, it stays unset on both sides.
  have hkeep : ∀ a : Account, ∀ event ∈ (scan (.ofString text)).events, a.level? rule = none →
      (a.record (.ofString text) settings event).level? rule = none := by
    intro a event hevent ha
    have hother : ∀ level, event ≠ .levelSet rule level := by
      rintro level rfl
      exact levelSet_not_mem_events hunnamed level hevent
    exact (level?_record hother a).trans ha
  constructor
  · intro hne
    symm
    refine byParts_eq.verify_of text (P := fun a => a.level? rule = none) rfl hkeep ?_ ?_
    · intro a b event hevent hab ha
      rw [Account.diagnosticOf?_enabled hon hunset hab ha (hregular hevent) hne]
    · intro a b hab ha
      rw [Account.faultDiagnostic?_enabled hon hunset hab ha]
  · rintro rfl
    symm
    refine byParts_softened.verify_of text (P := fun a => a.level? .unexpectedA = none) rfl
      hkeep ?_ ?_
    · intro a b event hevent hab ha
      rw [← Option.toList_map]
      exact congrArg _ (Account.map_diagnosticOf? hunset hab ha (hregular hevent))
    · intro a b hab ha
      rw [← Option.toList_map, ← Account.faultDiagnostic?_enabled hon hunset hab ha]
      refine congrArg _ (map_softened_of_ne fun d hd hrule => ?_)
      obtain ⟨fault, hfault, rfl, -⟩ := Account.of_faultDiagnostic? hd
      exact rule_ne_of_fault hfault hrule

/-- A regular expression behind a keyword becomes a warning. -/
theorem verify_enabled_regex :
    verify (({} : Settings).setLevel .unexpectedA .warn) "case /x/;" =
        (verify {} "case /x/;").map softened ∧
      (verify {} "case /x/;").map (·.severity) = [.error] :=
  ⟨(verify_enabled (by decide) rfl (by decide +kernel)).2 rfl, by decide +kernel⟩

/-- So to switch on a rule that is on already does change something. -/
theorem enabled_regex_differs :
    ¬ ∀ (settings : Settings) (rule : Rule) (text : String), rule.defaultLevel ≠ .off →
      settings.level? rule = none →
      (∀ t ∈ (Pass.run settings text).tokens, ¬ t.NamesRule rule) →
      verify (settings.setLevel rule rule.enabledLevel) text = verify settings text := by
  intro h
  have hsame := h {} .unexpectedA "case /x/;" (by decide) rfl (by decide +kernel)
  revert hsame
  decide +kernel

end ScriptLint
