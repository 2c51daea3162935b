import ScriptLint.Lexer
import ScriptLint.Proofs.Scan.Events

/-!
# Accounts of scans

A scan ends with its events, and the account of a pass is made of them in order.  So the
account at any moment is that of the events up to there, and what comes later is recorded on
top of it.

Under different settings the accounts of one scan differ in what they report.  They are still
**alike**: what directives have set and the properties named are the same, since no setting
has a say in them.

## Main definitions

* `Account.upTo` — the account of the events up to a state
* `Account.Alike` — accounts that heard the same directives

## Main statements

* `Account.upTo_eq_recordAll` — the account of a later state
* `Account.Alike.recordAll` — events keep accounts alike
-/

namespace ScriptLint

/-! ### The account at a moment -/

/-- A scan is what its run ends in. -/
theorem scan_eq (source : Source) :
    scan source =
      ⟨(State.initial source.lines.toList).run.1.tokens.reverse,
        source.issueEvents ++ (State.initial source.lines.toList).run.1.events.reverse,
        (State.initial source.lines.toList).run.2⟩ := rfl

namespace Account

variable (source : Source) (settings : Settings)

/-- Events are recorded in order. -/
theorem recordAll_append (a : Account) (events events' : List Event) :
    a.recordAll source settings (events ++ events') =
      (a.recordAll source settings events).recordAll source settings events' :=
  List.foldl_append

/-- The account of the events up to a state. -/
def upTo (s : State) : Account :=
  ({ globals := settings.globals } : Account).recordAll source settings
    (source.issueEvents ++ s.events.reverse)

/-- The account of a later state is that of an earlier one with the events since. -/
theorem upTo_eq_recordAll {s t : State} (h : s.Grows t) :
    upTo source settings t =
      (upTo source settings s).recordAll source settings (s.eventsSince t) := by
  rw [upTo, upTo, ← h.events_append, ← List.append_assoc]
  exact recordAll_append source settings _ _ _

end Account

/-! ### Accounts under different settings -/

/-- **Alike**: accounts that differ in what they report and in the globals they started from. -/
structure Account.Alike (a b : Account) : Prop where
  level? : a.level? = b.level?
  flag? : a.flag? = b.flag?
  properties : a.properties = b.properties

namespace Account

variable {source source' : Source} {c d : Settings} {a b : Account}

theorem Alike.symm (h : a.Alike b) : b.Alike a :=
  ⟨h.level?.symm, h.flag?.symm, h.properties.symm⟩

theorem Alike.trans {e : Account} (h : a.Alike b) (h' : b.Alike e) : a.Alike e :=
  ⟨h.level?.trans h'.level?, h.flag?.trans h'.flag?, h.properties.trans h'.properties⟩

/-- A report sets nothing. -/
theorem alike_report (source : Source) (c : Settings) (a : Account) (finding : Finding) :
    a.Alike (a.report source c finding) := by
  unfold report
  split
  · exact ⟨rfl, rfl, rfl⟩
  · split
    · exact ⟨rfl, rfl, rfl⟩
    · exact ⟨rfl, rfl, rfl⟩

theorem alike_reportFault (source : Source) (c : Settings) (a : Account) (fault : Finding) :
    a.Alike (a.reportFault source c fault) := by
  unfold reportFault
  split
  · exact ⟨rfl, rfl, rfl⟩
  · exact ⟨rfl, rfl, rfl⟩

/-- An event that is a report in some way sets nothing. -/
theorem alike_record (source : Source) (c : Settings) (a : Account) {event : Event}
    (h : (∃ finding, event = .found finding) ∨ (∃ line, event = .lineLeft line) ∨
      ∃ line column, event = .todo line column) : a.Alike (a.record source c event) := by
  rcases h with ⟨finding, rfl⟩ | ⟨line, rfl⟩ | ⟨line, column, rfl⟩
  · exact alike_report source c a finding
  · simp only [record]
    split
    · exact alike_report source c a _
    · exact ⟨rfl, rfl, rfl⟩
  · simp only [record]
    split
    · exact ⟨rfl, rfl, rfl⟩
    · exact alike_report source c a _

/-- An event sets the same whatever the source and the settings. -/
theorem Alike.record (h : a.Alike b) (event : Event) :
    (a.record source c event).Alike (b.record source' d event) := by
  -- What is reported sets nothing, on either side and whatever its outcome there.
  have hreport (hevent : (∃ finding, event = .found finding) ∨ (∃ line, event = .lineLeft line) ∨
      ∃ line column, event = .todo line column) :
      (a.record source c event).Alike (b.record source' d event) :=
    ((alike_record source c a hevent).symm.trans h).trans (alike_record source' d b hevent)
  cases event with
  | found finding => exact hreport (.inl ⟨finding, rfl⟩)
  | lineLeft line => exact hreport (.inr (.inl ⟨line, rfl⟩))
  | todo line column => exact hreport (.inr (.inr ⟨line, column, rfl⟩))
  | levelSet rule level =>
    refine ⟨?_, h.flag?, h.properties⟩
    funext r
    simp [Account.record, h.level?]
  | flagSet flag on =>
    refine ⟨h.level?, ?_, h.properties⟩
    funext f
    simp [Account.record, h.flag?]
  | globalDeclared name => exact ⟨h.level?, h.flag?, h.properties⟩
  | propertyNamed name => exact ⟨h.level?, h.flag?, congrArg (name :: ·) h.properties⟩

theorem Alike.recordAll (h : a.Alike b) (events : List Event) :
    (a.recordAll source c events).Alike (b.recordAll source' d events) := by
  induction events generalizing a b with
  | nil => exact h
  | cons event events ih => exact ih (h.record event)

end Account

end ScriptLint
