import ScriptLint.Pass

/-!
# Reporters

What a lexer reports to while it reads: it keeps the account, and answers what is set at
the moment, by a directive above or by the settings.

## Main definitions

* `Reporter` — a source, the settings of a pass and the account of it so far
* `Reporter.report`, `Reporter.fatal` — findings, and the one that stops a pass
* `Reporter.flag`, `Reporter.maxLineLength` — what is asked
* `Reporter.record` — what an event of a scan comes to
* `Source.issueEvents` — the events before a scan
-/

namespace ScriptLint

/-- **Reporter**: the account of a pass, kept while the source is read. -/
structure Reporter where
  /-- The source reported on. -/
  source : Source
  /-- The settings of the pass. -/
  settings : Settings
  /-- What is set and reported so far. -/
  account : Account

namespace Reporter

/-- The reporter before the first finding. -/
def ofSettings (settings : Settings) (source : Source) : Reporter where
  source := source
  settings := settings
  account := { globals := settings.globals }

/-! ### Findings -/

/-- Reports a finding. -/
def report (r : Reporter) (finding : Finding) : Reporter :=
  { r with account := r.account.report r.source r.settings finding }

/-- Where and why a pass stops at a fault. -/
def abortAt (r : Reporter) (fault : Finding) : Abort :=
  let line := r.source.clampLine fault.line
  { rule := fault.rule, line, column := r.source.clampColumn line fault.column }

/-- Reports the fault that stops the pass. -/
def fatal (r : Reporter) (fault : Finding) : Reporter × Abort :=
  ({ r with account := r.account.reportFault r.source r.settings fault }, r.abortAt fault)

/-! ### Questions -/

/-- Whether a flag is on at the moment. -/
def flag (r : Reporter) (flag : OptionFlag) : Bool := r.account.flag r.settings flag

/-- The length from which a line is too long. -/
def maxLineLength (r : Reporter) : Nat := r.settings.maxLineLength.toNat

/-! ### What directives set -/

/-- Sets the level of a rule from here on. -/
def setLevel (r : Reporter) (rule : Rule) (level : Level) : Reporter :=
  { r with
    account.level? := fun other => if other = rule then some level else r.account.level? other }

/-- Sets a flag from here on. To switch an environment on makes its names known. -/
def setFlag (r : Reporter) (flag : OptionFlag) (on : Bool) : Reporter :=
  { r with
    account.flag? := fun other => if other = flag then some on else r.account.flag? other
    account.globals :=
      match flag.environment? with
      | some origin => if on then r.account.globals.overlay origin else r.account.globals
      | none => r.account.globals }

/-- Makes the name of a global known. -/
def declareGlobal (r : Reporter) (name : String) : Reporter :=
  { r with account.globals := r.account.globals.declare name .user }

/-- Names a property. -/
def nameProperty (r : Reporter) (name : String) : Reporter :=
  { r with account.properties := name :: r.account.properties }

/-! ### Events -/

/-- Takes note of an event of a scan. -/
def record (r : Reporter) (event : Event) : Reporter :=
  { r with account := r.account.record r.source r.settings event }

/-- Takes note of events, in order. -/
def recordAll (r : Reporter) (events : List Event) : Reporter :=
  { r with account := r.account.recordAll r.source r.settings events }

theorem recordAll_concat (r : Reporter) (events : List Event) (event : Event) :
    r.recordAll (events ++ [event]) = (r.recordAll events).record event := by
  simp only [recordAll, record, Account.recordAll, List.foldl_append, List.foldl_cons,
    List.foldl_nil]

theorem recordAll_append (r : Reporter) (events events' : List Event) :
    r.recordAll (events ++ events') = (r.recordAll events).recordAll events' := by
  simp only [recordAll, Account.recordAll, List.foldl_append]

/-- A line that is left is too long or not. -/
theorem record_lineLeft (r : Reporter) (line : Nat) :
    r.record (.lineLeft line) =
      if r.source.lengthAt line > r.maxLineLength then
        r.report { rule := .noLongLines, line, column := r.maxLineLength,
                   args := [toString r.maxLineLength] }
      else r := by
  unfold record Account.record maxLineLength
  by_cases hlong : r.source.lengthAt line > r.settings.maxLineLength.toNat
  · simp only [if_pos hlong, report]
  · simp only [if_neg hlong]

/-- A task is let pass while sources are under development. -/
theorem record_todo (r : Reporter) (line column : Nat) :
    r.record (.todo line column) =
      if r.flag .devel then r else r.report { rule := .todoComment, line, column } := by
  unfold record Account.record flag
  by_cases hdevel : r.account.flag r.settings .devel = true
  · simp only [if_pos hdevel]
  · simp only [if_neg hdevel, report]

end Reporter

/-- The events before a scan: the issues of the region markers. -/
def Source.issueEvents (source : Source) : List Event :=
  source.issues.map fun issue => .found { rule := issue.rule, line := issue.line, column := 1 }

end ScriptLint
