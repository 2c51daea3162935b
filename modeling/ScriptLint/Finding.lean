import ScriptLint.OptionFlag
import ScriptLint.Rule

/-!
# Findings and events

What scanning a source leaves for the report: the findings of the checks, before
any setting is consulted, and the settings that directives change on the way, in
the order in which they happen.

## Main definitions

* `Finding` — a rule broken at a place
* `Event` — a finding, or a change of the settings, during a scan

## Design notes

Scanning never asks for a level, a flag or a limit. A check whose outcome hangs on
one is an event of its own (`lineLeft` for the line length, `todo` for the
development flag), decided by the report. So settings cannot change what is
scanned.
-/

namespace ScriptLint

/-- A rule broken at a place. The place may lie beyond its line; the report moves
it in. -/
structure Finding where
  /-- The rule broken. -/
  rule : Rule
  /-- Line, from 1. -/
  line : Nat
  /-- Column, from 1. -/
  column : Nat
  /-- The arguments of the message. -/
  args : List String := []
  /-- The level when neither a directive nor the configuration sets one. -/
  unset : Level := rule.defaultLevel
deriving DecidableEq, Repr

/-- What happens during a scan. -/
inductive Event
  /-- A rule was found broken. -/
  | found (finding : Finding)
  /-- A line that is subject to the length limit was left. -/
  | lineLeft (line : Nat)
  /-- A comment at a line and column, from 1, names a task. -/
  | todo (line column : Nat)
  /-- A directive sets the level of a rule. -/
  | levelSet (rule : Rule) (level : Level)
  /-- A directive sets a flag. -/
  | flagSet (flag : OptionFlag) (on : Bool)
  /-- A directive declares a global. -/
  | globalDeclared (name : String)
  /-- A directive names a property. -/
  | propertyNamed (name : String)
deriving DecidableEq, Repr

end ScriptLint
