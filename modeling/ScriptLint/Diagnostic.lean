import ScriptLint.Rule

/-!
# Diagnostics

What a pass tells the user.

## Main definitions

* `Severity` — error or warning
* `Diagnostic` — a message at a place of the source
-/

namespace ScriptLint

/-- How much a diagnostic weighs. -/
inductive Severity
  /-- It must be mended. -/
  | error
  /-- It should be looked at. -/
  | warning
deriving DecidableEq, Repr

namespace Severity

/-- The name of a severity. -/
def key : Severity → String
  | error => "error"
  | warning => "warning"

/-- The severity of a name. -/
def ofName? (text : String) : Option Severity :=
  if text = "error" then some error else if text = "warning" then some warning else none

end Severity

/-- The severity at which a level reports, if it does. -/
def Level.severity? : Level → Option Severity
  | off => none
  | warn => some .warning
  | error => some .error

/-- A message at a place. -/
structure Diagnostic where
  /-- Its weight. -/
  severity : Severity
  /-- The rule broken. -/
  rule : Rule
  /-- The wording. -/
  message : String
  /-- Line, from 1. -/
  line : Nat
  /-- Column, from 1. -/
  column : Nat
  /-- The text of the line. -/
  sourceLine : String := ""
deriving DecidableEq, Repr

/-- A diagnostic that is an error. -/
def Diagnostic.isError (d : Diagnostic) : Bool := d.severity == .error

end ScriptLint
