import ScriptLint.Diagnostic
import ScriptLint.Json.Value
import ScriptLint.Text.OsString

/-!
# Results

The diagnostics of one source under its path, and what they add up to over many.

## Main definitions

* `LintResult` — the diagnostics of a path
* `Summary` — the counts over results
* `EditorReport` — a diagnostic as editors take it, with zero-based positions
* `toJson`, `toJson?`, `ofJson?` — their written forms

## Design notes

A path need not be a text.  A result shows its path with replacements, but an editor report has to
name its file exactly, so it is not written if the path is no text.
-/

namespace ScriptLint

/-! ### Diagnostics as JSON -/

namespace Json

/-- A string. -/
def asString? : Json → Option String
  | string s => some s
  | _ => none

/-- A natural number of 64 bits. -/
def asNat? : Json → Option Nat
  | number (.natural n) => some n.toNat
  | _ => none

/-- The member of a name, or a value for it if there is none. -/
def memberOr (value : Json) (name : String) (other : Json) : Json :=
  (value.member? name).getD other

end Json

namespace Diagnostic

/-- Writes a diagnostic. -/
def toJson (d : Diagnostic) : Json :=
  .object
    [("code", .string d.rule.key),
      ("column", .ofNat d.column),
      ("line", .ofNat d.line),
      ("message", .string d.message),
      ("severity", .string d.severity.key),
      ("source_line", .string d.sourceLine)]

/-- The names of the members, in the order in which a list holds their values. -/
def memberNames : List String :=
  ["severity", "code", "message", "line", "column", "source_line"]

/-- Reads a diagnostic: an object, or the list of its values. Without a severity it is an
error, without a source line that is empty. Members of other names are ignored. -/
def ofJson? (value : Json) : Option Diagnostic := do
  let value ← value.withNames? memberNames
  let severity ← Severity.ofName? (← (value.memberOr "severity" (.string "error")).asChoice?)
  let rule ← Rule.ofName? (← (← value.member? "code").asChoice?)
  let message ← (← value.member? "message").asString?
  let line ← (← value.member? "line").asNat?
  let column ← (← value.member? "column").asNat?
  let sourceLine ← (value.memberOr "source_line" (.string "")).asString?
  return { severity, rule, message, line, column, sourceLine }

end Diagnostic

/-! ### Results -/

/-- The diagnostics of a source. -/
structure LintResult where
  /-- The path of the source. -/
  path : OsString
  /-- Its diagnostics. -/
  diagnostics : List Diagnostic
deriving DecidableEq, Repr

namespace LintResult

/-- Whether a diagnostic is an error. -/
def hasErrors (r : LintResult) : Bool := r.diagnostics.any (·.isError)

/-- Number of diagnostics of a severity. -/
def count (r : LintResult) (severity : Severity) : Nat :=
  r.diagnostics.countP (·.severity == severity)

/-- Number of errors. -/
def errors (r : LintResult) : Nat := r.count .error

/-- Number of warnings. -/
def warnings (r : LintResult) : Nat := r.count .warning

/-- Writes a result, with its path as it is printed. -/
def toJson (r : LintResult) : Json :=
  .object
    [("diagnostics", .array (r.diagnostics.map Diagnostic.toJson)),
      ("path", .string r.path.display)]

end LintResult

/-! ### Summaries -/

/-- The counts over some results. -/
structure Summary where
  /-- Number of results. -/
  filesChecked : Nat
  /-- Number of diagnostics. -/
  totalDiagnostics : Nat
  /-- Number of errors. -/
  errors : Nat
  /-- Number of warnings. -/
  warnings : Nat
  /-- Number of results with an error. -/
  filesWithErrors : Nat
deriving DecidableEq, Repr

/-- The summary of some results. -/
def Summary.ofResults (results : List LintResult) : Summary :=
  let diagnostics := results.flatMap (·.diagnostics)
  { filesChecked := results.length
    totalDiagnostics := diagnostics.length
    errors := diagnostics.countP (·.severity == .error)
    warnings := diagnostics.countP (·.severity == .warning)
    filesWithErrors := results.countP (·.hasErrors) }

/-! ### Editor reports -/

/-- A place as editors count: line and column from 0. -/
structure EditorPosition where
  /-- Line, from 0. -/
  line : Nat
  /-- Column, from 0. -/
  column : Nat
deriving DecidableEq, Repr

/-- A diagnostic as editors take it: the one character at its place. -/
structure EditorReport where
  /-- Its weight. -/
  severity : Severity
  /-- The path of the source. -/
  file : OsString
  /-- The place of the character. -/
  start : EditorPosition
  /-- The place after the character. -/
  stop : EditorPosition
  /-- The wording. -/
  message : String
  /-- The code of the rule. -/
  code : String
deriving DecidableEq, Repr

namespace EditorPosition

/-- Writes a position. -/
def toJson (p : EditorPosition) : Json :=
  .object [("line", .ofNat p.line), ("column", .ofNat p.column)]

/-- Reads a position. -/
def ofJson? (value : Json) : Option EditorPosition := do
  return ⟨← (← value.member? "line").asNat?, ← (← value.member? "column").asNat?⟩

end EditorPosition

namespace EditorReport

/-- The report of a diagnostic. A line or column 0 counts as the first. -/
def ofDiagnostic (file : OsString) (d : Diagnostic) : EditorReport where
  severity := d.severity
  file := file
  start := ⟨d.line - 1, d.column - 1⟩
  stop := ⟨d.line - 1, d.column - 1 + 1⟩
  message := d.message
  code := d.rule.key

/-- Writes a report with a text for its path. -/
def toJsonWith (r : EditorReport) (file : String) : Json :=
  .object
    [("severity", .string r.severity.key),
      ("file", .string file),
      ("start", r.start.toJson),
      ("end", r.stop.toJson),
      ("message", .string r.message),
      ("code", .string r.code)]

/-- Writes a report, if its path is a text. -/
def toJson? (r : EditorReport) : Option Json := r.file.text?.map r.toJsonWith

/-- A report is written unless its path is no text. -/
theorem toJson?_eq_none_iff {r : EditorReport} :
    r.toJson? = none ↔ ∀ text, r.file ≠ .ofText text := by
  rw [toJson?, Option.map_eq_none_iff, OsString.text?_eq_none_iff]

/-- Reads a report. -/
def ofJson? (value : Json) : Option EditorReport := do
  return {
    severity := ← Severity.ofName? (← (← value.member? "severity").asChoice?)
    file := .ofText (← (← value.member? "file").asString?)
    start := ← EditorPosition.ofJson? (← value.member? "start")
    stop := ← EditorPosition.ofJson? (← value.member? "end")
    message := ← (← value.member? "message").asString?
    code := ← (← value.member? "code").asString? }

end EditorReport

/-- The editor reports of a result, one for each diagnostic. -/
def LintResult.editorReports (r : LintResult) : List EditorReport :=
  r.diagnostics.map (.ofDiagnostic r.path)

end ScriptLint
