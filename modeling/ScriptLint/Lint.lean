import ScriptLint.Config.Document
import ScriptLint.Lexer
import ScriptLint.Result

/-!
# Linting texts

## Main definitions

* `lintText` — the result of a text under a path
* `verifyValue` — the diagnostics of a text under a configuration not yet read
-/

namespace ScriptLint

/-- The result of a text under a path. -/
def lintText (settings : Settings) (path : OsString) (text : String) : LintResult :=
  { path, diagnostics := verify settings text }

/-- The diagnostics of a text under a configuration given as a JSON value. A null
configuration, and one that cannot be read, give none. -/
def verifyValue (config : Json) (text : String) : List Diagnostic :=
  match Document.ofJson config with
  | .ok document => verify document.resolve text
  | .error _ => []

end ScriptLint
