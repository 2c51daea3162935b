import ScriptLint.CommandLine.Arguments
import ScriptLint.Files
import ScriptLint.Workspace.Tree

/-!
# Runs

What a run of the program prints, changes and exits with.

## Main definitions

* `Disk` — what a run asks of a disk
* `Outcome` — what a run prints and exits with
* `Effect` — an outcome, or a file to write
* `run` — a run with some arguments
* `Tree.run` — a run in a working directory held in memory
-/

namespace ScriptLint

/-! ### Outcomes -/

/-- What a run asks of a disk. -/
structure Disk where
  /-- What the system answers about paths. -/
  find : Lookup
  /-- The directory of the run, if it can be told. -/
  here : Except PathError OsString

/-- What a run prints and exits with. -/
structure Outcome where
  /-- The exit code: 0, 1 if there is an error in what was linted, 2 if the run failed. -/
  exitCode : UInt8
  /-- What it prints. -/
  output : String := ""
  /-- What it prints beside about files that could not be linted. -/
  failures : String := ""
deriving DecidableEq, Repr

/-- A run that failed. -/
def Outcome.failure : Outcome := { exitCode := 2 }

/-- What a run comes to. -/
inductive Effect
  /-- It prints and exits. -/
  | report (outcome : Outcome)
  /-- It writes a text to a file of its directory, in the place of what stands there if
  `replace`, and fails if it may not. -/
  | write (name : OsString) (text : String) (replace : Bool)
deriving DecidableEq, Repr

/-! ### Listings -/

/-- The line of a diagnostic in a listing. -/
def Diagnostic.listed (d : Diagnostic) : String :=
  "  " ++ toString d.line ++ ":" ++ toString d.column ++ " " ++ d.severity.key ++ " ["
    ++ d.rule.key ++ "]: " ++ d.message ++ "\n"

/-- The block of a result in a listing; a result without diagnostics has none. -/
def LintResult.listed (r : LintResult) : String :=
  if r.diagnostics = [] then ""
  else "\n" ++ r.path.display ++ ":\n" ++ String.join (r.diagnostics.map Diagnostic.listed)

/-- The closing line of a listing. -/
def Summary.listed (s : Summary) : String :=
  "\nChecked " ++ toString s.filesChecked ++ " files, found " ++ toString s.totalDiagnostics
    ++ " issues (" ++ toString s.errors ++ " errors, " ++ toString s.warnings ++ " warnings)\n"

/-- Results in a form, if they have one: a report has to be written. -/
def render (format : Format) (results : List LintResult) : Option String :=
  match format with
  | .text =>
    some (String.join (results.map LintResult.listed) ++ (Summary.ofResults results).listed)
  | .json => some ((Json.array (results.map LintResult.toJson)).pretty ++ "\n")
  | .report => do
    let reports ← (results.flatMap (·.editorReports)).mapM EditorReport.toJson?
    return (Json.array reports).pretty ++ "\n"

/-- The list of the files that could not be linted; if there are none, it is left out. -/
def Batch.listed (b : Batch) : String :=
  if b.failures = [] then ""
  else
    "\n" ++ toString b.failures.length ++ " file(s) failed to lint:\n"
      ++ String.join (b.failures.map fun (path, e) =>
        "  " ++ path.display ++ ": " ++ e.message ++ "\n")

/-- A line of a catalog: a name in a column of 28 characters, and a value. -/
def catalogLine (name value : String) : String :=
  "  " ++ name ++ String.ofList (List.replicate (28 - name.length) ' ') ++ " " ++ value ++ "\n"

/-- The rules with their levels, and the options with their values. -/
def Settings.catalog (s : Settings) : String :=
  "Rules:\n" ++ String.join (Rule.all.map fun rule => catalogLine rule.key (s.level rule).key)
    ++ "\nOptions:\n" ++ catalogLine Document.maxLineLengthKey (toString s.maxLineLength.toNat)
    ++ String.join (OptionFlag.all.map fun flag =>
      catalogLine flag.key (if s.flag flag then "true" else "false"))

/-! ### Commands -/

/-- The name of the configuration file that the program writes. -/
def writtenName : OsString := ".lexlint.jsonc"

/-- The configuration that the program writes: the defaults, for editing. -/
def writtenText : String :=
  "\x7b\n"
    ++ "  \"$schema\": \"https://github.com/simorgh3196/lexlint/schemas/v1/config.json\",\n"
    ++ "  \"options\": \x7b\n"
    ++ "    \"max_line_length\": " ++ toString defaultMaxLineLength.toNat ++ ",\n"
    ++ "    \"no_long_lines\": \"off\",\n"
    ++ "    \"no_tabs\": \"off\",\n"
    ++ "    \"browser\": false,\n"
    ++ "    \"node\": false\n"
    ++ "  \x7d,\n"
    ++ "  \"globals\": [],\n"
    ++ "  \"globals_user\": []\n"
    ++ "\x7d\n"

/-- Why a run has no settings. -/
inductive LoadError
  /-- Its directory cannot be told, so that no configuration can be looked for. -/
  | lost (cause : PathError)
  /-- The configuration cannot be used. -/
  | unusable (reason : ConfigError)
deriving DecidableEq, Repr

namespace Disk

/-- The settings of the configuration at a path. -/
def load (disk : Disk) (path : OsString) : Except LoadError Settings :=
  match Document.ofFile disk.find path with
  | .error reason => .error (.unusable reason)
  | .ok document => .ok document.resolve

/-- The settings of a run: of the configuration named, else of the nearest one, else the
defaults. -/
def settings (disk : Disk) (config : Option OsString) : Except LoadError Settings :=
  match config, disk.here with
  | some path, _ => disk.load path
  | none, .error cause => .error (.lost cause)
  | none, .ok here =>
    match Document.discover disk.find here with
    | some path => disk.load path
    | none => .ok ({} : Document).resolve

end Disk

/-- Lints files. The files that could not be linted are listed first, so they are listed also
where the results cannot be printed. -/
def runLint (disk : Disk) (settings : Settings) (paths : List OsString) (format : Format) :
    Outcome :=
  let batch := lintFiles disk.find settings paths
  let bad := batch.failures ≠ [] ∨ batch.results.any (·.hasErrors)
  match render format batch.results with
  | none => { exitCode := 2, failures := batch.listed }
  | some output => { exitCode := if bad then 1 else 0, output, failures := batch.listed }

/-- Carries out a command that needs the settings of its run. -/
def Disk.withSettings (disk : Disk) (config : Option OsString) (command : Settings → Outcome) :
    Outcome :=
  match disk.settings config with
  | .error _ => .failure
  | .ok settings => command settings

/-- Carries out an invocation. -/
def Invocation.run (i : Invocation) (disk : Disk) : Effect :=
  match i.command with
  | .init force => .write writtenName writtenText force
  | .lint paths format =>
    .report (disk.withSettings i.config fun settings => runLint disk settings paths format)
  | .rules =>
    .report (disk.withSettings i.config fun settings =>
      { exitCode := 0, output := settings.catalog })

/-- The text about the version. -/
def versionText : String := "lexlint 0.1.0\n"

/-- The text about the usage. -/
def usageText : String :=
  "Usage: lexlint [--config PATH] [--verbose] lint PATH... [--format text|json|report]\n"
    ++ "       lexlint init [--force]\n"
    ++ "       lexlint [--config PATH] rules\n"

/-- A run with some arguments. -/
def run (disk : Disk) (args : List OsString) : Effect :=
  match Invocation.parse args with
  | .ok invocation => invocation.run disk
  | .error .version => .report { exitCode := 0, output := versionText }
  | .error .help => .report { exitCode := 0, output := usageText }
  | .error .usage => .report .failure

/-- The paths where the configuration of a run may be, if it starts in a directory. -/
def configurationPaths (here : Except PathError OsString) : Option OsString → List OsString
  | some path => [path]
  | none =>
    match here with
    | .error _ => []
    | .ok here => Document.candidates here

/-- The paths at which a run looks, if it starts in a directory. -/
def lookedUp (here : Except PathError OsString) (args : List OsString) : List OsString :=
  match Invocation.parse args with
  | .error _ => []
  | .ok invocation =>
    match invocation.command with
    | .lint paths _ => configurationPaths here invocation.config ++ paths
    | .rules => configurationPaths here invocation.config
    | .init _ => []

/-! ### Runs in memory -/

namespace Tree

/-- The disk that a tree is. -/
def disk (t : Tree) : Disk where
  find := t.find
  here := .ok ""

/-- Carries out an effect in the working directory: the outcome, and the directory after it. -/
def perform (t : Tree) : Effect → Outcome × Tree
  | .report outcome => (outcome, t)
  | .write name text replace =>
    match t.write name text.toUTF8 replace with
    | .ok t => ({ exitCode := 0 }, t)
    | .error _ => (.failure, t)

/-- A run in the working directory, and the working directory after it. -/
def run (t : Tree) (args : List OsString) : Outcome × Tree :=
  t.perform (ScriptLint.run t.disk args)

end Tree

end ScriptLint
