import ScriptLint.Lint
import ScriptLint.Workspace.Disk
import ScriptLint.Workspace.Path

/-!
# Linting files

Files and configurations looked up on a disk.

## Main definitions

* `FileError` — why a file cannot be linted
* `lintFile`, `lintFiles` — the result of a file, and of many
* `Document.discover`, `Document.ofFile` — finding and loading a configuration

## Design notes

A file that cannot be linted does not keep the others from it.
-/

namespace ScriptLint

/-! ### Files -/

/-- The number of bytes that a file may have. -/
def maxFileSize : Nat := 10 * 1024 * 1024

/-- Why a file cannot be linted. -/
inductive FileError
  /-- Its path leads nowhere. -/
  | noMetadata (path : OsString) (cause : PathError)
  /-- It is no regular file. -/
  | notRegular (path : OsString)
  /-- It has too many bytes. -/
  | tooLarge (path : OsString)
  /-- Its text cannot be read. -/
  | unreadable (path : OsString) (cause : ReadError)
deriving DecidableEq, Repr

/-- The text of a file error. -/
def FileError.message : FileError → String
  | noMetadata path cause =>
    "File error: Failed to read metadata for " ++ path.display ++ ": " ++ cause.message
  | notRegular path => "File error: Not a regular file: " ++ path.display
  | tooLarge path =>
    "File error: File size exceeds limit of " ++ toString maxFileSize ++ " bytes: " ++ path.display
  | unreadable path cause =>
    "File error: Failed to read " ++ path.display ++ ": " ++ cause.message

/-- A text without the byte order mark it may start with. -/
def dropByteOrderMark (text : String) : String :=
  match text.toList with
  | '\uFEFF' :: rest => String.ofList rest
  | _ => text

/-- The result of the file at a path. -/
def lintFile (find : Lookup) (settings : Settings) (path : OsString) :
    Except FileError LintResult :=
  match find.metadata path with
  | .error cause => .error (.noMetadata path cause)
  | .ok (.file size) =>
    if size > maxFileSize then .error (.tooLarge path)
    else
      match find.readText path with
      | .error cause => .error (.unreadable path cause)
      | .ok text => .ok (lintText settings path (dropByteOrderMark text))
  | .ok _ => .error (.notRegular path)

/-- What linting many files gives. -/
structure Batch where
  /-- The results of the files linted, in the order of the paths. -/
  results : List LintResult
  /-- The paths of the other files, in their order, with the reasons. -/
  failures : List (OsString × FileError)
deriving DecidableEq, Repr

/-- The batch of the outcomes for some paths. -/
def Batch.ofOutcomes (outcomes : List (OsString × Except FileError LintResult)) : Batch where
  results := outcomes.filterMap fun outcome => outcome.2.toOption
  failures := outcomes.filterMap fun outcome =>
    match outcome.2 with
    | .ok _ => none
    | .error e => some (outcome.1, e)

/-- The batch of the files at some paths. -/
def lintFiles (find : Lookup) (settings : Settings) (paths : List OsString) : Batch :=
  .ofOutcomes (paths.map fun path => (path, lintFile find settings path))

/-! ### Configurations -/

namespace Document

/-- The names a configuration file may have, the first preferred. -/
def fileNames : List String := [".lexlint.jsonc", ".lexlint.json"]

/-- The paths where a configuration for a directory may be, nearest first: in it, then in its
parents. -/
def candidates (start : OsString) : List OsString :=
  (Path.ancestors start).flatMap fun directory =>
    fileNames.map fun name : String => Path.join directory name

/-- The path of the configuration nearest to a directory. -/
def discover (find : Lookup) (start : OsString) : Option OsString :=
  (candidates start).find? find.isFile

/-- The document in the file at a path. -/
def ofFile (find : Lookup) (path : OsString) : Except ConfigError Document :=
  match find.readText path with
  | .error cause => .error (.unreadable cause.message)
  | .ok text => ofText text

end Document

end ScriptLint
