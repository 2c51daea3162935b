import ScriptLint.Text.OsString

/-!
# Disks

What linting asks of a disk: what stands at a path, and what is read from there, links followed.

## Main definitions

* `PathError` — why the system refuses an answer
* `Found` — a regular file, a directory or something else
* `Lookup` — the answers for each path
* `Lookup.readText` — the text read from a path

## Design notes

The two questions have answers of their own.  A regular file may be closed to its reader, and
something that is no regular file, a pipe say, may still give bytes.
-/

namespace ScriptLint

/-- Why the system refuses an answer about a path. -/
inductive PathError
  /-- A component does not exist. -/
  | notFound
  /-- A component below which the path goes on is no directory. -/
  | notDirectory
  /-- What is to be read is a directory. -/
  | isDirectory
  /-- Links lead in a circle. -/
  | linkLoop
  /-- A component, or the path, is too long. -/
  | nameTooLong
  /-- The path holds a null character. -/
  | nullInName
  /-- Another cause, in the words of the system. -/
  | other (reason : String)
deriving DecidableEq, Repr

/-- The reason in words. -/
def PathError.message : PathError → String
  | notFound => "No such file or directory (os error 2)"
  | notDirectory => "Not a directory (os error 20)"
  | isDirectory => "Is a directory (os error 21)"
  | linkLoop => "Too many levels of symbolic links (os error 40)"
  | nameTooLong => "File name too long (os error 36)"
  | nullInName => "file name contained an unexpected NUL byte"
  | other reason => reason

/-- What stands at a path. -/
inductive Found
  /-- A regular file with some number of bytes. -/
  | file (size : Nat)
  /-- A directory. -/
  | directory
  /-- Something else: a device, a pipe. -/
  | special
deriving DecidableEq, Repr

/-- **Lookup**: what the system answers about each path. -/
structure Lookup where
  /-- What stands there. -/
  metadata : OsString → Except PathError Found
  /-- The bytes read from there. -/
  read : OsString → Except PathError ByteArray

/-- Why a path gives no text. -/
inductive ReadError
  /-- It cannot be read. -/
  | refused (cause : PathError)
  /-- Its bytes are no text. -/
  | notText
deriving DecidableEq, Repr

/-- The reason in words. -/
def ReadError.message : ReadError → String
  | refused cause => cause.message
  | notText => "stream did not contain valid UTF-8"

namespace Lookup

/-- Whether a regular file stands at a path. -/
def isFile (find : Lookup) (path : OsString) : Bool :=
  match find.metadata path with
  | .ok (.file _) => true
  | _ => false

/-- The text read from a path, encoded in UTF-8. -/
def readText (find : Lookup) (path : OsString) : Except ReadError String :=
  match find.read path with
  | .error cause => .error (.refused cause)
  | .ok content =>
    match String.fromUTF8? content with
    | some text => .ok text
    | none => .error .notText

end Lookup

/-! ### Reading texts -/

/-- Bytes are read as the text that they encode. -/
theorem fromUTF8?_eq_some_iff {content : ByteArray} {text : String} :
    String.fromUTF8? content = some text ↔ content = text.toUTF8 := by
  unfold String.fromUTF8?
  split
  · next hvalid =>
    rw [Option.some_inj, String.toUTF8_eq_toByteArray, ← String.toByteArray_inj]
    rfl
  · next hinvalid =>
    refine iff_of_false (fun h => nomatch h) ?_
    rintro rfl
    exact hinvalid (String.toUTF8_eq_toByteArray ▸ text.isValidUTF8)

namespace Lookup

variable {find : Lookup} {path : OsString}

/-- A text is read where the system gives its bytes. -/
theorem readText_eq_ok_iff {text : String} :
    find.readText path = .ok text ↔ find.read path = .ok text.toUTF8 := by
  unfold readText
  cases find.read path with
  | error cause => exact iff_of_false nofun nofun
  | ok content =>
    rw [Except.ok.injEq, ← fromUTF8?_eq_some_iff]
    cases htext : String.fromUTF8? content <;> simp [htext]

/-- A path cannot be read where the system refuses its bytes. -/
theorem readText_eq_refused_iff {cause : PathError} :
    find.readText path = .error (.refused cause) ↔ find.read path = .error cause := by
  unfold readText
  cases find.read path with
  | error cause => simp
  | ok content => cases htext : String.fromUTF8? content <;> simp [htext]

/-- What is read is no text where the bytes encode none. -/
theorem readText_eq_notText_iff :
    find.readText path = .error .notText ↔
      ∃ content, find.read path = .ok content ∧ ∀ text : String, content ≠ text.toUTF8 := by
  unfold readText
  cases find.read path with
  | error cause => simp
  | ok content =>
    simp only [Except.ok.injEq, exists_eq_left', ne_eq, ← fromUTF8?_eq_some_iff]
    cases String.fromUTF8? content <;> simp

end Lookup

end ScriptLint
