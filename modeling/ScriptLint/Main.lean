import ScriptLint.CommandLine.Run

/-!
# The program

Runs on the disk of the machine: looks up the paths that a run needs, prints what it prints
and writes what it writes.
-/

namespace ScriptLint

/-- The number that the system has for an error, which may come negated. -/
def systemNumber (code : UInt32) : Nat := code.toInt32.toInt.natAbs

/-- Why a read failed. -/
def pathErrorOf : IO.Error → PathError
  | .noFileOrDirectory _ _ _ => .notFound
  | .inappropriateType _ code _ => if systemNumber code = 21 then .isDirectory else .notDirectory
  | .invalidArgument _ code reason =>
    if systemNumber code = 40 then .linkLoop
    else if systemNumber code = 36 then .nameTooLong
    else .other reason
  | e => .other (toString e)

/-- What is read from a path of the machine. -/
def readOnMachine (path : OsString) : IO (Except PathError ByteArray) := do
  try
    return .ok (← IO.FS.readBinFile path.display)
  catch e => return .error (pathErrorOf e)

/-- The answers of the machine, as far as it was asked. What gives bytes counts as a file. -/
def lookupOnMachine (answers : List (OsString × Except PathError ByteArray)) : Lookup where
  metadata path :=
    match answers.lookup path with
    | some (.ok content) => .ok (.file content.size)
    | some (.error .isDirectory) => .ok .directory
    | some (.error cause) => .error cause
    | none => .error .notFound
  read path := (answers.lookup path).getD (.error .notFound)

/-- Writes a text to a new file, in the place of what stands there if `replace`. -/
def writeOnMachine (name text : String) (replace : Bool) : IO Unit := do
  let create : IO Unit := do
    let handle ← IO.FS.Handle.mk name .writeNew
    handle.putStr text
  try create
  catch
    | .alreadyExists file code reason =>
      if replace then
        IO.FS.removeFile name
        create
      else throw (.alreadyExists file code reason)
    | e => throw e

/-- Carries out an effect on the machine. -/
def performOnMachine : Effect → IO UInt32
  | .report outcome => do
    (← IO.getStderr).putStr outcome.failures
    IO.print outcome.output
    return outcome.exitCode.toUInt32
  | .write name text replace => do
    try
      writeOnMachine name.display text replace
      return 0
    catch e =>
      (← IO.getStderr).putStr (toString e ++ "\n")
      return 2

/-- The directory of the run. -/
def hereOnMachine : IO (Except PathError OsString) := do
  try
    return .ok (.ofText (toString (← IO.currentDir)))
  catch e => return .error (pathErrorOf e)

end ScriptLint

open ScriptLint in
/-- The program. -/
def main (args : List String) : IO UInt32 := do
  let args := args.map OsString.ofText
  let here ← hereOnMachine
  let answers ← (lookedUp here args).mapM fun path => return (path, ← readOnMachine path)
  performOnMachine (run { find := lookupOnMachine answers, here } args)
