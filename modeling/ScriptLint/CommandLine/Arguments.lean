import ScriptLint.Text.OsString

/-!
# Arguments

The command line as its arguments spell it.

## Main definitions

* `Format` — the forms of a lint report
* `Command` — what the program is asked to do
* `Invocation` — a command with the configuration named for it
* `Invocation.parse` — reads arguments

## Design notes

Arguments are read one at a time, so the first one that ends the reading, be it wrong
or a question for the version, decides.  They are strings of the system: paths may be any, while
every name is a text.
-/

namespace ScriptLint

/-- The form of a lint report. -/
inductive Format
  /-- A listing to read. -/
  | text
  /-- The results as JSON. -/
  | json
  /-- The editor reports as JSON. -/
  | report
deriving DecidableEq, Repr

/-- The form of a name. -/
def Format.ofName? (name : OsString) : Option Format :=
  if name = "text" then some text
  else if name = "json" then some json
  else if name = "report" then some report
  else none

/-- What the program is asked to do. -/
inductive Command
  /-- Lint files. -/
  | lint (paths : List OsString) (format : Format)
  /-- Write a configuration. -/
  | init (force : Bool)
  /-- List the rules and options. -/
  | rules
deriving DecidableEq, Repr

/-- A command and the configuration named for it. -/
structure Invocation where
  /-- The command. -/
  command : Command
  /-- The path of the configuration. -/
  config : Option OsString
deriving DecidableEq, Repr

/-- Why arguments give no invocation. -/
inductive Stop
  /-- They ask for the version. -/
  | version
  /-- They ask for help. -/
  | help
  /-- They are wrong. -/
  | usage
deriving DecidableEq, Repr

namespace Arguments

/-- The command to which the next arguments belong. -/
inductive Scope
  /-- None yet. -/
  | top
  | lint
  | init
  | rules
  /-- The help on a command still to be named. -/
  | help
  /-- The help on a command. -/
  | helpOn
deriving DecidableEq, Repr

/-- An option that takes a value. -/
inductive Valued
  | config
  | format
deriving DecidableEq, Repr

/-- What was read so far. -/
structure Progress where
  /-- The command whose arguments come next. -/
  scope : Scope := .top
  /-- The configuration named before the command. -/
  outerConfig : Option OsString := none
  /-- The configuration named since. -/
  config : Option OsString := none
  /-- Verbose output was asked for since. -/
  verbose : Bool := false
  /-- The form named. -/
  format : Option Format := none
  /-- Overwriting was asked for. -/
  force : Bool := false
  /-- The paths named, newest first. -/
  paths : List OsString := []
  /-- The option whose value comes next. -/
  pending : Option Valued := none
  /-- No more options: everything is a path. -/
  optionsEnded : Bool := false
deriving Repr

/-- A step of the reading. -/
abbrev Read := Except Stop Progress

/-- Gives a value to an option. An option takes one value, a configuration has a path, and a
form a name. -/
def setValue (p : Progress) (option : Valued) (value : OsString) : Read :=
  let p := { p with pending := none }
  match option with
  | .config =>
    if p.config.isSome ∨ value = "" then .error .usage else .ok { p with config := some value }
  | .format =>
    match p.format, Format.ofName? value with
    | none, some format => .ok { p with format := some format }
    | _, _ => .error .usage

/-- Switches a flag on, once. -/
def setVerbose (p : Progress) : Read :=
  if p.verbose then .error .usage else .ok { p with verbose := true }

/-- Switches overwriting on, once. -/
def setForce (p : Progress) : Read :=
  if p.force then .error .usage else .ok { p with force := true }

/-- The option of a long name that takes a value, where a command has it. -/
def valued? (scope : Scope) (name : OsString) : Option Valued :=
  if name = "config" then some .config
  else if name = "format" ∧ scope = .lint then some .format
  else none

/-- Reads an option with a long name, and a value after an equals sign if there is one. -/
def readLong (p : Progress) (name : OsString) (value : Option OsString) : Read :=
  match valued? p.scope name, value with
  | some option, some value => setValue p option value
  | some option, none => .ok { p with pending := some option }
  | none, some _ => .error .usage
  | none, none =>
    if name = "verbose" then setVerbose p
    else if name = "force" ∧ p.scope = .init then setForce p
    else if name = "version" ∧ p.scope = .top then .error .version
    else if name = "help" then .error .help
    else .error .usage

/-- Reads options with one-letter names, run together. A letter that takes a value takes the
rest, without an equals sign before it, or else the next argument. -/
def readShorts (p : Progress) : List UInt8 → Read
  | [] => .ok p
  | b :: rest =>
    let option : Option Valued :=
      if b = 'c'.toUInt8 then some .config
      else if b = 'f'.toUInt8 ∧ p.scope = .lint then some .format
      else none
    match option, rest with
    | some option, [] => .ok { p with pending := some option }
    | some option, sign :: value =>
      setValue p option ⟨if sign = '='.toUInt8 then value else sign :: value⟩
    | none, rest =>
      if b = 'v'.toUInt8 then
        match setVerbose p with
        | .ok p => readShorts p rest
        | .error stop => .error stop
      else if b = 'V'.toUInt8 ∧ p.scope = .top then .error .version
      else if b = 'h'.toUInt8 then .error .help
      else .error .usage

/-- Enters a command. What is named from here on goes before what was named above. -/
def enter (p : Progress) (scope : Scope) : Progress :=
  { scope, outerConfig := p.config }

/-- Reads an argument that is no option: a command, or a path of a file to lint. -/
def readPlain (p : Progress) (arg : OsString) : Read :=
  match p.scope with
  | .top =>
    if p.optionsEnded then .error .usage
    else if arg = "lint" then .ok (enter p .lint)
    else if arg = "init" then .ok (enter p .init)
    else if arg = "rules" then .ok (enter p .rules)
    else if arg = "help" then .ok (enter p .help)
    else .error .usage
  | .lint => if arg = "" then .error .usage else .ok { p with paths := arg :: p.paths }
  | _ => .error .usage

/-- Reads the name of a command to help with. -/
def readTopic (p : Progress) (arg : OsString) : Read :=
  if arg = "lint" ∨ arg = "init" ∨ arg = "rules" ∨ arg = "help" then
    .ok { p with scope := .helpOn }
  else .error .usage

/-- Whether an argument is made like an option. A hyphen alone is not. -/
def isOption (arg : OsString) : Bool := arg.bytes.head? == some '-'.toUInt8 && arg != "-"

/-- Reads an argument. -/
def read (p : Progress) (arg : OsString) : Read :=
  if p.scope = .help then readTopic p arg
  else if p.scope = .helpOn then .error .usage
  else
    match p.pending with
    | some option => if isOption arg then .error .usage else setValue p option arg
    | none =>
      if p.optionsEnded ∨ !isOption arg then readPlain p arg
      else if arg = "--" then .ok { p with optionsEnded := true }
      else
        match arg.after? "--" with
        | some text =>
          let name : OsString := ⟨text.bytes.takeWhile (· != '='.toUInt8)⟩
          match text.bytes.dropWhile (· != '='.toUInt8) with
          | [] => readLong p name none
          | _ :: value => readLong p name (some ⟨value⟩)
        | none => readShorts p (arg.bytes.drop 1)

/-- The invocation that was read, once no argument is left. -/
def finish (p : Progress) : Except Stop Invocation :=
  if p.pending.isSome then .error .usage
  else
    let config := p.config.or p.outerConfig
    match p.scope with
    | .top => .error .usage
    | .lint =>
      if p.paths = [] then .error .usage
      else .ok { command := .lint p.paths.reverse (p.format.getD .text), config }
    | .init => .ok { command := .init p.force, config }
    | .rules => .ok { command := .rules, config }
    | .help | .helpOn => .error .help

end Arguments

/-- Reads the arguments of the program. -/
def Invocation.parse (args : List OsString) : Except Stop Invocation :=
  match args.foldlM Arguments.read {} with
  | .error stop => .error stop
  | .ok progress => Arguments.finish progress

end ScriptLint
