import ScriptLint.Json.Commented.Reader
import ScriptLint.Settings

/-!
# Configuration documents

The configuration as it is written: options by name, and three lists of global names.

## Main definitions

* `OptionValue` — a flag, a number or a level
* `Document` — a configuration document
* `Document.ofJson`, `Document.ofText` — reading, with the reasons to refuse
* `Document.toJson` — writing
* `Document.resolve` — the settings a document stands for

## Design notes

A document is checked against its schema first. The schema takes any integer for an
option, also one written as a fraction or beyond 64 bits; reading does not.
-/

namespace ScriptLint

/-! ### Options -/

/-- The value of an option. -/
inductive OptionValue
  /-- On or off. -/
  | flag (on : Bool)
  /-- A number. -/
  | number (n : UInt64)
  /-- The level of a rule. -/
  | level (level : Level)
deriving DecidableEq, Repr

namespace OptionValue

/-- What the schema admits: a boolean, an integer not below zero, or the name of a level. -/
def isAdmitted : Json → Bool
  | .bool _ => true
  | .number n => n.isInteger && n.isNonnegative
  | .string s => (Level.ofName? s).isSome
  | _ => false

/-- Reads a value. -/
def ofJson? : Json → Option OptionValue
  | .bool b => some (flag b)
  | .number (.natural n) => some (number n)
  | .string s => (Level.ofName? s).map level
  | _ => none

/-- Writes a value. -/
def toJson : OptionValue → Json
  | flag b => .bool b
  | number n => .number (.natural n)
  | level l => .string l.key

end OptionValue

/-! ### Documents -/

/-- A configuration document. -/
structure Document where
  /-- The options, by name. -/
  options : List (String × OptionValue) := []
  /-- Names that the language is to provide. -/
  globals : List String := []
  /-- Names that browsers are to provide. -/
  globalsBrowser : List String := []
  /-- Names that the user declares. -/
  globalsUser : List String := []
deriving DecidableEq, Repr

/-- Why a configuration cannot be used. -/
inductive ConfigError
  /-- The text is no JSON text with comments. -/
  | invalidJson
  /-- The schema refuses the value. -/
  | refused
  /-- A value the schema admits cannot be read. -/
  | invalid
  /-- The file cannot be read, for a reason. -/
  | unreadable (reason : String)
deriving DecidableEq, Repr

/-- The text of a configuration error. -/
def ConfigError.message : ConfigError → String
  | invalidJson => "Configuration error: Invalid JSON"
  | refused => "Configuration error: Config validation failed"
  | invalid => "Configuration error: Invalid config"
  | unreadable reason => "Configuration error: Failed to read config: " ++ reason

namespace Document

/-! ### Reading -/

/-- A list of strings. -/
def isStringList : Json → Bool
  | .array items => items.all fun item => match item with
    | .string _ => true
    | _ => false
  | _ => false

/-- What the schema admits as a member of a document. -/
def isAdmittedMember (name : String) (value : Json) : Bool :=
  match name, value with
  | "$schema", .string _ => true
  | "options", .object members => members.all fun m => OptionValue.isAdmitted m.2
  | "globals", value | "globals_browser", value | "globals_user", value => isStringList value
  | _, _ => false

/-- What the schema admits as a document: an object of known members. -/
def isAdmitted : Json → Bool
  | .object members => members.all fun m => isAdmittedMember m.1 m.2
  | _ => false

/-- The strings of a list, none if it is missing. -/
def strings : Option Json → List String
  | some (.array items) => items.filterMap fun item => match item with
    | .string s => some s
    | _ => none
  | _ => []

/-- The options of an object, if all of them can be read. -/
def options? : Option Json → Option (List (String × OptionValue))
  | some (.object members) => members.mapM fun m => (OptionValue.ofJson? m.2).map (m.1, ·)
  | _ => some []

/-- Reads a document from a JSON value. -/
def ofJson (value : Json) : Except ConfigError Document :=
  if !isAdmitted value then .error .refused
  else
    match options? (value.member? "options") with
    | none => .error .invalid
    | some options => .ok
        { options
          globals := strings (value.member? "globals")
          globalsBrowser := strings (value.member? "globals_browser")
          globalsUser := strings (value.member? "globals_user") }

/-- Reads a document from a JSON text with comments. -/
def ofText (text : String) : Except ConfigError Document :=
  match Json.readCommented? text with
  | none => .error .invalidJson
  | some value => ofJson value

/-! ### Writing -/

/-- Writes a list of strings. -/
def stringsToJson (names : List String) : Json := .array (names.map .string)

/-- Writes a document. -/
def toJson (d : Document) : Json :=
  .object
    [("options", .object (d.options.map fun (name, value) => (name, value.toJson))),
      ("globals", stringsToJson d.globals),
      ("globals_browser", stringsToJson d.globalsBrowser),
      ("globals_user", stringsToJson d.globalsUser)]

/-! ### Resolving -/

/-- The name of the option with the length limit. -/
def maxLineLengthKey : String := "max_line_length"

/-- The level that a value gives to a rule; a number gives none. -/
def levelOf (rule : Rule) : OptionValue → Option Level
  | .level level => some level
  | .flag true => some rule.enabledLevel
  | .flag false => some .off
  | .number _ => none

/-- Applies an option. An unknown name, and a value of the wrong kind for its name, change
nothing. -/
def applyOption (s : Settings) (name : String) (value : OptionValue) : Settings :=
  match Rule.ofName? name, OptionFlag.ofName? name, value with
  | some rule, _, value =>
    match levelOf rule value with
    | some level => s.setLevel rule level
    | none => s
  | none, some flag, .flag on => s.setFlag flag on
  | none, none, .number n => if name = maxLineLengthKey then { s with maxLineLength := n } else s
  | none, _, _ => s

/-- The settings that a document stands for. -/
def resolve (d : Document) : Settings :=
  d.options.foldl (fun s (name, value) => applyOption s name value)
    { languageGlobals := d.globals
      browserGlobals := d.globalsBrowser
      userGlobals := d.globalsUser }

end Document

end ScriptLint
