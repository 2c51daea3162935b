import ScriptLint.Global
import ScriptLint.Rule

/-!
# Settings

The configuration of a pass, resolved: what is set for each rule and flag, the length
limit, and the names to declare.

## Main definitions

* `Settings` — what a configuration sets
* `Settings.level`, `Settings.flag` — what holds, set or not
* `Settings.globals` — the globals known before a source is read
-/

namespace ScriptLint

/-- The length limit when none is set. -/
def defaultMaxLineLength : UInt64 := 80

/-- What a configuration sets. -/
structure Settings where
  /-- The level set for a rule. -/
  level? : Rule → Option Level := fun _ => none
  /-- The value set for a flag. -/
  flag? : OptionFlag → Option Bool := fun _ => none
  /-- The number of characters a line may have. -/
  maxLineLength : UInt64 := defaultMaxLineLength
  /-- Names that the language is to provide. -/
  languageGlobals : List String := []
  /-- Names that browsers are to provide, declared if the flag `browser` is on. -/
  browserGlobals : List String := []
  /-- Names that the user declares. -/
  userGlobals : List String := []

namespace Settings

/-- Sets the level of a rule. -/
def setLevel (s : Settings) (rule : Rule) (level : Level) : Settings :=
  { s with level? := fun r => if r = rule then some level else s.level? r }

/-- Sets a flag. -/
def setFlag (s : Settings) (flag : OptionFlag) (on : Bool) : Settings :=
  { s with flag? := fun f => if f = flag then some on else s.flag? f }

/-- The level of a rule, set or default. -/
def level (s : Settings) (rule : Rule) : Level := (s.level? rule).getD rule.defaultLevel

/-- Whether a flag is on. -/
def flag (s : Settings) (flag : OptionFlag) : Bool := (s.flag? flag).getD false

/-- The names of the environments that are switched on, over `globals`. -/
def overlayEnvironments (s : Settings) (globals : Globals) : Globals :=
  environmentFlags.foldl (fun g flag =>
    match flag.environment? with
    | some origin => if s.flag flag then g.overlay origin else g
    | none => g) globals

/-- The globals known before a source is read: those of the language, then those of the
environments switched on, then the configured names. -/
def globals (s : Settings) : Globals :=
  let g := (s.overlayEnvironments (({} : Globals).overlay .language)).declareAll
    s.languageGlobals .language
  let g := if s.flag .browser then g.declareAll s.browserGlobals .browser else g
  g.declareAll s.userGlobals .user

end Settings

end ScriptLint
