import ScriptLint.Diagnostic
import ScriptLint.Scan
import ScriptLint.Settings

/-!
# Lint passes

A pass scans a source and reads the events of the scan under a configuration. What a
directive sets holds from there on and goes before the configuration.

Here the scan ends before its events are read. The lexer that runs reports while it scans, and
comes to the same.

## Main definitions

* `Account` — what is set and reported so far
* `Account.record` — takes note of an event
* `Pass` — what a pass over a source gives
* `Pass.run` — the pass over a text
-/

namespace ScriptLint

/-! ### Accounts -/

/-- What directives have set so far, and what is reported. -/
structure Account where
  /-- The level a directive set for a rule. -/
  level? : Rule → Option Level := fun _ => none
  /-- The value a directive set for a flag. -/
  flag? : OptionFlag → Option Bool := fun _ => none
  /-- The globals known. -/
  globals : Globals
  /-- The properties named, newest first. -/
  properties : List String := []
  /-- The diagnostics, newest first. -/
  diagnostics : List Diagnostic := []

namespace Account

variable (source : Source) (settings : Settings)

/-- The level of a rule: what a directive set, else what the configuration sets, else
`unset`. -/
def level (a : Account) (rule : Rule) (unset : Level) : Level :=
  ((a.level? rule).or (settings.level? rule)).getD unset

/-- Whether a flag is on, by a directive or else by the configuration. -/
def flag (a : Account) (flag : OptionFlag) : Bool :=
  (a.flag? flag).getD (settings.flag flag)

/-- The diagnostic of a finding, at a place inside the source. -/
def diagnostic (finding : Finding) (severity : Severity) : Diagnostic :=
  let line := source.clampLine finding.line
  { severity
    rule := finding.rule
    message := finding.rule.message finding.args
    line
    column := source.clampColumn line finding.column
    sourceLine := source.textAt line }

/-- Adds a diagnostic. -/
def add (a : Account) (d : Diagnostic) : Account :=
  { a with diagnostics := d :: a.diagnostics }

/-- Reports a finding at the level of its rule, unless that is off or the line is quiet. -/
def report (a : Account) (finding : Finding) : Account :=
  match (a.level settings finding.rule finding.unset).severity? with
  | none => a
  | some severity =>
    if source.isQuiet (source.clampLine finding.line) then a
    else a.add (diagnostic source finding severity)

/-- Reports the fault that stopped a scan: always as an error, on quiet lines too, unless its
rule is off. -/
def reportFault (a : Account) (fault : Finding) : Account :=
  if a.level settings fault.rule .error = .off then a
  else a.add (diagnostic source fault .error)

/-- Takes note of an event. -/
def record (a : Account) : Event → Account
  | .found finding => a.report source settings finding
  | .lineLeft line =>
    let limit := settings.maxLineLength.toNat
    if source.lengthAt line > limit then
      a.report source settings
        { rule := .noLongLines, line, column := limit, args := [toString limit] }
    else a
  | .todo line column =>
    if a.flag settings .devel then a
    else a.report source settings { rule := .todoComment, line, column }
  | .levelSet rule level =>
    { a with level? := fun r => if r = rule then some level else a.level? r }
  | .flagSet flag on =>
    { a with
      flag? := fun f => if f = flag then some on else a.flag? f
      globals :=
        match flag.environment? with
        | some origin => if on then a.globals.overlay origin else a.globals
        | none => a.globals }
  | .globalDeclared name => { a with globals := a.globals.declare name .user }
  | .propertyNamed name => { a with properties := name :: a.properties }

/-- Takes note of events, in order. -/
def recordAll (a : Account) (events : List Event) : Account :=
  events.foldl (fun a event => a.record source settings event) a

/-- The account of a scan under a configuration. -/
def ofScan (scan : Scan) : Account :=
  let start : Account := { globals := settings.globals }
  let a := start.recordAll source settings scan.events
  match scan.fault with
  | none => a
  | some fault => a.reportFault source settings fault

end Account

/-! ### Passes -/

/-- **Abort**: where and why a pass stopped. -/
structure Abort where
  /-- The rule broken. -/
  rule : Rule
  /-- Line, from 1. -/
  line : Nat
  /-- Column, from 1. -/
  column : Nat
deriving DecidableEq, Repr

/-- The text of an abort. -/
def Abort.message (a : Abort) : String :=
  "lexing stopped at " ++ toString a.line ++ ":" ++ toString a.column ++ " (" ++ a.rule.key ++ ")"

/-- What a pass over a source gives. -/
structure Pass where
  /-- The tokens, all of them unless the pass was aborted. -/
  tokens : List Token
  /-- The diagnostics, in the order of their findings. -/
  diagnostics : List Diagnostic
  /-- The globals known at the end. -/
  globals : Globals
  /-- The properties named, each once, sorted. -/
  properties : List String
  /-- Why the pass stopped before the end of the source. -/
  abort : Option Abort

namespace Pass

/-- The pass over a source. -/
def ofSource (settings : Settings) (source : Source) : Pass :=
  let scan := scan source
  let account := Account.ofScan source settings scan
  { tokens := scan.tokens
    diagnostics := account.diagnostics.reverse
    globals := account.globals
    properties := (account.properties.eraseDups).mergeSort (· ≤ ·)
    abort := scan.fault.map fun fault =>
      let line := source.clampLine fault.line
      { rule := fault.rule, line, column := source.clampColumn line fault.column } }

/-- The pass over a text. -/
def run (settings : Settings) (text : String) : Pass := ofSource settings (.ofString text)

end Pass

end ScriptLint
