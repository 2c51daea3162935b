/-!
# Rules

The checks by name: their codes, the level each has when nobody sets one, and
the wording of their messages.

## Main definitions

* `Level` — off, warn or error
* `Rule` — the rule codes
* `Rule.defaultLevel`, `Rule.enabledLevel` — the level unset, and switched on
* `Rule.message` — the message of a finding with its arguments
-/

namespace ScriptLint

/-! ### Levels -/

/-- How a rule reports. -/
inductive Level
  /-- Never. -/
  | off
  /-- As a warning. -/
  | warn
  /-- As an error. -/
  | error
deriving DecidableEq, Repr

namespace Level

/-- The canonical spelling of a level. -/
def key : Level → String
  | off => "off"
  | warn => "warn"
  | error => "error"

/-- Reads a level; `warning` is a second spelling of `warn`. -/
def ofName? (text : String) : Option Level :=
  if text = "off" then some off
  else if text = "warn" ∨ text = "warning" then some warn
  else if text = "error" then some error
  else none

theorem ofName?_key (level : Level) : ofName? level.key = some level := by
  cases level <;> decide

end Level

/-! ### Codes -/

/-- A lint check. -/
inductive Rule
  | noLongLines
  | noTabs
  | noIrregularWhitespace
  | noFloatingDecimal
  | invalidNumeric
  | invalidRegex
  | unclosedString
  | unclosedComment
  | unclosedMega
  | unclosedDisable
  | unopenedEnable
  | unexpectedCharA
  | unexpectedA
  | unexpectedABeforeB
  | unexpectedComment
  | expectedA
  | expectedAB
  | expectedABeforeB
  | expectedDigitsAfterA
  | expectedFourDigits
  | expectedRegexpFactorA
  | tooManyDigits
  | missingM
  | wrapRegexp
  | nestedComment
  | todoComment
  | misplacedDirectiveA
  | badOptionA
  | badDirectiveA
deriving DecidableEq, Repr

namespace Rule

/-- Every rule, in catalog order. -/
def all : List Rule :=
  [noLongLines, noTabs, noIrregularWhitespace, noFloatingDecimal, invalidNumeric, invalidRegex,
    unclosedString, unclosedComment, unclosedMega, unclosedDisable, unopenedEnable,
    unexpectedCharA, unexpectedA, unexpectedABeforeB, unexpectedComment, expectedA, expectedAB,
    expectedABeforeB, expectedDigitsAfterA, expectedFourDigits, expectedRegexpFactorA,
    tooManyDigits, missingM, wrapRegexp, nestedComment, todoComment, misplacedDirectiveA,
    badOptionA, badDirectiveA]

/-- The code of a rule in configurations, directives and reports. -/
def key : Rule → String
  | noLongLines => "no_long_lines"
  | noTabs => "no_tabs"
  | noIrregularWhitespace => "no_irregular_whitespace"
  | noFloatingDecimal => "no_floating_decimal"
  | invalidNumeric => "invalid_numeric"
  | invalidRegex => "invalid_regex"
  | unclosedString => "unclosed_string"
  | unclosedComment => "unclosed_comment"
  | unclosedMega => "unclosed_mega"
  | unclosedDisable => "unclosed_disable"
  | unopenedEnable => "unopened_enable"
  | unexpectedCharA => "unexpected_char_a"
  | unexpectedA => "unexpected_a"
  | unexpectedABeforeB => "unexpected_a_before_b"
  | unexpectedComment => "unexpected_comment"
  | expectedA => "expected_a"
  | expectedAB => "expected_a_b"
  | expectedABeforeB => "expected_a_before_b"
  | expectedDigitsAfterA => "expected_digits_after_a"
  | expectedFourDigits => "expected_four_digits"
  | expectedRegexpFactorA => "expected_regexp_factor_a"
  | tooManyDigits => "too_many_digits"
  | missingM => "missing_m"
  | wrapRegexp => "wrap_regexp"
  | nestedComment => "nested_comment"
  | todoComment => "todo_comment"
  | misplacedDirectiveA => "misplaced_directive_a"
  | badOptionA => "bad_option_a"
  | badDirectiveA => "bad_directive_a"

/-- The rule of a code. -/
def ofName? (text : String) : Option Rule :=
  all.find? (·.key == text)

theorem mem_all (rule : Rule) : rule ∈ all := by
  cases rule <;> decide

theorem ofName?_key (rule : Rule) : ofName? rule.key = some rule := by
  cases rule <;> decide

theorem key_of_ofName? {text : String} {rule : Rule} (h : ofName? text = some rule) :
    rule.key = text := by
  unfold ofName? at h
  simpa using List.find?_some h

/-! ### Levels of a rule -/

/-- The level when neither a configuration nor a directive sets one: style rules
start switched off, and three rules start as errors. -/
def defaultLevel : Rule → Level
  | noLongLines | noTabs | noIrregularWhitespace => .off
  | nestedComment | unexpectedComment | expectedABeforeB => .error
  | _ => .warn

/-- The level of a rule switched on with a bare `true`: its default, or `warn` if
that is off. -/
def enabledLevel (rule : Rule) : Level :=
  match rule.defaultLevel with
  | .off => .warn
  | level => level

/-! ### Messages -/

/-- The message of a rule with its arguments.

An empty argument counts as absent: a rule with optional arguments then takes its
shorter wording. -/
def message (rule : Rule) (args : List String) : String :=
  let a := args.getD 0 ""
  let b := args.getD 1 ""
  match rule with
  | noLongLines => "Line is longer than " ++ a ++ " characters."
  | noTabs => "Use spaces, not tabs."
  | noIrregularWhitespace =>
    if a = "" then "Invalid or irregular whitespace."
    else if b = "" then "Invalid or irregular whitespace near '" ++ a ++ "'."
    else "Invalid or irregular whitespace between '" ++ a ++ "' and '" ++ b ++ "'."
  | noFloatingDecimal =>
    if a = "" then "A decimal point must be preceded or followed by a number."
    else "A decimal point must be preceded or followed by a number in '" ++ a ++ "'."
  | invalidNumeric => "Invalid character in numeric literal '" ++ a ++ "'."
  | invalidRegex =>
    if a = "" then "Invalid REGEX."
    else if b = "" then "Unexpected '" ++ a ++ "' in REGEX."
    else "Invalid REGEX '" ++ a ++ "', unexpected '" ++ b ++ "'."
  | unclosedString => "Unclosed string."
  | unclosedComment => "Unclosed comment."
  | unclosedMega => "Unclosed mega literal."
  | unclosedDisable =>
    "Directive '/*jslint-disable*/' was not closed with '/*jslint-enable*/'."
  | unopenedEnable =>
    "Directive '/*jslint-enable*/' was not opened with '/*jslint-disable*/'."
  | unexpectedCharA => "Unexpected character '" ++ a ++ "'."
  | unexpectedA => "Unexpected '" ++ a ++ "'."
  | unexpectedABeforeB => "Unexpected '" ++ a ++ "' before '" ++ b ++ "'."
  | unexpectedComment => "Unexpected comment."
  | expectedA => "Expected '" ++ a ++ "'."
  | expectedAB => "Expected '" ++ a ++ "' and instead saw '" ++ b ++ "'."
  | expectedABeforeB => "Expected '" ++ a ++ "' before '" ++ b ++ "'."
  | expectedDigitsAfterA => "Expected digits after '" ++ a ++ "'."
  | expectedFourDigits => "Expected four digits after '\\u'."
  | expectedRegexpFactorA => "Expected a regexp factor and instead saw '" ++ a ++ "'."
  | tooManyDigits => "Too many digits."
  | missingM => "Expected 'm' flag on a multiline regular expression."
  | wrapRegexp => "Wrap this regexp in parens to avoid confusion."
  | nestedComment => "Nested comment."
  | todoComment => "Unexpected TODO comment."
  | misplacedDirectiveA => "Place the '/*" ++ a ++ "*/' directive before the first statement."
  | badOptionA => "Bad option '" ++ a ++ "'."
  | badDirectiveA => "Bad directive '" ++ a ++ "'."

end Rule

end ScriptLint
