/-!
# Option flags

The boolean options a configuration or a `/*jslint*/` directive may set.

## Main definitions

* `OptionFlag` — the flags
* `OptionFlag.all` — the catalog, in alphabetical order of the names
* `OptionFlag.ofName?` — a flag by its name
-/

namespace ScriptLint

/-- A boolean option. -/
inductive OptionFlag
  | beta
  | bitwise
  | browser
  | convert
  | couch
  | devel
  | ecma
  | eval
  | forLoops
  | getset
  | indent2
  | long
  | name
  | node
  | single
  | testCause
  | testInternalError
  | thisValue
  | trace
  | unordered
  | variableOrder
  | white
deriving DecidableEq, Repr

namespace OptionFlag

/-- Every flag, in catalog order. -/
def all : List OptionFlag :=
  [beta, bitwise, browser, convert, couch, devel, ecma, eval, forLoops, getset, indent2, long,
    name, node, single, testCause, testInternalError, thisValue, trace, unordered, variableOrder,
    white]

/-- The name of a flag in configurations and directives. -/
def key : OptionFlag → String
  | beta => "beta"
  | bitwise => "bitwise"
  | browser => "browser"
  | convert => "convert"
  | couch => "couch"
  | devel => "devel"
  | ecma => "ecma"
  | eval => "eval"
  | forLoops => "for"
  | getset => "getset"
  | indent2 => "indent2"
  | long => "long"
  | name => "name"
  | node => "node"
  | single => "single"
  | testCause => "test_cause"
  | testInternalError => "test_internal_error"
  | thisValue => "this"
  | trace => "trace"
  | unordered => "unordered"
  | variableOrder => "variable"
  | white => "white"

/-- The flag of a name. -/
def ofName? (text : String) : Option OptionFlag :=
  all.find? (·.key == text)

theorem mem_all (flag : OptionFlag) : flag ∈ all := by
  cases flag <;> decide

theorem ofName?_key (flag : OptionFlag) : ofName? flag.key = some flag := by
  cases flag <;> decide

end OptionFlag

end ScriptLint
