import ScriptLint.OptionFlag

/-!
# Globals

The global names a source may use, each with where it comes from.

## Main definitions

* `Origin` — where a global comes from
* `Origin.names` — the names that come with an origin
* `Globals` — names with their origins
* `Globals.declare`, `Globals.overlay` — adds names; the last origin of a name wins
-/

namespace ScriptLint

/-! ### Built-in names -/

/-- Names that the language standard provides. -/
def languageNames : List String :=
  ["Array", "ArrayBuffer", "Atomics", "BigInt", "BigInt64Array", "BigUint64Array", "Boolean",
    "DataView", "Date", "Error", "EvalError", "Float32Array", "Float64Array", "Function",
    "Infinity", "Int16Array", "Int32Array", "Int8Array", "Intl", "JSON", "Map", "Math", "NaN",
    "Number", "Object", "Promise", "Proxy", "RangeError", "ReferenceError", "Reflect", "RegExp",
    "Set", "SharedArrayBuffer", "String", "Symbol", "SyntaxError", "TypeError", "URIError",
    "Uint16Array", "Uint32Array", "Uint8Array", "Uint8ClampedArray", "WeakMap", "WeakSet",
    "WebAssembly", "decodeURI", "decodeURIComponent", "encodeURI", "encodeURIComponent", "eval",
    "globalThis", "import", "isFinite", "isNaN", "parseFloat", "parseInt", "undefined"]

/-- Names that web browsers provide. -/
def browserNames : List String :=
  ["AbortController", "DOMException", "Event", "EventTarget", "FileReader", "FormData",
    "IntersectionObserver", "MessageChannel", "MessageEvent", "MessagePort", "MutationObserver",
    "TextDecoder", "TextEncoder", "URL", "URLSearchParams", "WebAssembly", "Worker",
    "XMLHttpRequest", "clearInterval", "clearTimeout", "document", "fetch", "importScripts",
    "indexedDb", "localStorage", "location", "navigator", "performance", "queueMicrotask",
    "sessionStorage", "setInterval", "setTimeout", "structuredClone", "window"]

/-- Names that Node.js provides. -/
def nodeNames : List String :=
  ["AbortController", "Buffer", "DOMException", "Event", "EventTarget", "MessageChannel",
    "MessageEvent", "MessagePort", "TextDecoder", "TextEncoder", "URL", "URLSearchParams",
    "WebAssembly", "__dirname", "__filename", "clearImmediate", "clearInterval", "clearTimeout",
    "console", "exports", "global", "module", "performance", "process", "queueMicrotask",
    "require", "setImmediate", "setInterval", "setTimeout", "structuredClone"]

/-- Names that the CouchDB query server provides. -/
def couchNames : List String :=
  ["emit", "getRow", "isArray", "log", "provides", "registerType", "require", "send", "start",
    "sum", "toJSON"]

/-- Console and dialog names for development. -/
def developmentNames : List String :=
  ["alert", "confirm", "console", "prompt"]

/-! ### Origins -/

/-- Where a global comes from. -/
inductive Origin
  /-- The language standard. -/
  | language
  /-- Web browsers. -/
  | browser
  /-- Node.js. -/
  | node
  /-- The CouchDB query server. -/
  | couch
  /-- Development helpers. -/
  | development
  /-- The user, in a configuration or a directive. -/
  | user
deriving DecidableEq, Repr

namespace Origin

/-- Every origin. -/
def all : List Origin := [language, browser, node, couch, development, user]

/-- The name of an origin. -/
def key : Origin → String
  | language => "ecma-script"
  | browser => "browser"
  | node => "node-js"
  | couch => "couch-db"
  | development => "development"
  | user => "user-defined"

/-- The name of an origin in reports. -/
def label : Origin → String
  | language => "ECMAScript"
  | browser => "browser"
  | node => "Node.js"
  | couch => "CouchDb"
  | development => "development"
  | user => "user-defined"

/-- The origin of a name. -/
def ofName? (text : String) : Option Origin := all.find? (·.key == text)

/-- The names that come with an origin. -/
def names : Origin → List String
  | language => languageNames
  | browser => browserNames
  | node => nodeNames
  | couch => couchNames
  | development => developmentNames
  | user => []

end Origin

/-! ### Environments -/

/-- The origin whose names a flag brings in: four flags stand for an environment. -/
def OptionFlag.environment? : OptionFlag → Option Origin
  | .browser => some .browser
  | .node => some .node
  | .couch => some .couch
  | .devel => some .development
  | _ => none

/-- The environment flags, in the order in which a configuration applies them. -/
def environmentFlags : List OptionFlag := [.browser, .node, .couch, .devel]

/-! ### Names with origins -/

/-- **Globals**: the declarations made, newest first. Of two declarations of a name the newer
one counts. -/
structure Globals where
  /-- The declarations, newest first. -/
  declarations : List (String × Origin) := []
deriving DecidableEq, Repr

namespace Globals

/-- The origin of a name. -/
def origin? (g : Globals) (name : String) : Option Origin := g.declarations.lookup name

/-- Declares a name. -/
def declare (g : Globals) (name : String) (origin : Origin) : Globals :=
  ⟨(name, origin) :: g.declarations⟩

/-- Declares several names. -/
def declareAll (g : Globals) (names : List String) (origin : Origin) : Globals :=
  names.foldl (·.declare · origin) g

/-- Declares the names that come with an origin. -/
def overlay (g : Globals) (origin : Origin) : Globals := g.declareAll origin.names origin

/-- The names, each once. -/
def names (g : Globals) : List String := (g.declarations.map (·.1)).eraseDups

/-- The names with their origins, each name once. -/
def toList (g : Globals) : List (String × Origin) :=
  g.names.filterMap fun name => (g.origin? name).map (name, ·)

theorem origin?_declare (g : Globals) (name other : String) (origin : Origin) :
    (g.declare name origin).origin? other =
      if other = name then some origin else g.origin? other := by
  by_cases h : other = name
  · simp [declare, origin?, h]
  · have : (other == name) = false := by simpa using h
    simp [declare, origin?, List.lookup_cons, h, this]

theorem origin?_declareAll (g : Globals) (names : List String) (other : String)
    (origin : Origin) :
    (g.declareAll names origin).origin? other =
      if other ∈ names then some origin else g.origin? other := by
  unfold declareAll
  induction names generalizing g with
  | nil => simp
  | cons name names ih =>
    by_cases h : other = name <;> by_cases h' : other ∈ names <;>
      simp_all [origin?_declare]

end Globals

end ScriptLint
