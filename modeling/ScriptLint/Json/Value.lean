import ScriptLint.Json.Binary64

/-!
# JSON values

## Main definitions

* `Json.Number` — a 64-bit integer or a floating-point number
* `Json` — a JSON value
* `Json.pretty` — the text of a value, over several lines

## Design notes

An object is the list of its members in the order of writing. Readers keep one
member for a name.
-/

namespace ScriptLint

/-- A JSON number. -/
inductive Json.Number
  /-- An integer of 64 bits, not below zero. -/
  | natural (n : UInt64)
  /-- An integer below zero, by its magnitude, of 63 bits and `2 ^ 63`. -/
  | negative (magnitude : UInt64)
  /-- Any other number. -/
  | real (x : Binary64)
deriving DecidableEq, Repr

/-- A JSON value. -/
inductive Json
  | null
  | bool (b : Bool)
  | number (n : Json.Number)
  | string (s : String)
  | array (items : List Json)
  | object (members : List (String × Json))
deriving Repr, Inhabited

namespace Json

/-! ### Numbers -/

/-- The number of signed integers of 64 bits that are not below zero. -/
def signedSize : Nat := Nat.pow 2 63

namespace Number

/-- The number of an integer: exact in 64 bits, else the nearest floating-point number. -/
def ofInt (n : Int) : Number :=
  match n with
  | .ofNat m =>
    if m < UInt64.size then natural m.toUInt64 else real ((Binary64.ofRatio? m 1).getD .zero)
  | .negSucc m =>
    if m < signedSize then negative (m + 1).toUInt64
    else real { (Binary64.ofRatio? (m + 1) 1).getD .zero with negative := true }

/-- Whether a number is an integer, however it is written. -/
def isInteger : Number → Bool
  | natural _ => true
  | negative _ => true
  | real x => x.isWhole

/-- Whether a number is zero or above. -/
def isNonnegative : Number → Bool
  | natural _ => true
  | negative m => m == 0
  | real x => x.isNonnegative

/-- The text of a number. -/
def toText : Number → String
  | natural n => toString n.toNat
  | negative m => "-" ++ toString m.toNat
  | real x => x.toText

end Number

/-- The number of a natural number. -/
def ofNat (n : Nat) : Json := number (.ofInt n)

/-! ### Members -/

/-- The member of a name. -/
def member? (value : Json) (name : String) : Option Json :=
  match value with
  | object members => members.lookup name
  | _ => none

/-- Sets the member of a name: replaces it, or adds it at the end. -/
def setMember (members : List (String × Json)) (name : String) (value : Json) :
    List (String × Json) :=
  if members.any (·.1 == name) then
    members.map fun m => if m.1 == name then (name, value) else m
  else members ++ [(name, value)]

/-- A record as the object of its members: that object, or the list of their values in the
order of their names, of which the last ones may be missing. -/
def withNames? (names : List String) : Json → Option Json
  | object members => some (object members)
  | array items => if items.length ≤ names.length then some (object (names.zip items)) else none
  | _ => none

/-- The name of a choice: a string, or an object with one member, of that name, that is null. -/
def asChoice? : Json → Option String
  | string s => some s
  | object [(name, null)] => some name
  | _ => none

/-! ### Printing -/

/-- A hexadecimal digit in lower case. -/
def hexDigit (n : Nat) : Char := "0123456789abcdef".toList.getD n '0'

/-- A character inside a string: quotes, backslashes and control characters are escaped. -/
def escapeChar (c : Char) : List Char :=
  match c with
  | '"' => ['\\', '"']
  | '\\' => ['\\', '\\']
  | '\n' => ['\\', 'n']
  | '\r' => ['\\', 'r']
  | '\t' => ['\\', 't']
  | '\x08' => ['\\', 'b']
  | '\x0c' => ['\\', 'f']
  | c =>
    if c.toNat < 0x20 then
      ['\\', 'u', '0', '0', hexDigit (c.toNat / 16), hexDigit (c.toNat % 16)]
    else [c]

/-- A string in quotes. -/
def quote (text : String) : String :=
  "\"" ++ String.ofList (text.toList.flatMap escapeChar) ++ "\""

/-- A line break and the indentation of a depth, two spaces each. -/
def newline (depth : Nat) : String :=
  "\n" ++ String.ofList (List.replicate (2 * depth) ' ')

mutual

/-- The text of a value at a depth: an item or member on each line, and nothing between the
brackets of an empty list or object. -/
def prettyAt (depth : Nat) : Json → String
  | null => "null"
  | bool b => if b then "true" else "false"
  | number n => n.toText
  | string s => quote s
  | array [] => "[]"
  | array (item :: items) =>
    "[" ++ newline (depth + 1) ++ prettyAt (depth + 1) item ++ prettyItems (depth + 1) items
      ++ newline depth ++ "]"
  | object [] => "\x7b\x7d"
  | object ((name, value) :: members) =>
    "\x7b" ++ newline (depth + 1) ++ quote name ++ ": " ++ prettyAt (depth + 1) value
      ++ prettyMembers (depth + 1) members ++ newline depth ++ "\x7d"

/-- The further items of a list. -/
def prettyItems (depth : Nat) : List Json → String
  | [] => ""
  | item :: items => "," ++ newline depth ++ prettyAt depth item ++ prettyItems depth items

/-- The further members of an object. -/
def prettyMembers (depth : Nat) : List (String × Json) → String
  | [] => ""
  | (name, value) :: members =>
    "," ++ newline depth ++ quote name ++ ": " ++ prettyAt depth value
      ++ prettyMembers depth members

end

/-- The text of a value. -/
def pretty (value : Json) : String := prettyAt 0 value

end Json

end ScriptLint
