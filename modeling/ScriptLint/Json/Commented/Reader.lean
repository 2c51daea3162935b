import ScriptLint.Json.Commented.Number

/-!
# Reading JSON with comments

Besides comments, this format has single quotes, bare words as names, and commas that
may be missing or trail.

## Main definitions

* `Json.readCommented?` — the value of a text
-/

namespace ScriptLint.Json

/-- The name that a token gives to a member. -/
def Token.name? : Token → Option String
  | .string s => some s
  | .word s => some s
  | .number text => some (String.ofList text)
  | _ => none

/-- Drops one comma. -/
def dropComma : List Token → List Token
  | .comma :: rest => rest
  | tokens => tokens

mutual

/-- The value that some tokens start with, and the tokens after it. `fuel` bounds the calls. -/
def value? (fuel : Nat) (tokens : List Token) : Option (Json × List Token) :=
  match fuel, tokens with
  | fuel + 1, .openBrace :: rest => members? fuel [] rest
  | fuel + 1, .openBracket :: rest => items? fuel [] rest
  | _, .null :: rest => some (.null, rest)
  | _, .bool b :: rest => some (.bool b, rest)
  | _, .number text :: rest => some (ofNumberText text, rest)
  | _, .string s :: rest => some (.string s, rest)
  | _, _ => none

/-- The items of a list up to its bracket, after those read, newest first. -/
def items? (fuel : Nat) (read : List Json) (tokens : List Token) : Option (Json × List Token) :=
  match fuel, tokens with
  | _, .closeBracket :: rest => some (.array read.reverse, rest)
  | 0, _ => none
  | fuel + 1, tokens =>
    match value? fuel tokens with
    | none => none
    | some (item, rest) => items? fuel (item :: read) (dropComma rest)

/-- The members of an object up to its brace, after those read. Of two members of a name the
later one counts. -/
def members? (fuel : Nat) (read : List (String × Json)) (tokens : List Token) :
    Option (Json × List Token) :=
  match fuel, tokens with
  | _, .closeBrace :: rest => some (.object read, rest)
  | fuel + 1, token :: .colon :: rest =>
    match token.name?, value? fuel rest with
    | some name, some (value, rest) => members? fuel (setMember read name value) (dropComma rest)
    | _, _ => none
  | _, _ => none

end

/-- The value of a text; a text without one is an empty object. Two calls for each token are
enough. -/
def readCommented? (text : String) : Option Json :=
  match tokens? text.toList with
  | none => none
  | some [] => some (.object [])
  | some tokens =>
    match value? (2 * tokens.length) tokens with
    | some (value, []) => some value
    | _ => none

end ScriptLint.Json
