/-!
# Tokens

The tokens of a source and where they stand.

## Main definitions

* `Position` — a line, from 1, and a column, from 0
* `TokenKind` — the lexical categories
* `Token` — a token with its text and extent
-/

namespace ScriptLint

/-- A place between characters: `column` characters of `line` stand before it. -/
structure Position where
  /-- Line number, from 1. -/
  line : Nat
  /-- Number of characters before the place. -/
  column : Nat
deriving DecidableEq, Repr

/-- A lexical category. -/
inductive TokenKind
  | identifier
  | keyword
  | operator
  | number
  | string
  | regex
  | comment
  /-- The end of the source. -/
  | eof
deriving DecidableEq, Repr

/-- The name of a category. -/
def TokenKind.key : TokenKind → String
  | identifier => "identifier"
  | keyword => "keyword"
  | operator => "operator"
  | number => "number"
  | string => "string"
  | regex => "regex"
  | comment => "comment"
  | eof => "eof"

/-- A token. -/
structure Token where
  /-- Its category. -/
  kind : TokenKind
  /-- Its text; a string without its quotes, a comment without its delimiters. -/
  value : String
  /-- Before its first character. -/
  start : Position
  /-- After its last character. -/
  stop : Position
  /-- Number of tokens before it. -/
  nr : Nat
  /-- The reserved word it spells, ignoring case. -/
  keyword : Option String := none
  /-- The last token before it that is no comment is the operator `.`. -/
  precededByDot : Bool := false
  /-- The delimiter of a string. -/
  quote : Option Char := none
deriving DecidableEq, Repr

namespace Token

/-- An operator with the given text. -/
def isOperator (t : Token) (value : String) : Bool :=
  t.kind == .operator && t.value == value

/-- **Comment-like**: a comment or a regular expression, whose delimiters blur when two touch. -/
def isCommentLike (t : Token) : Bool :=
  t.kind == .comment || t.kind == .regex

/-- The reserved word a token acts as; the name of a property acts as none. -/
def actsAs (t : Token) : Option String :=
  if t.precededByDot then none else t.keyword

end Token

end ScriptLint
