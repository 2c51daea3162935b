/-!
# Lexemes

The three kinds of token that a single look at the unread part of a line
recognises: identifiers, numbers and operators. Each matcher gives the length of
the longest lexeme of its kind that the text starts with, 0 if there is none.

## Main definitions

* `identifierLength`, `numberLength`, `operatorLength` — the matchers
* `reservedWords`, `reserved?` — words that are keywords, whatever their case
-/

namespace ScriptLint

/-! ### Character classes -/

/-- An ASCII letter, `_` or `$`. -/
def isIdentifierStart (c : Char) : Bool :=
  c.isAlpha || c == '_' || c == '$'

/-- An ASCII letter or digit, `_` or `$`. -/
def isIdentifierPart (c : Char) : Bool :=
  c.isAlphanum || c == '_' || c == '$'

/-- An ASCII digit of base 16, in either case. -/
def isHexDigit (c : Char) : Bool :=
  c.isDigit || ('a' ≤ c && c ≤ 'f') || ('A' ≤ c && c ≤ 'F')

/-- An octal digit. -/
def isOctalDigit (c : Char) : Bool := '0' ≤ c && c ≤ '7'

/-- A binary digit. -/
def isBinaryDigit (c : Char) : Bool := c == '0' || c == '1'

/-! ### Matchers -/

/-- Length of the longest `[A-Za-z_$][A-Za-z0-9_$]*` the text starts with. -/
def identifierLength : List Char → Nat
  | [] => 0
  | c :: rest =>
    if isIdentifierStart c then 1 + (rest.takeWhile isIdentifierPart).length else 0

/-- A count plus one if the text starts with `suffix`. -/
def countSuffix (suffix : Char) (count : Nat) (text : List Char) : Nat :=
  if text.head? = some suffix then count + 1 else count

/-- Length of the longest `0n?` or `[1-9][0-9]*n?` the text starts with. -/
def numberLength : List Char → Nat
  | [] => 0
  | c :: rest =>
    if c = '0' then countSuffix 'n' 1 rest
    else if c.isDigit then
      countSuffix 'n' (1 + (rest.takeWhile Char.isDigit).length) (rest.dropWhile Char.isDigit)
    else 0

/-- Length of the longest operator the text starts with.

Quotes, the backtick and the comment openers count as operators here. `/=` does
not: whether a slash divides is decided with the tokens before it. -/
def operatorLength : List Char → Nat
  | [] => 0
  | '.' :: rest => 1 + (rest.takeWhile (· == '.')).length
  | '?' :: '?' :: rest => countSuffix '=' 2 rest
  | '?' :: '.' :: _ => 2
  | '?' :: _ => 1
  | '=' :: '=' :: rest => countSuffix '=' 2 rest
  | '=' :: '>' :: _ => 2
  | '=' :: _ => 1
  | '*' :: '*' :: rest => countSuffix '=' 2 rest
  | '*' :: '/' :: _ => 2
  | '*' :: rest => countSuffix '=' 1 rest
  | '/' :: '*' :: _ => 2
  | '/' :: '/' :: _ => 2
  | '/' :: _ => 1
  | '+' :: '+' :: _ => 2
  | '+' :: rest => countSuffix '=' 1 rest
  | '-' :: '-' :: _ => 2
  | '-' :: rest => countSuffix '=' 1 rest
  | '^' :: rest => countSuffix '=' 1 rest
  | '%' :: rest => countSuffix '=' 1 rest
  | '&' :: '&' :: rest => countSuffix '=' 2 rest
  | '&' :: rest => countSuffix '=' 1 rest
  | '|' :: '|' :: rest => countSuffix '=' 2 rest
  | '|' :: rest => countSuffix '=' 1 rest
  | '>' :: '>' :: '>' :: rest => countSuffix '=' 3 rest
  | '>' :: '>' :: rest => countSuffix '=' 2 rest
  | '>' :: rest => countSuffix '=' 1 rest
  | '<' :: '<' :: rest => countSuffix '=' 2 rest
  | '<' :: rest => countSuffix '=' 1 rest
  | '!' :: '!' :: _ => 2
  | '!' :: '=' :: rest => countSuffix '=' 2 rest
  | '!' :: _ => 1
  | c :: _ =>
    if ['(', ')', '{', '}', '[', ']', ',', ':', ';', '\'', '"', '~', '\x60'].contains c then 1
    else 0

/-! ### Reserved words -/

/-- The reserved words, in lower case. -/
def reservedWords : List String :=
  ["await", "break", "case", "catch", "class", "const", "continue", "default", "delete", "do",
    "else", "enum", "export", "extends", "false", "true", "finally", "for", "function", "if",
    "implements", "import", "in", "instanceof", "interface", "let", "new", "null", "private",
    "protected", "public", "return", "super", "switch", "static", "this", "throw", "try",
    "typeof", "var", "void", "while", "with", "yield"]

/-- The reserved word that `word` spells, ignoring ASCII case. -/
def reserved? (word : String) : Option String :=
  reservedWords.find? (· == word.toLower)

end ScriptLint
