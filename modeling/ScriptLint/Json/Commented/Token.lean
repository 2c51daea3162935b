import ScriptLint.Lexeme
import ScriptLint.Text.Alphabet
import ScriptLint.Text.Blank

/-!
# Tokens of JSON with comments

## Main definitions

* `Json.Token` — the tokens
* `Json.tokens?` — the tokens of a text, if all of it can be read
-/

namespace ScriptLint.Json

/-- A token of a JSON text with comments. -/
inductive Token
  | openBrace
  | closeBrace
  | openBracket
  | closeBracket
  | comma
  | colon
  | null
  | bool (b : Bool)
  /-- A number, as written. -/
  | number (text : List Char)
  /-- A string, decoded. -/
  | string (s : String)
  /-- A bare word. -/
  | word (s : String)
deriving DecidableEq, Repr

/-! ### Numbers -/

/-- A run of digits, at least one. -/
def someDigits? (digit : Char → Bool) (text : List Char) : Option (List Char × List Char) :=
  match text.takeWhile digit with
  | [] => none
  | digits => some (digits, text.dropWhile digit)

/-- An optional sign of a set. -/
def takeSign (text : List Char) : List Char × List Char :=
  match text with
  | '+' :: rest => (['+'], rest)
  | '-' :: rest => (['-'], rest)
  | _ => ([], text)

/-- A point and digits, if a point comes next. -/
def takeFraction? (text : List Char) : Option (List Char × List Char) :=
  match text with
  | '.' :: rest => (someDigits? Char.isDigit rest).map fun (digits, rest) => ('.' :: digits, rest)
  | _ => some ([], text)

/-- `e` or `E`, an optional sign and digits, if such a letter comes next. -/
def takeExponent? (text : List Char) : Option (List Char × List Char) :=
  match text with
  | c :: rest =>
    if c = 'e' ∨ c = 'E' then
      let (sign, rest) := takeSign rest
      (someDigits? Char.isDigit rest).map fun (digits, rest) => (c :: sign ++ digits, rest)
    else some ([], text)
  | [] => some ([], text)

/-- A number: an optional sign, then `0x` and hexadecimal digits, or a whole part without
leading zeros, an optional fraction and an optional exponent. -/
def takeNumber? (text : List Char) : Option (List Char × List Char) :=
  let (sign, rest) := takeSign text
  let tail (whole rest : List Char) : Option (List Char × List Char) := do
    let (fraction, rest) ← takeFraction? rest
    let (exponent, rest) ← takeExponent? rest
    return (sign ++ whole ++ fraction ++ exponent, rest)
  match rest with
  | '0' :: 'x' :: rest =>
    (someDigits? isHexDigit rest).map fun (digits, rest) => (sign ++ '0' :: 'x' :: digits, rest)
  | '0' :: 'X' :: rest =>
    (someDigits? isHexDigit rest).map fun (digits, rest) => (sign ++ '0' :: 'X' :: digits, rest)
  | '0' :: rest => tail ['0'] rest
  | _ => (someDigits? Char.isDigit rest).bind fun (digits, rest) => tail digits rest

/-! ### Strings -/

/-- The value of hexadecimal digits. -/
def hexValue (digits : List Char) : Nat :=
  digits.foldl (fun n c =>
    16 * n +
      if c.isDigit then c.toNat - '0'.toNat
      else if 'a' ≤ c then c.toNat - 'a'.toNat + 10
      else c.toNat - 'A'.toNat + 10) 0

/-- The code unit of exactly four hexadecimal digits. -/
def codeUnit? (text : List Char) : Option (Nat × List Char) :=
  let digits := text.take 4
  if digits.length = 4 ∧ digits.all isHexDigit then some (hexValue digits, text.drop 4) else none

/-- The character of an escape after `\u`. A high surrogate needs a low one after it. -/
def unicodeEscape? (text : List Char) : Option (Char × List Char) := do
  let (unit, rest) ← codeUnit? text
  if 0xD800 ≤ unit ∧ unit < 0xDC00 then
    match rest with
    | '\\' :: 'u' :: rest =>
      let (low, rest) ← codeUnit? rest
      if 0xDC00 ≤ low ∧ low < 0xE000 then
        some (Char.ofNat (0x10000 + (unit - 0xD800) * 0x400 + (low - 0xDC00)), rest)
      else none
    | _ => none
  else if 0xDC00 ≤ unit ∧ unit < 0xE000 then none
  else some (Char.ofNat unit, rest)

/-- The character of an escape after its backslash, in a string with the given quote. -/
def escape? (quote : Char) (text : List Char) : Option (Char × List Char) :=
  match text with
  | 'u' :: rest => unicodeEscape? rest
  | 'b' :: rest => some ('\x08', rest)
  | 'f' :: rest => some ('\x0c', rest)
  | 'n' :: rest => some ('\n', rest)
  | 'r' :: rest => some ('\r', rest)
  | 't' :: rest => some ('\t', rest)
  | c :: rest => if c = '\\' ∨ c = '/' ∨ c = quote then some (c, rest) else none
  | [] => none

theorem length_of_codeUnit? {text rest : List Char} {unit : Nat}
    (h : codeUnit? text = some (unit, rest)) : rest.length < text.length := by
  unfold codeUnit? at h
  extract_lets digits at h
  split at h
  · next hd =>
    obtain ⟨-, rfl⟩ := Prod.mk.inj (Option.some.inj h)
    have := hd.1
    simp [digits] at this ⊢; omega
  · simp at h

theorem length_of_unicodeEscape? {text rest : List Char} {c : Char}
    (h : unicodeEscape? text = some (c, rest)) : rest.length < text.length := by
  unfold unicodeEscape? at h
  cases hu : codeUnit? text with
  | none => simp [hu] at h
  | some unit =>
    have hlen := length_of_codeUnit? hu
    simp only [hu, Option.bind_eq_bind, Option.bind_some] at h
    split at h
    · split at h
      · next after hafter =>
        cases hl : codeUnit? after with
        | none => simp [hl] at h
        | some low =>
          have := length_of_codeUnit? hl
          simp only [hl, Option.bind_some] at h
          split at h
          · obtain ⟨-, rfl⟩ := Prod.mk.inj (Option.some.inj h)
            have : unit.2.length = after.length + 2 := by simp [hafter]
            omega
          · simp at h
      · simp at h
    · split at h
      · simp at h
      · obtain ⟨-, rfl⟩ := Prod.mk.inj (Option.some.inj h)
        exact hlen

theorem length_of_escape? {quote c : Char} {text rest : List Char}
    (h : escape? quote text = some (c, rest)) : rest.length < text.length := by
  unfold escape? at h
  split at h
  case h_1 =>
    have := length_of_unicodeEscape? h
    simp; omega
  case h_7 =>
    split at h
    · obtain ⟨-, rfl⟩ := Prod.mk.inj (Option.some.inj h)
      simp
    · simp at h
  case h_8 => simp at h
  all_goals
    obtain ⟨-, rfl⟩ := Prod.mk.inj (Option.some.inj h)
    simp

/-- The contents of a string up to its quote, after those read, newest first, and the text
after the quote. -/
def takeString? (quote : Char) (read : List Char) (text : List Char) :
    Option (String × List Char) :=
  match text with
  | [] => none
  | c :: rest =>
    if c = quote then some (String.ofList read.reverse, rest)
    else if c = '\\' then
      match _h : escape? quote rest with
      | none => none
      | some (d, rest') => takeString? quote (d :: read) rest'
    else takeString? quote (c :: read) rest
termination_by text.length
decreasing_by
  · have := length_of_escape? _h; simp; omega
  · simp

/-! ### Words and comments -/

/-- The text after a word that ends there: the next character is not alphanumeric. -/
def afterWord? (word : String) (text : List Char) : Option (List Char) :=
  let rest := text.drop word.length
  if word.toList.isPrefixOf text ∧ ¬rest.head?.any isAlphanumeric then some rest else none

/-- A bare word: everything up to a blank or a colon, which must be alphanumeric characters,
hyphens and underscores. -/
def takeWord? (text : List Char) : Option (List Char × List Char) :=
  let ends (c : Char) : Bool := isBlank c || c == ':'
  let word := text.takeWhile (!ends ·)
  if !word.isEmpty && word.all (fun c => isAlphanumeric c || c == '-' || c == '_') then
    some (word, text.dropWhile (!ends ·))
  else none

/-- The text after the end of a block comment. -/
def afterBlockComment? : List Char → Option (List Char)
  | '*' :: '/' :: rest => some rest
  | _ :: rest => afterBlockComment? rest
  | [] => none

/-! ### Texts -/

/-- The next token, or none for a comment or blank, and the rest. -/
def nextToken? (c : Char) (rest : List Char) : Option (Option Token × List Char) :=
  if isBlank c then some (none, rest)
  else
    match c, rest with
    | '{', _ => some (some .openBrace, rest)
    | '}', _ => some (some .closeBrace, rest)
    | '[', _ => some (some .openBracket, rest)
    | ']', _ => some (some .closeBracket, rest)
    | ',', _ => some (some .comma, rest)
    | ':', _ => some (some .colon, rest)
    | '"', _ => (takeString? '"' [] rest).map fun (s, rest) => (some (.string s), rest)
    | '\'', _ => (takeString? '\'' [] rest).map fun (s, rest) => (some (.string s), rest)
    | '/', '/' :: _ => some (none, rest.dropWhile (· != '\n'))
    | '/', '*' :: rest => (afterBlockComment? rest).map (none, ·)
    | '/', _ => none
    | _, _ =>
      let text := c :: rest
      if c = '+' ∨ c = '-' ∨ c.isDigit then
        (takeNumber? text).map fun (digits, rest) => (some (.number digits), rest)
      else
        (afterWord? "true" text).map (some (.bool true), ·)
          <|> (afterWord? "false" text).map (some (.bool false), ·)
          <|> (afterWord? "null" text).map (some .null, ·)
          <|> (takeWord? text).map fun (word, rest) => (some (.word (String.ofList word)), rest)

/-- The tokens of a text, if all of it can be read. `fuel` bounds their number. -/
def tokensWithin? (fuel : Nat) (read : List Token) (text : List Char) : Option (List Token) :=
  match fuel, text with
  | _, [] => some read.reverse
  | 0, _ => none
  | fuel + 1, c :: rest =>
    match nextToken? c rest with
    | none => none
    | some (token, rest) => tokensWithin? fuel (token.toList ++ read) rest

/-- The tokens of a text, if all of it can be read. Each takes a character at least. -/
def tokens? (text : List Char) : Option (List Token) := tokensWithin? text.length [] text

end ScriptLint.Json
