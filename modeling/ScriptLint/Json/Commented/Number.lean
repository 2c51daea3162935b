import ScriptLint.Json.Commented.Token
import ScriptLint.Json.Value

/-!
# Numbers of JSON with comments

The value of a number token: a 64-bit integer, a floating-point number, or, beyond
both ranges, the string of its text.

## Main definitions

* `Json.ofNumberText` — the value of a number token

## Design notes

A decimal significand has at most 64 bits. Digits of the whole part beyond that
count as powers of ten, and digits of the fraction beyond that are dropped.
-/

namespace ScriptLint.Json

/-- The value of a decimal digit. -/
def digitValue (c : Char) : Nat := c.toNat - '0'.toNat

/-- The value of decimal digits. -/
def decimalValue (digits : List Char) : Nat :=
  digits.foldl (fun n c => 10 * n + digitValue c) 0

/-- A significand and the power of ten it counts. -/
structure Scaled where
  /-- Below `2 ^ 64`. -/
  significand : Nat := 0
  /-- The power of ten. -/
  exponent : Int := 0

namespace Scaled

/-- A significand with one more digit, if it stays within 64 bits. -/
def append? (significand : Nat) (c : Char) : Option Nat :=
  let n := 10 * significand + digitValue c
  if n < UInt64.size then some n else none

/-- Reads the digits of the whole part. From the first one that does not fit on, each counts
as a power of ten. -/
def whole (s : Scaled) : List Char → Scaled
  | [] => s
  | c :: rest =>
    match append? s.significand c with
    | some n => whole { s with significand := n } rest
    | none => { s with exponent := s.exponent + (rest.length + 1) }

/-- Reads the digits of the fraction. From the first one that does not fit on, they are
dropped. -/
def fraction (s : Scaled) : List Char → Scaled
  | [] => s
  | c :: rest =>
    match append? s.significand c with
    | some n => fraction { significand := n, exponent := s.exponent - 1 } rest
    | none => s

end Scaled

/-- The integer of a sign and a magnitude: minus zero and what exceeds 64 bits are
none. -/
def integer? (negative : Bool) (n : Nat) : Option Number :=
  if negative then
    if 0 < n ∧ n ≤ signedSize then some (.negative n.toUInt64) else none
  else if n < UInt64.size then some (.natural n.toUInt64) else none

/-- The value of a decimal number from its whole part, its fraction and its exponent, the last
two with their marks. -/
def decimalNumber? (negative : Bool) (whole fraction exponent : List Char) : Option Number :=
  let scaled := (({} : Scaled).whole whole).fraction (fraction.drop 1)
  let shift : Int :=
    match exponent.drop 1 with
    | '-' :: digits => -(decimalValue digits : Int)
    | '+' :: digits => decimalValue digits
    | digits => decimalValue digits
  let integer := if fraction.isEmpty && exponent.isEmpty then integer? negative (decimalValue whole)
    else none
  integer <|> (Binary64.ofDecimal? negative scaled.significand (scaled.exponent + shift)).map .real

/-- The value of a number token. -/
def ofNumberText (text : List Char) : Json :=
  let (sign, rest) := takeSign text
  let negative := sign == ['-']
  let number : Option Number :=
    match rest with
    | '0' :: c :: digits =>
      if c = 'x' ∨ c = 'X' then
        let n := hexValue digits
        if n < signedSize then some (.ofInt (if negative then -(n : Int) else n)) else none
      else decimal negative rest
    | _ => decimal negative rest
  match number with
  | some n => .number n
  | none => .string (String.ofList text)
where
  /-- The value of a decimal number without its sign. -/
  decimal (negative : Bool) (text : List Char) : Option Number :=
    let whole := text.takeWhile Char.isDigit
    let rest := text.dropWhile Char.isDigit
    let isMark (c : Char) : Bool := c == 'e' || c == 'E'
    decimalNumber? negative whole (rest.takeWhile (!isMark ·)) (rest.dropWhile (!isMark ·))

end ScriptLint.Json
