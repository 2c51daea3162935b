/-!
# Binary floating-point numbers

Numbers of the form `±m · 2^e` with 53 bits of precision, as a JSON text without a
64-bit integer is read.

## Main definitions

* `Binary64` — a finite number
* `Binary64.ofRatio?` — the number nearest to a fraction
* `Binary64.ofDecimal?` — the number of a decimal significand and exponent
* `Binary64.isWhole` — no fractional part

## Design notes

Rounding is exact arithmetic on naturals; a tie goes to the even significand. The
decimal rule scales in steps, each of which rounds, so it may miss the nearest number
by a unit in the last place.
-/

namespace ScriptLint

/-- A finite number: `significand · 2 ^ exponent`, with a sign that zero has too. -/
structure Binary64 where
  /-- The number is below zero, or minus zero. -/
  negative : Bool := false
  /-- At most `2 ^ 53`. -/
  significand : Nat
  /-- At least `-1074`. -/
  exponent : Int
deriving DecidableEq, Repr

namespace Binary64

/-- Zero. -/
def zero : Binary64 := ⟨false, 0, 0⟩

/-- The fraction `num / den` over a power of two, as a numerator and a denominator. -/
def overPower (num den : Nat) : Int → Nat × Nat
  | .ofNat e => (num, den * Nat.pow 2 e)
  | .negSucc e => (num * Nat.pow 2 (e + 1), den)

/-- The natural number nearest to a fraction; a tie goes to the even one. -/
def nearestNat (num den : Nat) : Nat :=
  let q := num / den
  let twice := 2 * (num % den)
  if twice < den then q
  else if den < twice then q + 1
  else q + q % 2

/-- The exponent at which a positive fraction has 53 bits before the point, or the least
exponent there is. -/
def exponentOf (num den : Nat) : Int :=
  let guess : Int := max ((num.log2 : Int) - (den.log2 : Int) - 53) (-1074)
  let (n, d) := overPower num den guess
  if n < d * Nat.pow 2 53 then guess else guess + 1

/-- The number nearest to the fraction `num / den`; none if that is beyond the range. -/
def ofRatio? (num den : Nat) : Option Binary64 :=
  if num = 0 then some zero
  else
    let e := exponentOf num den
    let (n, d) := overPower num den e
    let m := nearestNat n d
    if e ≥ 0 ∧ m * Nat.pow 2 e.toNat ≥ Nat.pow 2 1024 then none else some ⟨false, m, e⟩

/-- A non-negative number as a fraction. -/
def ratio (x : Binary64) : Nat × Nat :=
  match x.exponent with
  | .ofNat e => (x.significand * Nat.pow 2 e, 1)
  | .negSucc e => (x.significand, Nat.pow 2 (e + 1))

/-- The product of two non-negative numbers. -/
def mul? (x y : Binary64) : Option Binary64 :=
  ofRatio? (x.ratio.1 * y.ratio.1) (x.ratio.2 * y.ratio.2)

/-- The quotient of two non-negative numbers, of which the second is not zero. -/
def div? (x y : Binary64) : Option Binary64 :=
  ofRatio? (x.ratio.1 * y.ratio.2) (x.ratio.2 * y.ratio.1)

/-- `x · 10 ^ exponent`. Exponents beyond 308 are taken in steps of 308, and a number that
becomes zero on the way stays zero. -/
def scale? (x : Binary64) (exponent : Int) : Option Binary64 :=
  match exponent with
  | .ofNat e =>
    if x.significand = 0 then some x
    else if e ≤ 308 then (ofRatio? (Nat.pow 10 e) 1).bind x.mul?
    else none
  | .negSucc e => divide e x
where
  /-- `x / 10 ^ (e + 1)`. -/
  divide (e : Nat) (x : Binary64) : Option Binary64 :=
    if x.significand = 0 then some x
    else if e < 308 then (ofRatio? (Nat.pow 10 (e + 1)) 1).bind x.div?
    else ((ofRatio? (Nat.pow 10 308) 1).bind x.div?).bind (divide (e - 308))
  termination_by e

/-- The number `±significand · 10 ^ exponent`; none if it is beyond the range. -/
def ofDecimal? (negative : Bool) (significand : Nat) (exponent : Int) : Option Binary64 :=
  ((ofRatio? significand 1).bind (·.scale? exponent)).map ({ · with negative })

/-- Whether a number has no fractional part. -/
def isWhole (x : Binary64) : Bool :=
  match x.exponent with
  | .ofNat _ => true
  | .negSucc e => x.significand % Nat.pow 2 (e + 1) == 0

/-- Whether a number is zero or above, minus zero included. -/
def isNonnegative (x : Binary64) : Bool := !x.negative || x.significand == 0

/-- The exact decimal digits of a number: a whole part, a point and at least one place. -/
def toText (x : Binary64) : String :=
  let sign := if x.negative then "-" else ""
  match x.exponent with
  | .ofNat e => sign ++ toString (x.significand * Nat.pow 2 e) ++ ".0"
  | .negSucc e =>
    let places := e + 1
    let scaled := x.significand * Nat.pow 5 places
    let fraction := toString (scaled % Nat.pow 10 places)
    sign ++ toString (scaled / Nat.pow 10 places) ++ "."
      ++ String.ofList (List.replicate (places - fraction.length) '0') ++ fraction

end Binary64

end ScriptLint
