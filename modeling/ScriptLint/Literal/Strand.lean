import ScriptLint.Finding

/-!
# Strands

Reading inside one line, character by character: the cursor that number, string
and regular expression literals share.

## Main definitions

* `Surroundings` — the line, the first column and the modes a literal stands in
* `Strand` — what was taken and what is left, with the findings made
* `Halt` — a literal that cannot be read to its end
* `Strand.take`, `Strand.takeWhile` — moving on
* `Strand.expect` — moving on past a required character

## Design notes

A strand never backs up. A check that concerns the next character looks at the
rest, and reports the column behind the characters taken.
-/

namespace ScriptLint

/-- What a literal stands in. -/
structure Surroundings where
  /-- Its line. -/
  line : Nat
  /-- Number of characters of the line before the first one of the strand. -/
  origin : Nat
  /-- The source is a JSON text. -/
  json : Bool
  /-- The literal stands in the interpolation of a template. -/
  inTemplate : Bool
deriving DecidableEq, Repr

/-- A stretch of a line, partly read. -/
structure Strand where
  /-- The characters taken, newest first. -/
  taken : List Char := []
  /-- The characters left. -/
  rest : List Char
  /-- The findings made, newest first. -/
  findings : List Finding := []
deriving DecidableEq, Repr

/-- A literal that stops the scan: the findings made before, newest first, and the
fault. -/
structure Halt where
  findings : List Finding
  fault : Finding
deriving DecidableEq, Repr

/-- A reading that may stop the scan. -/
abbrev Reading := Except Halt

namespace Strand

variable (around : Surroundings)

/-- The text taken. -/
def text (s : Strand) : String := String.ofList s.taken.reverse

/-- Column, from 1, of the last character taken. -/
def lastColumn (s : Strand) : Nat := around.origin + s.taken.length

/-- Column, from 1, of the next character. -/
def nextColumn (s : Strand) : Nat := s.lastColumn around + 1

/-- The next character as an argument of a message, empty at the end of the line. -/
def nextText (s : Strand) : String := String.ofList s.rest.head?.toList

/-- Takes the next character, if there is one. -/
def take (s : Strand) : Strand :=
  match s.rest with
  | [] => s
  | c :: rest => { s with taken := c :: s.taken, rest := rest }

/-- Takes the next `n` characters. -/
def takeN (s : Strand) (n : Nat) : Strand :=
  { s with taken := (s.rest.take n).reverse ++ s.taken, rest := s.rest.drop n }

/-- Takes the longest run of characters of a class. -/
def takeWhile (s : Strand) (p : Char → Bool) : Strand :=
  { s with taken := (s.rest.takeWhile p).reverse ++ s.taken, rest := s.rest.dropWhile p }

/-- Length of the run of characters of a class that comes next. -/
def runLength (s : Strand) (p : Char → Bool) : Nat := (s.rest.takeWhile p).length

/-- Adds a finding. -/
def note (s : Strand) (rule : Rule) (column : Nat) (args : List String := []) : Strand :=
  { s with findings := { rule, line := around.line, column, args } :: s.findings }

/-- Adds a finding if a condition holds. -/
@[inline] def noteIf (s : Strand) (p : Bool) (rule : Rule) (column : Nat)
    (args : List String := []) : Strand :=
  if p then s.note around rule column args else s

/-- Adds a finding that is an error unless a setting says otherwise, if a condition
holds. -/
@[inline] def noteErrorIf (s : Strand) (p : Bool) (rule : Rule) (column : Nat)
    (args : List String := []) : Strand :=
  if p then
    { s with
      findings := { rule, line := around.line, column, args, unset := .error } :: s.findings }
  else s

/-- Stops at a fault. -/
def halt {α : Type} (s : Strand) (rule : Rule) (column : Nat) (args : List String := []) :
    Reading α :=
  .error ⟨s.findings, { rule, line := around.line, column, args }⟩

/-- Stops because `c` does not come next: something else does, or the line ends. -/
def missing {α : Type} (s : Strand) (c : Char) : Reading α :=
  match s.rest with
  | [] => s.halt around .expectedA (s.lastColumn around) [c.toString]
  | d :: _ => s.halt around .expectedAB (s.nextColumn around) [c.toString, d.toString]

/-- Takes the next character, which must be `c`. -/
def expect (s : Strand) (c : Char) : Reading Strand :=
  if s.rest.head? = some c then .ok s.take else s.missing around c

/-- Takes a run of digits, of which there should be one. -/
def someDigits (s : Strand) (p : Char → Bool) : Strand :=
  (s.noteIf around (s.runLength p == 0) .expectedDigitsAfterA (s.lastColumn around)
    [s.text]).takeWhile p

/-- **The whole stretch**: what was taken and what is left. Reading only moves the border. -/
def whole (s : Strand) : List Char := s.taken.reverse ++ s.rest

/-! ### Reading keeps the whole -/

@[simp] theorem whole_take (s : Strand) : s.take.whole = s.whole := by
  unfold take; split <;> simp [whole, *]

@[simp] theorem whole_takeN (s : Strand) (n : Nat) : (s.takeN n).whole = s.whole := by
  simp [whole, takeN]

@[simp] theorem whole_takeWhile (s : Strand) (p : Char → Bool) :
    (s.takeWhile p).whole = s.whole := by
  simp [whole, takeWhile]

@[simp] theorem whole_noteIf (s : Strand) (p : Bool) (rule : Rule) (column : Nat)
    (args : List String) : (s.noteIf around p rule column args).whole = s.whole := by
  unfold noteIf; split <;> rfl

@[simp] theorem whole_someDigits (s : Strand) (p : Char → Bool) :
    (s.someDigits around p).whole = s.whole := by
  simp [someDigits]

/-! ### Taking shortens the rest -/

@[simp] theorem rest_note (s : Strand) (rule : Rule) (column : Nat) (args : List String) :
    (s.note around rule column args).rest = s.rest := rfl

@[simp] theorem rest_noteIf (s : Strand) (p : Bool) (rule : Rule) (column : Nat)
    (args : List String) : (s.noteIf around p rule column args).rest = s.rest := by
  unfold noteIf; split <;> rfl

@[simp] theorem rest_noteErrorIf (s : Strand) (p : Bool) (rule : Rule) (column : Nat)
    (args : List String) : (s.noteErrorIf around p rule column args).rest = s.rest := by
  unfold noteErrorIf; split <;> rfl

@[simp] theorem taken_note (s : Strand) (rule : Rule) (column : Nat) (args : List String) :
    (s.note around rule column args).taken = s.taken := rfl

@[simp] theorem taken_noteIf (s : Strand) (p : Bool) (rule : Rule) (column : Nat)
    (args : List String) : (s.noteIf around p rule column args).taken = s.taken := by
  unfold noteIf; split <;> rfl

@[simp] theorem taken_noteErrorIf (s : Strand) (p : Bool) (rule : Rule) (column : Nat)
    (args : List String) : (s.noteErrorIf around p rule column args).taken = s.taken := by
  unfold noteErrorIf; split <;> rfl

@[simp] theorem rest_take (s : Strand) : s.take.rest = s.rest.tail := by
  unfold take; split <;> simp [*]

@[simp] theorem rest_takeWhile (s : Strand) (p : Char → Bool) :
    (s.takeWhile p).rest = s.rest.dropWhile p := rfl

@[simp] theorem rest_someDigits (s : Strand) (p : Char → Bool) :
    (s.someDigits around p).rest = s.rest.dropWhile p := by
  simp [someDigits]

theorem missing_ne_ok {α : Type} (s : Strand) (c : Char) (a : α) :
    s.missing around c ≠ .ok a := by
  unfold missing halt; split <;> simp

theorem length_rest_of_expect {s t : Strand} {c : Char} (h : s.expect around c = .ok t) :
    t.rest.length < s.rest.length := by
  unfold expect at h
  split at h
  · next hc =>
    obtain rfl := Except.ok.inj h
    have : s.rest ≠ [] := by rintro hs; simp [hs] at hc
    have : 0 < s.rest.length := List.length_pos_iff.mpr this
    simp; omega
  · exact absurd h (missing_ne_ok around s c t)

end Strand

end ScriptLint
