import ScriptLint.Lexeme
import ScriptLint.Literal.Strand

/-!
# Escape sequences

The sequences that a backslash opens in strings, regular expression groups and
character classes.

## Main definitions

* `Strand.escape` — reads an escape sequence, with the characters a context allows
  on top of the common ones
-/

namespace ScriptLint.Strand

variable (around : Surroundings)

/-- The characters that may be escaped everywhere. -/
def commonEscapes : List Char := ['/', '\\', '\x60', 'b', 'f', 'n', 'r', 't']

/-- **Braced code point**: the part of an escape after `\u`, starting at its brace.

Hexadecimal digits, at least one and at most five, and a closing brace. Whatever
stands in the place of the brace is taken with the escape. A JSON text has no
such escapes. -/
def bracedCodePoint (s : Strand) : Strand :=
  let opened := s.take
  let opened := opened.noteErrorIf around around.json .unexpectedA (opened.lastColumn around)
    ["\x7b"]
  let read := opened.someDigits around isHexDigit
  let read := read.noteIf around (opened.runLength isHexDigit > 5) .tooManyDigits
    (read.nextColumn around)
  (read.noteIf around (read.rest.head? != some '}') .expectedABeforeB (read.nextColumn around)
    ["\x7d", read.nextText]).take

/-- **Plain code unit**: the digits of an escape after `\u`; there should be four. -/
def plainCodeUnit (s : Strand) : Strand :=
  let read := s.takeWhile isHexDigit
  read.noteIf around (s.runLength isHexDigit < 4) .expectedFourDigits (read.nextColumn around)

/-- The part of an escape after its backslash. A character that may not be escaped
is reported and left. -/
def escaped (allowed : List Char) (s : Strand) : Reading Strand :=
  match s.rest with
  | [] => s.halt around .unclosedString (s.nextColumn around)
  | 'u' :: '{' :: _ => .ok (s.take.bracedCodePoint around)
  | 'u' :: _ => .ok (s.take.plainCodeUnit around)
  | c :: _ =>
    if commonEscapes.contains c || allowed.contains c then .ok s.take
    else .ok (s.note around .unexpectedABeforeB (s.nextColumn around) ["\\", c.toString])

/-- Reads an escape sequence from its backslash on. -/
def escape (allowed : List Char) (s : Strand) : Reading Strand :=
  s.take.escaped around allowed

/-! ### An escape takes at least its backslash -/

theorem length_rest_bracedCodePoint_le (s : Strand) :
    (s.bracedCodePoint around).rest.length ≤ s.rest.length := by
  have := (List.dropWhile_sublist isHexDigit (l := s.rest.tail)).length_le
  simp only [bracedCodePoint, rest_take, rest_noteIf, rest_someDigits, rest_noteErrorIf,
    List.length_tail] at this ⊢
  omega

theorem length_rest_plainCodeUnit_le (s : Strand) :
    (s.plainCodeUnit around).rest.length ≤ s.rest.length := by
  simpa [plainCodeUnit] using (List.dropWhile_sublist isHexDigit (l := s.rest)).length_le

theorem length_rest_of_escaped {allowed : List Char} {s t : Strand}
    (h : s.escaped around allowed = .ok t) : t.rest.length ≤ s.rest.length := by
  unfold escaped at h
  split at h
  · simp [halt] at h
  · obtain rfl := Except.ok.inj h
    have := length_rest_bracedCodePoint_le around s.take
    simp only [rest_take, List.length_tail] at this; omega
  · obtain rfl := Except.ok.inj h
    have := length_rest_plainCodeUnit_le around s.take
    simp only [rest_take, List.length_tail] at this; omega
  · split at h
    · obtain rfl := Except.ok.inj h
      simp
    · obtain rfl := Except.ok.inj h
      simp

theorem length_rest_of_escape {allowed : List Char} {s t : Strand} (hs : s.rest ≠ [])
    (h : s.escape around allowed = .ok t) : t.rest.length < s.rest.length := by
  have hpos : 0 < s.rest.length := List.length_pos_iff.mpr hs
  have := length_rest_of_escaped around h
  simp only [rest_take, List.length_tail] at this
  omega

end ScriptLint.Strand
