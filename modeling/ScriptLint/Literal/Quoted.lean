import ScriptLint.Literal.Escape

/-!
# Quoted strings

## Main definitions

* `Strand.quoted` — reads the contents of a string up to its closing quote
-/

namespace ScriptLint.Strand

variable (around : Surroundings)

/-- Reads up to the closing quote, which is left. The end of the line is a fault. -/
def quoted (quote : Char) (s : Strand) : Reading Strand :=
  match _hs : s.rest with
  | [] => s.halt around .unclosedString (s.nextColumn around)
  | c :: _ =>
    if c = '\\' then
      match _h : s.escape around [quote] with
      | .error halt => .error halt
      | .ok t => quoted quote t
    else if c = quote then .ok s
    else
      quoted quote (s.noteIf around (c == '\x60' && around.inTemplate) .unexpectedA
        (s.nextColumn around) ["\x60"]).take
termination_by s.rest.length
decreasing_by
  · exact length_rest_of_escape around (by simp [_hs]) _h
  · simp [_hs]

end ScriptLint.Strand
