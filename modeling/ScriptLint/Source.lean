import ScriptLint.Rule
import ScriptLint.Text.Blank

/-!
# Physical lines

A source text as the checks see it: numbered physical lines, some of them
marked quiet, with the regions between `/*jslint-disable*/` and
`/*jslint-enable*/` blanked.

## Main definitions

* `physicalLines` — the text cut at every line terminator
* `Line` — one line and whether it is quiet
* `Source` — the lines, from 1, and the marker problems found on the way
* `Source.ofString` — applies the region markers

## Design notes

Index 0 is an empty sentinel line, so a reported line number is an index.
A source always has a last line, empty if the text ends in a terminator.
-/

namespace ScriptLint

/-! ### Cutting a text into lines -/

/-- Lines are cut at a line feed, a carriage return, or the two in that order. -/
def physicalLines (text : List Char) : List (List Char) :=
  go [] [] text
where
  /-- The lines of `line.reverse ++ text`, after the finished lines `done.reverse`. -/
  go (done : List (List Char)) (line : List Char) : List Char → List (List Char)
    | [] => (line.reverse :: done).reverse
    | '\r' :: '\n' :: rest => go (line.reverse :: done) [] rest
    | c :: rest =>
      if c = '\n' ∨ c = '\r' then go (line.reverse :: done) [] rest
      else go done (c :: line) rest

/-! ### Lines -/

/-- A physical line. -/
structure Line where
  /-- The text without its terminator. -/
  text : String := ""
  /-- Findings on a quiet line are dropped. -/
  quiet : Bool := false
deriving DecidableEq, Repr, Inhabited

namespace Line

/-- The trailing comment that makes a line quiet. -/
def quietMarker : String := "//jslint-quiet"

/-- The line alone on which a blanked region opens. -/
def disableMarker : String := "/*jslint-disable*/"

/-- The line alone on which a blanked region closes. -/
def enableMarker : String := "/*jslint-enable*/"

/-- A line kept verbatim; it is quiet if it ends in the quiet marker. -/
def ofText (text : List Char) : Line where
  text := String.ofList text
  quiet := quietMarker.toList.isSuffixOf (trimBlankEnd text)

/-- Number of characters. -/
def length (line : Line) : Nat := line.text.length

end Line

/-! ### Sources -/

/-- A region marker without its partner. -/
structure LineIssue where
  /-- The rule it breaks. -/
  rule : Rule
  /-- The line of the marker. -/
  line : Nat
deriving DecidableEq, Repr

/-- A source text, line by line. -/
structure Source where
  /-- Line `n` stands at index `n - 1`. -/
  lines : Array Line
  /-- Markers without a partner, in line order. -/
  issues : List LineIssue
deriving DecidableEq, Repr

/-- **Lookup beyond the end**: the requested index and the last valid one. -/
structure OutOfRange where
  index : Nat
  last : Nat
deriving DecidableEq, Repr

/-- The text of a failed lookup. -/
def OutOfRange.message (e : OutOfRange) : String :=
  "line " ++ toString e.index ++ " is out of range (last line is " ++ toString e.last ++ ")"

/-- The lines read so far and the line of the open disable marker, if any. -/
structure Region where
  /-- The lines read. -/
  lines : Array Line := #[]
  /-- The issues found, newest first. -/
  issues : List LineIssue := []
  /-- The line of the disable marker that opened the current region. -/
  opened : Option Nat := none

namespace Region

/-- Adds the next physical line.

A disable marker opens a region unless one is open; an enable marker closes it,
or is an issue when none is open. Every line of a region, both markers
included, becomes an empty line that is not quiet. -/
def read (r : Region) (text : List Char) : Region :=
  let index := r.lines.size + 1
  let trimmed := trimBlank text
  if trimmed = Line.disableMarker.toList then
    { r with lines := r.lines.push {}, opened := r.opened.or (some index) }
  else if trimmed = Line.enableMarker.toList then
    if r.opened.isSome then
      { r with lines := r.lines.push {}, opened := none }
    else
      { r with
        lines := r.lines.push (.ofText text)
        issues := ⟨.unopenedEnable, index⟩ :: r.issues }
  else if r.opened.isSome then
    { r with lines := r.lines.push {} }
  else
    { r with lines := r.lines.push (.ofText text) }

/-- The source read; a region still open is the last issue. -/
def close (r : Region) : Source where
  lines := r.lines
  issues := r.issues.reverse ++ (r.opened.map (LineIssue.mk .unclosedDisable)).toList

end Region

namespace Source

/-- Reads a text: cuts it into lines and blanks its disabled regions. -/
def ofString (text : String) : Source :=
  ((physicalLines text.toList).foldl Region.read {}).close

/-- Highest valid index. -/
def lastIndex (source : Source) : Nat := source.lines.size

/-- The line at an index; index 0 is the empty sentinel. -/
def line? (source : Source) (index : Nat) : Option Line :=
  match index with
  | 0 => some {}
  | n + 1 => source.lines[n]?

/-- The line at an index, or why there is none. -/
def line (source : Source) (index : Nat) : Except OutOfRange Line :=
  match source.line? index with
  | some line => .ok line
  | none => .error ⟨index, source.lastIndex⟩

/-- Text of a line, empty beyond the end. -/
def textAt (source : Source) (index : Nat) : String :=
  ((source.line? index).getD {}).text

/-- Number of characters of a line, 0 beyond the end. -/
def lengthAt (source : Source) (index : Nat) : Nat :=
  ((source.line? index).getD {}).length

/-- Whether a line is quiet; no line beyond the end is. -/
def isQuiet (source : Source) (index : Nat) : Bool :=
  ((source.line? index).getD {}).quiet

/-- The index moved into `[1, lastIndex]`. -/
def clampLine (source : Source) (index : Nat) : Nat :=
  max 1 (min index (max 1 source.lastIndex))

/-- The column moved into `[1, max 1 length]` of a line. -/
def clampColumn (source : Source) (line column : Nat) : Nat :=
  max 1 (min column (max 1 (source.lengthAt line)))

end Source

end ScriptLint
