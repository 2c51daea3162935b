import Mathlib.Data.Prod.Lex
import ScriptLint.Source
import ScriptLint.Token

/-!
# Places in a source

Places are ordered as they are read: by line, then by column.  A token **covers** the
places of its extent, from its start up to its stop.

## Main definitions

* the reading order of `Position`
* `Source.Contains` — a place of a source
* `Source.charAt?` — the character at a place
* `Token.Covers` — the places of a token's extent
-/

namespace ScriptLint

/-! ### Reading order -/

/-- Places are ordered by line, then by column. -/
instance : LinearOrder Position :=
  LinearOrder.lift' (fun p => toLex (p.line, p.column)) fun p q h => by
    have hpair := Prod.mk.inj (toLex.injective h)
    cases p
    cases q
    simp_all

theorem Position.le_iff {p q : Position} :
    p ≤ q ↔ p.line < q.line ∨ p.line = q.line ∧ p.column ≤ q.column :=
  Prod.Lex.le_iff

theorem Position.lt_iff {p q : Position} :
    p < q ↔ p.line < q.line ∨ p.line = q.line ∧ p.column < q.column :=
  Prod.Lex.lt_iff

/-- A place further on is on no line above. -/
theorem Position.line_le_of_le {p q : Position} (h : p ≤ q) : p.line ≤ q.line :=
  (Position.le_iff.mp h).elim Nat.le_of_lt fun hcolumn => Nat.le_of_eq hcolumn.1

/-! ### Places of a source -/

namespace Source

/-- A place of a source: before a character of one of its lines, or at the end of one. -/
structure Contains (source : Source) (p : Position) : Prop where
  one_le_line : 1 ≤ p.line
  line_le : p.line ≤ source.lastIndex
  column_le : p.column ≤ source.lengthAt p.line

/-- The character at a place. -/
def charAt? (source : Source) (p : Position) : Option Char :=
  (source.textAt p.line).toList[p.column]?

/-- A first line that starts with `#!` is not scanned. -/
def hasInterpreterLine (source : Source) : Bool :=
  "#!".toList.isPrefixOf (source.textAt 1).toList

/-- The text of the next line below others. -/
theorem textAt_succ {source : Source} {n : Nat} {line : Line} {below : List Line}
    (h : source.lines.toList.drop n = line :: below) : source.textAt (n + 1) = line.text := by
  have hline : source.lines[n]? = some line := by
    rw [← Array.getElem?_toList, ← List.head?_drop, h]
    rfl
  simp [textAt, line?, hline]

/-- The text of the first line. -/
theorem textAt_one {source : Source} {line : Line} {below : List Line}
    (h : source.lines.toList = line :: below) : source.textAt 1 = line.text :=
  textAt_succ (n := 0) h

/-- A line that is not empty is one of the source. -/
theorem inside_of_lengthAt_pos {source : Source} {n : Nat} (h : 0 < source.lengthAt n) :
    1 ≤ n ∧ n ≤ source.lastIndex := by
  unfold lengthAt line? at h
  split at h
  · simp [Line.length] at h
  · next n =>
    refine ⟨Nat.succ_pos n, ?_⟩
    by_contra hlast
    have hnone : source.lines[n]? = none := by
      rw [Array.getElem?_eq_none_iff]
      exact Nat.le_of_lt_succ (Nat.not_le.mp hlast)
    simp [hnone, Line.length] at h

/-- A line of the source is where it is. -/
theorem clampLine_of_inside {source : Source} {n : Nat} (h : 1 ≤ n ∧ n ≤ source.lastIndex) :
    source.clampLine n = n := by
  unfold clampLine
  omega

/-- A column beyond a line that is not empty is moved to its last character. -/
theorem clampColumn_of_beyond {source : Source} {n column : Nat} (hpos : 0 < source.lengthAt n)
    (h : source.lengthAt n ≤ column) : source.clampColumn n column = source.lengthAt n := by
  unfold clampColumn
  omega

/-- A character stands on a line of the source. -/
theorem contains_of_charAt? {source : Source} {p : Position} {c : Char}
    (h : source.charAt? p = some c) :
    source.Contains p ∧ p.column < source.lengthAt p.line := by
  obtain ⟨hlt, -⟩ := List.getElem?_eq_some_iff.mp h
  have hcolumn : p.column < source.lengthAt p.line := by
    rwa [String.length_toList] at hlt
  obtain ⟨hone, hlast⟩ := inside_of_lengthAt_pos (Nat.zero_lt_of_lt hcolumn)
  exact ⟨⟨hone, hlast, Nat.le_of_lt hcolumn⟩, hcolumn⟩

/-- Each physical line is a line of the source. -/
theorem size_foldl_read (texts : List (List Char)) (r : Region) :
    (texts.foldl Region.read r).lines.size = r.lines.size + texts.length := by
  induction texts generalizing r with
  | nil => rfl
  | cons text texts ih =>
    have hread : (r.read text).lines.size = r.lines.size + 1 := by
      unfold Region.read
      extract_lets index trimmed
      split
      · exact Array.size_push _
      · split
        · split <;> exact Array.size_push _
        · split <;> exact Array.size_push _
    rw [List.foldl_cons, ih, hread, List.length_cons, Nat.add_right_comm, Nat.add_assoc]

theorem length_physicalLines_go (done : List (List Char)) (line text : List Char) :
    done.length < (physicalLines.go done line text).length := by
  fun_induction physicalLines.go done line text with
  | case1 done line => simp
  | case2 done line rest ih => exact Nat.lt_of_succ_lt ih
  | case3 done line c rest _ hc ih => exact Nat.lt_of_succ_lt ih
  | case4 done line c rest _ hc ih => exact ih

/-- A source has a line. -/
theorem one_le_lastIndex (text : String) : 1 ≤ (ofString text).lastIndex := by
  have hsize : (ofString text).lastIndex = (physicalLines text.toList).length := by
    refine (size_foldl_read _ {}).trans ?_
    simp
  rw [hsize]
  exact length_physicalLines_go [] [] text.toList

end Source

/-- A token covers a place of its extent. -/
def Token.Covers (t : Token) (p : Position) : Prop := t.start ≤ p ∧ p < t.stop

end ScriptLint
