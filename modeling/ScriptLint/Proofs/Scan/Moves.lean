import ScriptLint.Proofs.Literal.Whole
import ScriptLint.Proofs.Scan.Track

/-!
# The moves of a scan

What one step of a scan can do, said once.  On the track a step that is not the last
enters a line, skips blanks, or adds the token of a piece of the source that starts
where the scan stands; inside a template it adds the text up to the next delimiter and
the delimiter.  That a step is such a leg is the inversion of `State.step` that every
invariant of the scan is proved from.

## Main definitions

* `Spelled` — how a token spells the stretch of one line it stands for
* `Track.Lexeme`, `Track.Part` — the token of a stretch, and the text of a template
* `Track.Move`, `Track.Leg` — a move, and the moves of a step

## Main statements

* `identifierLength_le`, `numberLength_le`, `operatorLength_le` — a lexeme fits its text
* `split_of_findPair`, `split_of_templateChunk` — what a search of a line finds is there
-/

namespace ScriptLint

/-! ### Lexemes fit -/

theorem countSuffix_le (suffix : Char) (count : Nat) (text : List Char) :
    countSuffix suffix count text ≤ count + text.length := by
  unfold countSuffix
  split
  · next h =>
    cases text with
    | nil => simp at h
    | cons c rest => simp
  · exact Nat.le_add_right _ _

theorem identifierLength_le (text : List Char) : identifierLength text ≤ text.length := by
  unfold identifierLength
  split
  · exact Nat.le_refl _
  · next c rest =>
    have hrun := (List.takeWhile_sublist isIdentifierPart (l := rest)).length_le
    split
    · rw [List.length_cons]
      omega
    · exact Nat.zero_le _

theorem numberLength_le (text : List Char) : numberLength text ≤ text.length := by
  unfold numberLength
  split
  · exact Nat.le_refl _
  · next c rest =>
    rw [List.length_cons]
    split
    · have hlead := countSuffix_le 'n' 1 rest
      omega
    · split
      · have hlead := countSuffix_le 'n' (1 + (rest.takeWhile Char.isDigit).length)
          (rest.dropWhile Char.isDigit)
        have hsplit := congrArg List.length (List.takeWhile_append_dropWhile (p := Char.isDigit)
          (l := rest))
        rw [List.length_append] at hsplit
        omega
      · exact Nat.zero_le _

theorem operatorLength_le (text : List Char) : operatorLength text ≤ text.length := by
  have hsuffix : ∀ count rest, countSuffix '=' count rest ≤ rest.length + count := by
    intro count rest
    have h := countSuffix_le '=' count rest
    omega
  unfold operatorLength
  -- An operator is a run of dots, a single character, or a core with a suffix it may have.
  split
  case h_1 => exact Nat.le_refl _
  case h_2 rest =>
    have hrun := (List.takeWhile_sublist (· == '.') (l := rest)).length_le
    rw [List.length_cons]
    omega
  case h_33 =>
    split <;> simp
  all_goals
    first
    | simp only [List.length_cons]; omega
    | simpa only [List.length_cons] using hsuffix _ _

/-! ### Searching a line -/

private theorem findPair_go_split {a b : Char} {text : List Char} {i j : Nat}
    (h : findPair.go a b i text = some j) :
    ∃ front back, text = front ++ a :: b :: back ∧ j = i + front.length := by
  induction text generalizing i with
  | nil => simp [findPair.go] at h
  | cons c rest ih =>
    cases rest with
    | nil => simp [findPair.go] at h
    | cons d rest =>
      unfold findPair.go at h
      split at h
      · next hpair =>
        obtain ⟨rfl, rfl⟩ := hpair
        exact ⟨[], rest, rfl, (Option.some.inj h).symm⟩
      · obtain ⟨front, back, htext, hj⟩ := ih h
        refine ⟨c :: front, back, by rw [htext]; rfl, ?_⟩
        rw [hj, List.length_cons]
        omega

/-- A pair found is there, behind as many characters as the index says. -/
theorem split_of_findPair {a b : Char} {text : List Char} {i : Nat}
    (h : findPair a b text = some i) :
    ∃ front back, text = front ++ a :: b :: back ∧ i = front.length := by
  obtain ⟨front, back, htext, hi⟩ := findPair_go_split h
  exact ⟨front, back, htext, by omega⟩

/-- What stands where the text of a template stops. -/
def TemplateStop.At : TemplateStop → List Char → Prop
  | .interpolation, text => ∃ back, text = '$' :: '\x7b' :: back
  | .close, text => ∃ back, text = '\x60' :: back
  | .lineEnd, text => text = []

/-- The text of a template on a line is the part of the line before the stop. -/
theorem split_of_templateChunk (taken text : List Char) :
    ∃ front back, text = front ++ back ∧
      (templateChunk taken text).1 = front.reverse ++ taken ∧
      (templateChunk taken text).2.At back := by
  fun_induction templateChunk taken text with
  | case1 => exact ⟨[], [], rfl, rfl, rfl⟩
  | case2 taken back => exact ⟨[], _, rfl, rfl, ⟨back, rfl⟩⟩
  | case3 taken back => exact ⟨[], _, rfl, rfl, ⟨back, rfl⟩⟩
  | case4 taken c rest ih =>
    obtain ⟨front, back, htext, hread, hstop⟩ := ih
    exact ⟨'\\' :: c :: front, back, by rw [htext]; rfl, by rw [hread]; simp, hstop⟩
  | case5 taken c rest _ _ _ ih =>
    obtain ⟨front, back, htext, hread, hstop⟩ := ih
    exact ⟨c :: front, back, by rw [htext]; rfl, by rw [hread]; simp, hstop⟩

/-! ### Spelling -/

/-- The kinds of token whose value is the source text they stand for. -/
def TokenKind.isVerbatim : TokenKind → Bool
  | identifier | keyword | operator | number | regex => true
  | _ => false

/-- **Spelling**: how a token stands for a stretch of one line. -/
inductive Spelled (text : List Char) (t : Token) : Prop
  /-- The value is the stretch. -/
  | verbatim (hkind : t.kind.isVerbatim) (hvalue : t.value = String.ofList text)
  /-- The value is what stands between two quotes. -/
  | quoted (quote : Char) (hquote : quote = '"' ∨ quote = '\'') (hkind : t.kind = .string)
      (hdelimiter : t.quote = some quote) (htext : text = quote :: t.value.toList ++ [quote])

namespace Track

/-! ### Moves -/

/-- A token from the place of one track to the place of another, next in number. -/
structure Spans (s u : Track) (t : Token) : Prop where
  start : t.start = s.position
  stop : t.stop = u.position
  nr : t.nr = s.nextNr

/-- **Lexeme**: the token of the next characters of the line.  In an interpolation it is no
backtick, since templates do not nest. -/
inductive Lexeme (s : Track) : Track → Prop
  | intro {n : Nat} {t : Token} (hpos : 0 < n) (hle : n ≤ s.rest.length)
      (hspans : Spans s (s.advance n) t) (hspelled : Spelled (s.rest.take n) t)
      (hnest : ∀ opening, s.mode = .interpolation opening → t.isOperator "\x60" = false) :
      Lexeme s ((s.advance n).add t)

/-- **Part**: the text of a template up to a delimiter, which is left. -/
inductive Part (s : Track) : Track → Prop
  | intro {u : Track} {n : Nat} {t : Token} {opening : Position}
      (hmode : s.mode = .template opening) (hcross : Crosses s u) (hlt : n < u.rest.length)
      (hspans : Spans s (u.advance n) t) (hkind : t.kind = .string)
      (hquote : t.quote = some '\x60') : Part s ((u.advance n).add t)

/-- **Move**: what a scan does outside of the text of templates. -/
inductive Move (s : Track) : Track → Prop
  /-- At the end of a line the next one is entered. -/
  | line {line : Line} {below : List Line} (hrest : s.rest = [])
      (hbelow : s.below = line :: below) : Move s (s.enter line below)
  /-- Blanks are skipped. -/
  | blanks {n : Nat} (hpos : 0 < n) (hle : n ≤ s.rest.length)
      (hblank : ∀ c ∈ s.rest.take n, isBlank c = true) : Move s (s.advance n)
  /-- The token of a stretch of the line is added. -/
  | lexeme {u : Track} (h : Lexeme s u) : Move s u
  /-- A line comment is added; it takes the rest of the line. -/
  | lineComment {value : List Char} {t : Token} (hrest : s.rest = '/' :: '/' :: value)
      (hspans : Spans s (s.advance s.rest.length) t) (hkind : t.kind = .comment)
      (hvalue : t.value = String.ofList value) : Move s ((s.advance s.rest.length).add t)
  /-- A block comment is added; it may cross lines after its opening. -/
  | blockComment {text : List Char} {u : Track} {n : Nat} {t : Token}
      (hrest : s.rest = '/' :: '*' :: text) (hcross : Crosses (s.advance 2) u)
      (hle : n ≤ u.rest.length) (hspans : Spans s (u.advance n) t)
      (hkind : t.kind = .comment) : Move s ((u.advance n).add t)

/-- **Leg**: the moves of one step. -/
inductive Leg (s : Track) : Track → Prop
  /-- Outside of the text of a template it is one move. -/
  | move {u : Track} (hmode : ∀ opening, s.mode ≠ .template opening) (h : Move s u) : Leg s u
  /-- The text of a template comes with the delimiter that stops it. -/
  | template {u v : Track} (hpart : Part s u) (hstop : Lexeme u v) : Leg s v

end Track

end ScriptLint
