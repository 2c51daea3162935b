import ScriptLint.Literal.Escape

/-!
# Regular expression literals

The pattern between the slashes, its groups, classes and quantifiers, and the
flags after it.

## Main definitions

* `Strand.charClass` — a character class from its bracket on
* `Strand.quantifier` — an optional quantifier after a factor
* `Strand.pattern` — the pattern up to its closing slash
* `Strand.flags` — the flags after the closing slash

## Design notes

Groups nest, but a group differs from the whole pattern only in what closes it. So
one loop with the number of open groups reads a pattern.
-/

namespace ScriptLint.Strand

variable (around : Surroundings)

/-- The characters that may be escaped in a group. -/
def groupEscapes : List Char := "BbDdSsWw^$\x7b\x7d[]():=!.|*+?".toList

/-- The characters that may be escaped in a character class. -/
def classEscapes : List Char := "BbDdSsWw-[]^".toList

/-- The flags of a regular expression. -/
def patternFlags : List Char := ['g', 'i', 'm', 'u', 'y']

/-! ### Character classes -/

/-- One character of a class, or an escape. -/
def classAtom (c : Char) (s : Strand) : Reading Strand :=
  if c = '\\' then s.escape around classEscapes
  else
    let suspect := c == '-' || c == '/' || c == '[' || c == '^'
    let s := s.noteIf around suspect .invalidRegex (s.nextColumn around) [c.toString]
    .ok (s.noteIf around (c == '\x60' && around.inTemplate) .unexpectedA
      (s.nextColumn around) ["\x60"]).take

theorem length_rest_of_classAtom {c : Char} {s t : Strand} (hs : s.rest ≠ [])
    (h : s.classAtom around c = .ok t) : t.rest.length < s.rest.length := by
  unfold classAtom at h
  split at h
  · exact length_rest_of_escape around hs h
  · obtain rfl := Except.ok.inj h
    have : 0 < s.rest.length := List.length_pos_iff.mpr hs
    simp; omega

/-- The members of a class, and its closing bracket. `range` says that a hyphen after
the last member opened a range. -/
def classMembers (range : Bool) (s : Strand) : Reading Strand :=
  match _hs : s.rest with
  | [] =>
    (s.noteIf around range .invalidRegex (s.lastColumn around) ["]"]).expect around ']'
  | c :: _ =>
    if c = ']' then
      .ok (s.noteIf around range .invalidRegex (s.lastColumn around) ["]"]).take
    else
      match _h : s.classAtom around c with
      | .error halt => .error halt
      | .ok t => if t.rest.head? = some '-' then classMembers true t.take else classMembers false t
termination_by s.rest.length
decreasing_by
  · have := length_rest_of_classAtom around (by simp [_hs]) _h
    simp; omega
  · exact length_rest_of_classAtom around (by simp [_hs]) _h

/-- Reads a class from its opening bracket on. -/
def charClass (s : Strand) : Reading Strand :=
  let s := s.take
  (if s.rest.head? = some '^' then s.take else s).classMembers around false

/-! ### Quantifiers -/

/-- Takes a `?` that should not be there. -/
def strayLazy (s : Strand) : Strand :=
  if s.rest.head? = some '?' then
    (s.note around .invalidRegex (s.nextColumn around) ["?"]).take
  else s

/-- A quantifier in braces, starting at its brace. -/
def counted (s : Strand) : Reading Strand :=
  let opened := s.take
  let low := opened.takeWhile Char.isDigit
  let low := low.noteIf around (opened.runLength Char.isDigit == 0) .invalidRegex
    (low.nextColumn around) [","]
  let high := if low.rest.head? = some ',' then low.take.takeWhile Char.isDigit else low
  (high.expect around '}').map (strayLazy around)

/-- Reads the quantifier after a factor, if there is one. -/
def quantifier (s : Strand) : Reading Strand :=
  match s.rest with
  | '*' :: '?' :: _ | '+' :: '?' :: _ => .ok s.take.take
  | '*' :: _ | '+' :: _ => .ok s.take
  | '?' :: _ => .ok (s.take.strayLazy around)
  | '{' :: _ => s.counted around
  | _ => .ok s

/-! ### Patterns -/

/-- Reads the prefix of a group from its parenthesis on. -/
def groupOpening (s : Strand) : Reading Strand :=
  let s := s.take
  match s.rest with
  | '?' :: '=' :: _ | '?' :: '!' :: _ => .ok s.take.take
  | '?' :: _ => s.take.expect around ':'
  | ':' :: _ => .ok (s.note around .invalidRegex (s.nextColumn around) [":"])
  | _ => .ok s

/-- A group or pattern should not start with its end. -/
def noteEmptyGroup (s : Strand) : Strand :=
  let empty := match s.rest.head? with
    | none | some ')' | some ']' => true
    | _ => false
  s.noteIf around empty .expectedRegexpFactorA (s.nextColumn around) [s.nextText]

/-- One factor that opens no group: a class, an escape or a character. -/
def factor (c : Char) (s : Strand) : Reading Strand :=
  if c = '[' then s.charClass around
  else if c = '\\' then s.escape around groupEscapes
  else
    let stray := c == '*' || c == '+' || c == '?' || c == '{' || c == '}'
    let s := s.noteIf around stray .invalidRegex (s.nextColumn around) [c.toString]
    .ok (s.noteIf around (c == '\x60' && around.inTemplate) .invalidRegex
      (s.nextColumn around) ["\x60"]).take

/-- A factor that anchors at a line boundary inside the text: `$` that is not the last
character of the pattern, or `^` that is not its first. -/
def anchorsLine (c : Char) (s : Strand) : Bool :=
  (c == '$' && s.rest.tail.head? != some '/') || (c == '^' && !s.taken.isEmpty)

/-! ### Progress of the parts -/

theorem length_rest_strayLazy_le (s : Strand) :
    (s.strayLazy around).rest.length ≤ s.rest.length := by
  unfold strayLazy; split <;> simp

theorem length_rest_of_counted {s t : Strand} (hs : s.rest ≠ [])
    (h : s.counted around = .ok t) : t.rest.length < s.rest.length := by
  have hpos : 0 < s.rest.length := List.length_pos_iff.mpr hs
  unfold counted at h
  extract_lets opened read low high at h
  have hlow : low.rest.length < s.rest.length := by
    have := (List.dropWhile_sublist Char.isDigit (l := s.rest.tail)).length_le
    simp [low, read, opened] at this ⊢; omega
  have hhigh : high.rest.length ≤ low.rest.length := by
    simp only [high]
    split
    · have := (List.dropWhile_sublist Char.isDigit (l := low.rest.tail)).length_le
      simp at this ⊢; omega
    · exact Nat.le_refl _
  cases hc : high.expect around '}' with
  | error e => simp [hc, Except.map] at h
  | ok u =>
    have hu := length_rest_of_expect around hc
    have hl := length_rest_strayLazy_le around u
    simp only [hc, Except.map, Except.ok.injEq] at h
    subst h
    omega

theorem length_rest_of_quantifier {s t : Strand} (h : s.quantifier around = .ok t) :
    t.rest.length ≤ s.rest.length := by
  unfold quantifier at h
  split at h
  case h_7 => obtain rfl := Except.ok.inj h; exact Nat.le_refl _
  case h_6 hs => exact Nat.le_of_lt (length_rest_of_counted around (by simp [hs]) h)
  case h_5 =>
    obtain rfl := Except.ok.inj h
    have := length_rest_strayLazy_le around s.take
    simp only [rest_take, List.length_tail] at this; omega
  all_goals
    obtain rfl := Except.ok.inj h
    simp only [rest_take, List.length_tail]; omega

theorem length_rest_of_groupOpening {s t : Strand} (hs : s.rest ≠ [])
    (h : s.groupOpening around = .ok t) : t.rest.length < s.rest.length := by
  have hpos : 0 < s.rest.length := List.length_pos_iff.mpr hs
  have htake : s.take.rest.length < s.rest.length := by simp; omega
  unfold groupOpening at h
  extract_lets u at h
  split at h
  case h_3 =>
    have := length_rest_of_expect around h
    simp only [u, rest_take, List.length_tail] at this htake; omega
  all_goals
    obtain rfl := Except.ok.inj h
    simp only [u, rest_take, rest_note, List.length_tail] at htake ⊢; omega

theorem length_rest_of_classMembers {range : Bool} {s t : Strand}
    (h : s.classMembers around range = .ok t) : t.rest.length ≤ s.rest.length := by
  fun_induction classMembers around range s generalizing t with
  | case1 range s hs => have := length_rest_of_expect around h; simp [hs] at this
  | case2 => obtain rfl := Except.ok.inj h; simp
  | case3 => simp at h
  | case4 range s c rest hs hc u hu hyphen ih =>
    have := length_rest_of_classAtom around (by simp [hs]) hu
    have := ih h
    simp only [rest_take, List.length_tail] at this; omega
  | case5 range s c rest hs hc u hu hyphen ih =>
    have := length_rest_of_classAtom around (by simp [hs]) hu
    have := ih h
    omega

theorem length_rest_of_charClass {s t : Strand} (hs : s.rest ≠ [])
    (h : s.charClass around = .ok t) : t.rest.length < s.rest.length := by
  have hpos : 0 < s.rest.length := List.length_pos_iff.mpr hs
  unfold charClass at h
  have := length_rest_of_classMembers around h
  split at this <;> simp only [rest_take, List.length_tail] at this <;> omega

theorem length_rest_of_factor {c : Char} {s t : Strand} (hs : s.rest ≠ [])
    (h : s.factor around c = .ok t) : t.rest.length < s.rest.length := by
  unfold factor at h
  split at h
  · exact length_rest_of_charClass around hs h
  · split at h
    · exact length_rest_of_escape around hs h
    · obtain rfl := Except.ok.inj h
      have : 0 < s.rest.length := List.length_pos_iff.mpr hs
      simp; omega

@[simp] theorem rest_noteEmptyGroup (s : Strand) :
    (s.noteEmptyGroup around).rest = s.rest := by
  simp [noteEmptyGroup]

/-! ### Patterns -/

/-- Reads a pattern up to its closing slash, which is left, while `depth` groups are
open. `anchored` says whether a factor so far anchors at a line boundary. -/
def pattern (depth : Nat) (anchored : Bool) (s : Strand) : Reading (Strand × Bool) :=
  match _hs : s.rest with
  | [] => s.missing around (closing depth)
  | c :: _ =>
    if c = '/' ∧ depth = 0 then .ok (s, anchored)
    else if c = ')' ∧ depth ≠ 0 then
      match _h : s.take.quantifier around with
      | .error halt => .error halt
      | .ok t => pattern (depth - 1) anchored t
    else if c = '/' ∨ c = ')' ∨ c = ']' then s.missing around (closing depth)
    else if c = '(' then
      match _h : s.groupOpening around with
      | .error halt => .error halt
      | .ok t => pattern (depth + 1) anchored (t.noteEmptyGroup around)
    else
      match _h : s.factor around c with
      | .error halt => .error halt
      | .ok t =>
        match _h' : t.quantifier around with
        | .error halt => .error halt
        | .ok u => pattern depth (anchored || s.anchorsLine c) u
termination_by s.rest.length
decreasing_by
  · have := length_rest_of_quantifier around _h
    simp [_hs] at this ⊢; omega
  · simpa using length_rest_of_groupOpening around (by simp [_hs]) _h
  · have := length_rest_of_factor around (by simp [_hs]) _h
    have := length_rest_of_quantifier around _h'
    omega
where
  /-- What closes the innermost group, or the pattern. -/
  closing (depth : Nat) : Char := if depth = 0 then '/' else ')'

/-! ### Literals -/

/-- Reads the flags after a pattern: a run of letters, of which each should be a flag
and none should be `seen` before. -/
def flags (body : String) (seen : List Char) (s : Strand) : Strand × List Char :=
  match _hs : s.rest with
  | [] => (s, seen)
  | c :: _ =>
    if c.isAlpha then
      let bad := !patternFlags.contains c || seen.contains c
      flags body (c :: seen)
        (s.noteIf around bad .invalidRegex (s.nextColumn around) [body, c.toString]).take
    else (s, seen)
termination_by s.rest.length
decreasing_by simp [_hs]

/-- Reads a regular expression after its opening slash. The result says whether its
pattern needs a flag `m` that is missing. A slash or star right after it is a
fault. -/
def regex (s : Strand) : Reading (Strand × Bool) :=
  let s := s.noteIf around (s.rest.head? == some '=') .invalidRegex (s.nextColumn around)
    ["/", "="]
  match (s.noteEmptyGroup around).pattern around 0 false with
  | .error halt => .error halt
  | .ok (t, anchored) =>
    let (read, flags) := t.take.flags around t.text []
    match read.rest.head? with
    | some '/' => read.halt around .invalidRegex around.origin [t.text, "/"]
    | some '*' => read.halt around .invalidRegex around.origin [t.text, "*"]
    | _ => .ok (read, anchored && !flags.contains 'm')

end ScriptLint.Strand
