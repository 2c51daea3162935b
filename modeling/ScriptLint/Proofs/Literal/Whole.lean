import ScriptLint.Literal.Number
import ScriptLint.Literal.Pattern
import ScriptLint.Literal.Quoted

/-!
# Literals are pieces of their line

A literal is read by moving the border between what is taken and what is left.  No
operation on a strand loses, repeats or invents a character: the **whole** of the
strand stays the same.  So the text of a literal is the piece of the line that it
takes, through escapes, digits, quantifiers and flags alike.

## Main statements

* `whole_of_number`, `whole_of_quoted`, `whole_of_regex` — the three kinds of literal
* `head?_rest_of_quoted` — a string is left at its closing quote
* `take_of_whole` — the taken characters are the first of the whole
-/

namespace ScriptLint.Strand

variable (around : Surroundings)

/-- What a strand that starts with nothing taken has taken is the beginning of its text. -/
theorem take_of_whole {text : List Char} {t : Strand} (h : t.whole = text) :
    text.take t.taken.length = t.taken.reverse := by
  rw [← h, whole]
  simp

/-! ### Single characters -/

@[simp] theorem whole_note (s : Strand) (rule : Rule) (column : Nat) (args : List String) :
    (s.note around rule column args).whole = s.whole := rfl

@[simp] theorem whole_noteErrorIf (s : Strand) (p : Bool) (rule : Rule) (column : Nat)
    (args : List String) : (s.noteErrorIf around p rule column args).whole = s.whole := by
  unfold noteErrorIf
  split <;> rfl

@[simp] theorem whole_noteEmptyGroup (s : Strand) :
    (s.noteEmptyGroup around).whole = s.whole := by
  simp [noteEmptyGroup]

theorem whole_of_expect {s t : Strand} {c : Char} (h : s.expect around c = .ok t) :
    t.whole = s.whole := by
  unfold expect at h
  split at h
  · obtain rfl := Except.ok.inj h
    simp
  · exact absurd h (missing_ne_ok around s c t)

/-! ### Escapes -/

theorem whole_bracedCodePoint (s : Strand) :
    (s.bracedCodePoint around).whole = s.whole := by
  simp [bracedCodePoint]

theorem whole_plainCodeUnit (s : Strand) : (s.plainCodeUnit around).whole = s.whole := by
  simp [plainCodeUnit]

theorem whole_of_escape {allowed : List Char} {s t : Strand}
    (h : s.escape around allowed = .ok t) : t.whole = s.whole := by
  unfold escape escaped at h
  split at h
  · simp [halt] at h
  · obtain rfl := Except.ok.inj h
    simp [whole_bracedCodePoint]
  · obtain rfl := Except.ok.inj h
    simp [whole_plainCodeUnit]
  · split at h
    · obtain rfl := Except.ok.inj h
      simp
    · obtain rfl := Except.ok.inj h
      simp

/-! ### Numbers and strings -/

theorem whole_of_number {lead : Nat} {s t : Strand} (h : s.number around lead = .ok t) :
    t.whole = s.whole := by
  unfold number at h
  extract_lets read at h
  have hread : read.whole = s.whole := by
    rw [whole_numberTail, whole_takeN]
  split at h
  · split at h
    · simp [halt] at h
    · obtain rfl := Except.ok.inj h
      exact hread
  · obtain rfl := Except.ok.inj h
    exact hread

theorem whole_of_quoted {quote : Char} {s t : Strand} (h : s.quoted around quote = .ok t) :
    t.whole = s.whole := by
  fun_induction quoted around quote s with
  | case1 => simp [halt] at h
  | case2 => simp at h
  | case3 s tail u hu hs ih => rw [ih h, whole_of_escape around hu]
  | case4 s tail hs hne =>
    obtain rfl := Except.ok.inj h
    rfl
  | case5 s c tail hs hslash hquote ih => simpa using ih h

/-- A string is left at its closing quote. -/
theorem head?_rest_of_quoted {quote : Char} {s t : Strand}
    (h : s.quoted around quote = .ok t) : t.rest.head? = some quote := by
  fun_induction quoted around quote s with
  | case1 => simp [halt] at h
  | case2 => simp at h
  | case3 s tail u hu hs ih => exact ih h
  | case4 s tail hs hne =>
    obtain rfl := Except.ok.inj h
    rw [hs]
    rfl
  | case5 s c tail hs hslash hquote ih => exact ih h

/-! ### Regular expressions -/

theorem whole_of_classAtom {c : Char} {s t : Strand} (h : s.classAtom around c = .ok t) :
    t.whole = s.whole := by
  unfold classAtom at h
  split at h
  · exact whole_of_escape around h
  · obtain rfl := Except.ok.inj h
    simp

theorem whole_of_classMembers {range : Bool} {s t : Strand}
    (h : s.classMembers around range = .ok t) : t.whole = s.whole := by
  fun_induction classMembers around range s with
  | case1 range s hs => simpa using whole_of_expect around h
  | case2 =>
    obtain rfl := Except.ok.inj h
    simp
  | case3 => simp at h
  | case4 range s c rest hs hc u hu hyphen ih =>
    rw [ih h, whole_take, whole_of_classAtom around hu]
  | case5 range s c rest hs hc u hu hyphen ih =>
    rw [ih h, whole_of_classAtom around hu]

theorem whole_of_charClass {s t : Strand} (h : s.charClass around = .ok t) :
    t.whole = s.whole := by
  unfold charClass at h
  rw [whole_of_classMembers around h]
  split <;> simp

theorem whole_strayLazy (s : Strand) : (s.strayLazy around).whole = s.whole := by
  unfold strayLazy
  split <;> simp

theorem whole_of_counted {s t : Strand} (h : s.counted around = .ok t) :
    t.whole = s.whole := by
  unfold counted at h
  extract_lets opened read low high at h
  have hlow : low.whole = s.whole := by
    simp [low, read, opened]
  have hhigh : high.whole = low.whole := by
    simp only [high]
    split <;> simp
  cases hc : high.expect around '}' with
  | error e => simp [hc, Except.map] at h
  | ok u =>
    simp only [hc, Except.map, Except.ok.injEq] at h
    rw [← h, whole_strayLazy, whole_of_expect around hc, hhigh, hlow]

theorem whole_of_quantifier {s t : Strand} (h : s.quantifier around = .ok t) :
    t.whole = s.whole := by
  unfold quantifier at h
  split at h
  case h_7 => rw [Except.ok.inj h]
  case h_6 => exact whole_of_counted around h
  case h_5 => rw [← Except.ok.inj h, whole_strayLazy, whole_take]
  all_goals
    obtain rfl := Except.ok.inj h
    simp

theorem whole_of_groupOpening {s t : Strand} (h : s.groupOpening around = .ok t) :
    t.whole = s.whole := by
  unfold groupOpening at h
  extract_lets u at h
  split at h
  case h_3 => rw [whole_of_expect around h, whole_take, whole_take]
  all_goals
    obtain rfl := Except.ok.inj h
    simp [u]

theorem whole_of_factor {c : Char} {s t : Strand} (h : s.factor around c = .ok t) :
    t.whole = s.whole := by
  unfold factor at h
  split at h
  · exact whole_of_charClass around h
  · split at h
    · exact whole_of_escape around h
    · obtain rfl := Except.ok.inj h
      simp

theorem whole_of_pattern {depth : Nat} {anchored : Bool} {s t : Strand} {found : Bool}
    (h : s.pattern around depth anchored = .ok (t, found)) : t.whole = s.whole := by
  fun_induction pattern around depth anchored s with
  | case1 depth anchored s hs => exact absurd h (missing_ne_ok around s _ _)
  | case2 => rw [(Prod.mk.inj (Except.ok.inj h)).1]
  | case3 => simp at h
  | case4 depth anchored s c tail hs hslash hclose u hu ih =>
    rw [ih h, whole_of_quantifier around hu, whole_take]
  | case5 depth anchored s => exact absurd h (missing_ne_ok around s _ _)
  | case6 => simp at h
  | case7 depth anchored s tail u hu hs hslash hclose hend ih =>
    rw [ih h, whole_noteEmptyGroup, whole_of_groupOpening around hu]
  | case8 => simp at h
  | case9 => simp at h
  | case10 depth anchored s c tail hs hslash hclose hend hopen u hu v hv ih =>
    rw [ih h, whole_of_quantifier around hv, whole_of_factor around hu]

theorem whole_flags (body : String) (seen : List Char) (s : Strand) :
    (s.flags around body seen).1.whole = s.whole := by
  fun_induction flags around body seen s with
  | case1 => rfl
  | case2 seen s c rest hs hc bad ih => simpa using ih
  | case3 => rfl

theorem whole_of_regex {s t : Strand} {missesFlag : Bool}
    (h : s.regex around = .ok (t, missesFlag)) : t.whole = s.whole := by
  unfold regex at h
  extract_lets u at h
  split at h
  · simp at h
  · next v anchored hv =>
    have hu : v.whole = s.whole := by
      rw [whole_of_pattern around hv, whole_noteEmptyGroup, whole_noteIf]
    have hread := whole_flags around v.text [] v.take
    rw [whole_take, hu] at hread
    generalize v.take.flags around v.text [] = read at h hread
    simp only at h
    split at h
    · simp [halt] at h
    · simp [halt] at h
    · rw [← (Prod.mk.inj (Except.ok.inj h)).1]
      exact hread

end ScriptLint.Strand
