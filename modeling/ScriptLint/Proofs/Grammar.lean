import Mathlib.Computability.Language
import Mathlib.Data.List.TakeWhile
import ScriptLint.Proofs.ActiveDirectives

/-!
# Written forms

Forms of written text as languages over characters, and the longest start of a text
that has a form. A reader that never backs up takes such starts one after the other.

## Main definitions

* `charIn`, `word`, `maybe` — the forms that others are made of
* `Longest` — the longest start of a text with a form, and what is left
* `identifier`, `numberLead` — the forms of identifiers and of the leads of numbers

## Main statements

* `Longest.unique` — a text has at most one longest start of a form
* `Longest.mul` — longest starts one after the other, where the later cannot begin early
* `longest_identifier`, `longest_numberLead` — what the matchers of lexemes measure
-/

namespace ScriptLint

open Computability

/-! ### Forms -/

/-- One character of a class. -/
def charIn (p : Char → Bool) : Language Char := {text | ∃ c, p c = true ∧ text = [c]}

/-- One text. -/
def word (text : String) : Language Char := {text.toList}

/-- A form, or nothing. -/
def maybe (form : Language Char) : Language Char := 1 + form

variable {p : Char → Bool} {form other : Language Char} {text piece piece' rest rest' : List Char}

/-- Runs of a class, the empty one too. -/
theorem mem_kstar_charIn : piece ∈ (charIn p)∗ ↔ ∀ c ∈ piece, p c = true := by
  constructor
  · rintro ⟨parts, rfl, hparts⟩ c hc
    obtain ⟨part, hpart, hmem⟩ := List.mem_flatten.mp hc
    obtain ⟨d, hd, rfl⟩ := hparts part hpart
    exact List.mem_singleton.mp hmem ▸ hd
  · intro h
    have hsplit : piece = (piece.map ([·])).flatten := by
      rw [← List.flatMap_def, List.flatMap_singleton']
    refine ⟨piece.map ([·]), hsplit, fun part hpart => ?_⟩
    obtain ⟨c, hc, rfl⟩ := List.mem_map.mp hpart
    exact ⟨c, h c hc, rfl⟩

/-! ### Longest starts -/

/-- **The longest start** of a text with a form, and what is left behind it. -/
structure Longest (form : Language Char) (text piece rest : List Char) : Prop where
  /-- The text goes on behind the piece. -/
  split : text = piece ++ rest
  /-- The piece has the form. -/
  mem : piece ∈ form
  /-- No start of the text with the form is longer. -/
  longest : ∀ other ∈ form, other <+: text → other.length ≤ piece.length

/-- A text has at most one longest start of a form. -/
theorem Longest.unique (h : Longest form text piece rest) (h' : Longest form text piece' rest') :
    piece = piece' ∧ rest = rest' := by
  have hle := h'.longest piece h.mem ⟨rest, h.split.symm⟩
  have hge := h.longest piece' h'.mem ⟨rest', h'.split.symm⟩
  exact List.append_inj (h.split.symm.trans h'.split) (Nat.le_antisymm hle hge)

theorem Longest.take_length (h : Longest form text piece rest) :
    text.take piece.length = piece := by
  rw [h.split, List.take_left]

theorem Longest.drop_length (h : Longest form text piece rest) :
    text.drop piece.length = rest := by
  rw [h.split, List.drop_left]

/-- The longest run of a class. -/
theorem longest_run (p : Char → Bool) (text : List Char) :
    Longest (charIn p)∗ text (text.takeWhile p) (text.dropWhile p) where
  split := List.takeWhile_append_dropWhile.symm
  mem := mem_kstar_charIn.mpr fun _ hc => List.mem_takeWhile_imp hc
  longest := by
    rintro run hrun ⟨rest, rfl⟩
    rw [List.takeWhile_append_of_pos (mem_kstar_charIn.mp hrun), List.length_append]
    exact Nat.le_add_right _ _

/-- The one start that is a given word. -/
theorem longest_word (text : String) (rest : List Char) :
    Longest (word text) (text.toList ++ rest) text.toList rest where
  split := rfl
  mem := rfl
  longest := by
    rintro other rfl -
    exact Nat.le_refl _

/-- A character of a class. -/
theorem longest_charIn {c : Char} (h : p c = true) (rest : List Char) :
    Longest (charIn p) (c :: rest) [c] rest where
  split := rfl
  mem := ⟨c, h, rfl⟩
  longest := by
    rintro other ⟨d, -, rfl⟩ -
    exact Nat.le_refl _

/-- A form that may be left out is taken where it stands. -/
theorem Longest.maybe (h : Longest form text piece rest) :
    Longest (ScriptLint.maybe form) text piece rest where
  split := h.split
  mem := .inr h.mem
  longest := by
    rintro other (rfl | hother) hstarts
    · exact Nat.zero_le _
    · exact h.longest other hother hstarts

/-- A form that may be left out is left out where it does not stand. -/
theorem longest_maybe_of_none (h : ∀ piece ∈ form, ¬ piece <+: text) :
    Longest (maybe form) text [] text where
  split := rfl
  mem := .inl rfl
  longest := by
    rintro other (rfl | hother) hstarts
    · exact Nat.le_refl _
    · exact absurd hstarts (h other hother)

/-- **Longest starts one after the other**, where what may come second does not begin inside
the first. -/
theorem Longest.mul (h : Longest form text piece rest) (h' : Longest other rest piece' rest')
    (hbegin : ∀ first ∈ form, ∀ c more, piece = first ++ c :: more → ∀ tail, c :: tail ∉ other) :
    Longest (form * other) text (piece ++ piece') rest' where
  split := by rw [h.split, h'.split, List.append_assoc]
  mem := Language.append_mem_mul h.mem h'.mem
  longest := by
    intro _ hmem hstarts
    obtain ⟨first, hfirst, second, hsecond, rfl⟩ := Language.mem_mul.mp hmem
    have hstart : first <+: text := (List.prefix_append _ _).trans hstarts
    obtain ⟨more, rfl⟩ : first <+: piece :=
      List.prefix_of_prefix_length_le hstart ⟨rest, h.split.symm⟩ (h.longest first hfirst hstart)
    rw [h.split, List.append_assoc, List.prefix_append_right_inj] at hstarts
    rw [List.append_assoc, List.length_append, List.length_append, List.length_append]
    cases more with
    | nil =>
      have := h'.longest second hsecond hstarts
      omega
    | cons c more =>
      cases second with
      | nil => simp
      | cons d tail =>
        obtain ⟨rfl, -⟩ := List.cons_prefix_cons.mp hstarts
        exact absurd hsecond (hbegin first hfirst d more rfl tail)

/-- A given text and the longest that follows it. -/
theorem Longest.fixed (h : Longest form text piece rest) (lead : List Char) :
    Longest ({lead} * form) (lead ++ text) (lead ++ piece) rest := by
  have hlead : Longest {lead} (lead ++ text) lead text := by
    refine ⟨rfl, rfl, ?_⟩
    rintro _ rfl -
    exact Nat.le_refl _
  refine hlead.mul h ?_
  rintro _ rfl c more hcut
  exact absurd (List.self_eq_append_right.mp hcut) (List.cons_ne_nil _ _)

/-- A character of a class and the longest that follows it. -/
theorem Longest.cons {c : Char} (hc : p c = true) (h : Longest form text piece rest) :
    Longest (charIn p * form) (c :: text) (c :: piece) rest := by
  refine (longest_charIn hc text).mul h ?_
  rintro _ ⟨d, -, rfl⟩ e more hcut
  exact absurd (List.cons.inj hcut).2 (List.cons_ne_nil _ _).symm

/-! ### Identifiers and the leads of numbers -/

/-- **Identifiers**: an ASCII letter, `_` or `$`, and then these and digits. -/
def identifier : Language Char := charIn isIdentifierStart * (charIn isIdentifierPart)∗

/-- A digit that more digits may follow at the start of a number. -/
def isNonzeroDigit (c : Char) : Bool := c.isDigit && c != '0'

/-- **The leads of numbers**: `0`, or digits of which the first is not `0`, and then `n` or
nothing. -/
def numberLead : Language Char :=
  (word "0" + charIn isNonzeroDigit * (charIn Char.isDigit)∗) * maybe (word "n")

/-- What begins an identifier goes on with one. -/
theorem isIdentifierPart_of_isIdentifierStart {c : Char} (h : isIdentifierStart c = true) :
    isIdentifierPart c = true := by
  simp only [isIdentifierStart, isIdentifierPart, Char.isAlphanum, Bool.or_eq_true] at h ⊢
  tauto

/-- The code points of digits. -/
theorem toNat_of_isDigit {c : Char} (h : c.isDigit = true) : 48 ≤ c.toNat ∧ c.toNat ≤ 57 := by
  obtain ⟨hlow, hhigh⟩ := Bool.and_eq_true_iff.mp h
  exact ⟨UInt32.le_iff_toNat_le.mp (of_decide_eq_true hlow),
    UInt32.le_iff_toNat_le.mp (of_decide_eq_true hhigh)⟩

/-- No blank goes on with an identifier. -/
theorem isBlank_eq_false_of_isIdentifierPart {c : Char} (h : isIdentifierPart c = true) :
    isBlank c = false := by
  by_cases hdigit : c.isDigit = true
  · obtain ⟨hlow, hhigh⟩ := toNat_of_isDigit hdigit
    simp only [isBlank, Bool.or_eq_false_iff, Bool.and_eq_false_iff, decide_eq_false_iff_not,
      beq_eq_false_iff_ne]
    omega
  · refine isBlank_eq_false_of_isIdentifierStart ?_
    simpa [isIdentifierPart, isIdentifierStart, Char.isAlphanum, hdigit] using h

theorem mem_identifier :
    piece ∈ identifier ↔ ∃ c tail, piece = c :: tail ∧ isIdentifierStart c = true ∧
      ∀ d ∈ tail, isIdentifierPart d = true := by
  constructor
  · intro h
    obtain ⟨_, ⟨c, hc, rfl⟩, tail, htail, rfl⟩ := Language.mem_mul.mp h
    exact ⟨c, tail, rfl, hc, mem_kstar_charIn.mp htail⟩
  · rintro ⟨c, tail, rfl, hc, htail⟩
    exact Language.append_mem_mul (a := [c]) ⟨c, hc, rfl⟩ (mem_kstar_charIn.mpr htail)

/-- **The longest identifier** at the start of a text is as long as the matcher says. -/
theorem longest_identifier (h : identifierLength text ≠ 0) :
    Longest identifier text (text.take (identifierLength text))
      (text.drop (identifierLength text)) := by
  cases text with
  | nil => exact absurd rfl h
  | cons c rest =>
    have hc : isIdentifierStart c = true := by
      by_contra hc
      exact h (if_neg hc)
    have hlongest := (longest_run isIdentifierPart rest).cons hc
    have hlength : identifierLength (c :: rest) =
        (c :: rest.takeWhile isIdentifierPart).length := by
      rw [identifierLength, if_pos hc, List.length_cons, Nat.add_comm]
    rw [hlength, hlongest.take_length, hlongest.drop_length]
    exact hlongest

theorem identifierLength_ne_zero (h : piece ∈ identifier) (hstarts : piece <+: text) :
    identifierLength text ≠ 0 := by
  obtain ⟨c, tail, rfl, hc, -⟩ := mem_identifier.mp h
  obtain ⟨rest, rfl⟩ := hstarts
  rw [List.cons_append, identifierLength, if_pos hc]
  omega

/-- No digit begins an identifier. -/
theorem isIdentifierStart_eq_false_of_isDigit {c : Char} (h : c.isDigit = true) :
    isIdentifierStart c = false := by
  obtain ⟨hlow, hhigh⟩ := toNat_of_isDigit h
  rw [Bool.eq_false_iff]
  intro hstart
  simp only [isIdentifierStart, Bool.or_eq_true, beq_iff_eq] at hstart
  rcases hstart with (hletter | rfl) | rfl
  · rcases Bool.or_eq_true_iff.mp hletter with hupper | hlower
    · have hlow : 65 ≤ c.toNat := UInt32.le_iff_toNat_le.mp
        (of_decide_eq_true hupper).1
      omega
    · have hlow : 97 ≤ c.toNat := UInt32.le_iff_toNat_le.mp
        (of_decide_eq_true (Bool.and_eq_true_iff.mp hlower).1)
      omega
  · exact absurd hhigh (by decide)
  · exact absurd hlow (by decide)

/-- A number begins with a digit. -/
theorem isDigit_of_numberLength_ne_zero {c : Char} {rest : List Char}
    (h : numberLength (c :: rest) ≠ 0) : c.isDigit = true := by
  by_contra hc
  refine h ((if_neg ?_).trans (if_neg hc))
  rintro rfl
  exact hc (by decide)

theorem longest_digits {c : Char} (hc : c.isDigit = true) (rest : List Char) :
    ∃ digits behind, Longest (word "0" + charIn isNonzeroDigit * (charIn Char.isDigit)∗)
        (c :: rest) digits behind ∧ (∀ d ∈ digits, d.isDigit = true) ∧
      numberLength (c :: rest) = countSuffix 'n' digits.length behind := by
  by_cases hzero : c = '0'
  · subst hzero
    refine ⟨['0'], rest, ⟨rfl, .inl rfl, ?_⟩, List.forall_mem_singleton.mpr rfl, rfl⟩
    rintro other (rfl | hother) ⟨behind, hsplit⟩
    · exact Nat.le_refl _
    · obtain ⟨_, ⟨d, hd, rfl⟩, digits, -, rfl⟩ := Language.mem_mul.mp hother
      obtain ⟨rfl, -⟩ := List.cons.inj hsplit
      cases hd
  · have hlead : isNonzeroDigit c = true := by simp [isNonzeroDigit, hc, hzero]
    have hlongest := (longest_run Char.isDigit rest).cons hlead
    refine ⟨_, _, ⟨hlongest.split, .inr hlongest.mem, ?_⟩, ?_, ?_⟩
    · rintro other (rfl | hother) hstarts
      · obtain ⟨behind, hsplit⟩ := hstarts
        exact absurd (List.cons.inj hsplit).1.symm hzero
      · exact hlongest.longest other hother hstarts
    · intro d hd
      rcases List.mem_cons.mp hd with rfl | hd
      · exact hc
      · exact List.mem_takeWhile_imp hd
    · rw [numberLength, if_neg hzero, if_pos hc, List.length_cons, Nat.add_comm]

/-- **The longest lead of a number** at the start of a text is as long as the matcher says. -/
theorem longest_numberLead (h : numberLength text ≠ 0) :
    Longest numberLead text (text.take (numberLength text)) (text.drop (numberLength text)) := by
  cases text with
  | nil => exact absurd rfl h
  | cons c rest =>
    have hc := isDigit_of_numberLength_ne_zero h
    obtain ⟨digits, behind, hdigits, hall, hlength⟩ := longest_digits hc rest
    -- The suffix `n` is no digit, so it stands behind all of them.
    have hsuffix {piece after : List Char} (hn : Longest (maybe (word "n")) behind piece after) :
        Longest numberLead (c :: rest) (digits ++ piece) after := by
      refine hdigits.mul hn ?_
      rintro first - d more rfl tail (hnil | hword)
      · cases hnil
      · obtain ⟨rfl, -⟩ : d = 'n' ∧ tail = [] := List.cons.inj hword
        exact absurd (hall 'n' (by simp)) (by decide)
    have hlead : ∃ piece after, Longest numberLead (c :: rest) piece after ∧
        numberLength (c :: rest) = piece.length := by
      rw [hlength, countSuffix]
      split
      · next hhead =>
        obtain ⟨after, rfl⟩ := List.head?_eq_some_iff.mp hhead
        exact ⟨_, _, hsuffix (longest_word "n" after).maybe, by simp⟩
      · next hhead =>
        refine ⟨_, _, hsuffix (longest_maybe_of_none ?_), by simp⟩
        rintro _ rfl ⟨after, rfl⟩
        exact hhead rfl
    obtain ⟨piece, after, hpiece, heq⟩ := hlead
    rw [heq, hpiece.take_length, hpiece.drop_length]
    exact hpiece

theorem numberLength_ne_zero (h : piece ∈ numberLead) (hstarts : piece <+: text) :
    numberLength text ≠ 0 := by
  obtain ⟨digits, hdigits, suffix, -, rfl⟩ := Language.mem_mul.mp h
  obtain ⟨rest, rfl⟩ := hstarts
  have hpos (count : Nat) (behind : List Char) : countSuffix 'n' (count + 1) behind ≠ 0 := by
    unfold countSuffix
    split <;> exact Nat.succ_ne_zero _
  rcases hdigits with rfl | hdigits
  · exact hpos 0 _
  · obtain ⟨_, ⟨d, hd, rfl⟩, more, -, rfl⟩ := Language.mem_mul.mp hdigits
    obtain ⟨hdigit, hzero⟩ := Bool.and_eq_true_iff.mp hd
    simp only [List.append_assoc, List.cons_append, List.nil_append]
    rw [numberLength, if_neg (by simpa using hzero), if_pos hdigit, Nat.add_comm]
    exact hpos _ _

/-- The matcher measures the longest lead. -/
theorem numberLength_of_longest (h : Longest numberLead text piece rest) :
    numberLength text = piece.length := by
  have hpos := numberLength_ne_zero h.mem ⟨rest, h.split.symm⟩
  obtain ⟨rfl, -⟩ := h.unique (longest_numberLead hpos)
  rw [List.length_take, Nat.min_eq_left (numberLength_le text)]

end ScriptLint
