import ScriptLint.Proofs.Findings
import ScriptLint.Proofs.Grammar
import ScriptLint.Proofs.Scan.Additions
import ScriptLint.Proofs.Scan.Placement

/-!
# Number literals

A number goes on behind its lead as far as the form of its kind allows: with the digits of
another base behind `0b`, `0o` and `0x`, and with a fraction and an exponent otherwise. A point,
an exponent and the letter of a base call for digits, which may be missing; each time they are is
a finding. A letter or digit that follows the number is a fault.

## Main definitions

* `numberForm` — the form of a number that begins with a lead
* `Announced` — a mark and the digits it calls for, as far as they go
* `NumberAt` — the number that stands behind a lead, and the texts that miss digits
* `ReadsNumber` — what a step does at a number

## Main statements

* `NumberAt.longest` — the number that stands there is the longest text of the form
* `number_read` — numbers are read, and what they miss is reported
-/

namespace ScriptLint

open Computability

/-! ### Forms -/

/-- The letter of a base. -/
def isRadixLetter (c : Char) : Bool := c == 'b' || c == 'o' || c == 'x'

/-- The letter of an exponent. -/
def isExponentLetter (c : Char) : Bool := c == 'e' || c == 'E'

/-- The sign of an exponent. -/
def isSign (c : Char) : Bool := c == '+' || c == '-'

/-- The letter of a base and digits of the base. -/
def radixForm : Language Char :=
  word "b" * (charIn isBinaryDigit)∗ + word "o" * (charIn isOctalDigit)∗ +
    word "x" * (charIn isHexDigit)∗

/-- A point and digits. -/
def fractionForm : Language Char := word "." * (charIn Char.isDigit)∗

/-- The letter of an exponent, and a sign or none. -/
def exponentMark : Language Char := charIn isExponentLetter * maybe (charIn isSign)

/-- An exponent: its mark and digits. -/
def exponentForm : Language Char := exponentMark * (charIn Char.isDigit)∗

/-- **A base is called**: the lead is a bare `0` and the letter of a base follows. -/
def CallsRadix (lead behind : List Char) : Prop :=
  lead = ['0'] ∧ behind.head?.any isRadixLetter = true

instance (lead behind : List Char) : Decidable (CallsRadix lead behind) :=
  inferInstanceAs (Decidable (_ ∧ _))

/-- **The form of a number** that begins with a lead, by what follows the lead. -/
def numberForm (lead behind : List Char) : Language Char :=
  if CallsRadix lead behind then {['0']} * (radixForm * maybe (word "n"))
  else {lead} * (maybe fractionForm * maybe exponentForm)

/-! ### Digits that a mark calls for -/

/-- **Digits called for**: a mark that stands at the start of a text and the digits behind it, as
far as they go, or nothing. If there are no digits, the text up to there misses them. -/
inductive Announced (mark : Language Char) (digit : Char → Bool) (front text : List Char) :
    List Char → List Char → List (List Char) → Prop
  /-- No mark stands there. -/
  | absent (none : ∀ sign ∈ mark, ¬ sign <+: text) : Announced mark digit front text [] text []
  /-- A mark and its digits. -/
  | present {sign behind digits after : List Char} (mark_longest : Longest mark text sign behind)
      (digits_longest : Longest (charIn digit)∗ behind digits after) :
      Announced mark digit front text (sign ++ digits) after
        (if digits = [] then [front ++ sign] else [])

/-- **The number behind a lead**: its text, what follows it, and the texts up to where it misses
digits. -/
inductive NumberAt (lead behind : List Char) :
    List Char → List Char → List (List Char) → Prop
  /-- Digits of the base that is called, and `n` or nothing. -/
  | radix {letter : Char} {digit : Char → Bool} {piece behindPiece suffix after : List Char}
      {empty : List (List Char)} (bare : lead = ['0']) (letter_ahead : behind.head? = some letter)
      (base : Strand.radixDigit? letter = some digit)
      (digits : Announced (charIn (· == letter)) digit lead behind piece behindPiece empty)
      (suffix_longest : Longest (maybe (word "n")) behindPiece suffix after) :
      NumberAt lead behind (lead ++ (piece ++ suffix)) after empty
  /-- A fraction and an exponent, or nothing. -/
  | decimal {fraction behindFraction exponent after : List Char} {empty empty' : List (List Char)}
      (plain : ¬ CallsRadix lead behind)
      (fraction_longest :
        Announced (word ".") Char.isDigit lead behind fraction behindFraction empty)
      (exponent_longest : Announced exponentMark Char.isDigit (lead ++ fraction) behindFraction
        exponent after empty') :
      NumberAt lead behind (lead ++ (fraction ++ exponent)) after (empty ++ empty')

variable {mark : Language Char} {digit : Char → Bool}
  {lead behind front text piece after : List Char} {empty : List (List Char)}

/-- A mark and its digits are the longest text of this form, if no mark has digits. -/
theorem Announced.longest (h : Announced mark digit front text piece after empty)
    (hmark : ∀ sign ∈ mark, ∀ c ∈ sign, digit c = false) :
    Longest (maybe (mark * (charIn digit)∗)) text piece after := by
  cases h with
  | absent none =>
    refine longest_maybe_of_none fun piece hpiece hstarts => ?_
    obtain ⟨sign, hsign, digits, -, rfl⟩ := Language.mem_mul.mp hpiece
    exact none sign hsign ((List.prefix_append _ _).trans hstarts)
  | present mark_longest digits_longest =>
    refine (mark_longest.mul digits_longest ?_).maybe
    rintro first - c more rfl tail htail
    have hdigit := mem_kstar_charIn.mp htail c List.mem_cons_self
    rw [hmark _ mark_longest.mem c (by simp)] at hdigit
    cases hdigit

theorem cons_mem_mul {c d : Char} {form : Language Char} {tail : List Char} :
    c :: tail ∈ ({[d]} : Language Char) * form ↔ c = d ∧ tail ∈ form := by
  constructor
  · intro h
    obtain ⟨_, rfl, behind, hbehind, heq⟩ := Language.mem_mul.mp h
    obtain ⟨rfl, rfl⟩ := List.cons.inj heq
    exact ⟨rfl, hbehind⟩
  · rintro ⟨rfl, htail⟩
    exact Language.append_mem_mul (a := [c]) rfl htail

/-- The letters of bases and their digits. -/
theorem radix_cases {letter : Char} (h : Strand.radixDigit? letter = some digit) :
    letter = 'b' ∧ digit = isBinaryDigit ∨ letter = 'o' ∧ digit = isOctalDigit ∨
      letter = 'x' ∧ digit = isHexDigit := by
  unfold Strand.radixDigit? at h
  split at h
  · exact .inl ⟨rfl, (Option.some.inj h).symm⟩
  · exact .inr (.inl ⟨rfl, (Option.some.inj h).symm⟩)
  · exact .inr (.inr ⟨rfl, (Option.some.inj h).symm⟩)
  · cases h

/-- Behind the letter of a base its digits stand. -/
theorem mem_radixForm {letter : Char} (h : Strand.radixDigit? letter = some digit)
    {tail : List Char} : letter :: tail ∈ radixForm ↔ tail ∈ (charIn digit)∗ := by
  have hcases : letter :: tail ∈ radixForm ↔
      ((letter = 'b' ∧ tail ∈ (charIn isBinaryDigit)∗) ∨
        letter = 'o' ∧ tail ∈ (charIn isOctalDigit)∗) ∨
        letter = 'x' ∧ tail ∈ (charIn isHexDigit)∗ :=
    or_congr (or_congr cons_mem_mul cons_mem_mul) cons_mem_mul
  rw [hcases]
  rcases radix_cases h with ⟨rfl, rfl⟩ | ⟨rfl, rfl⟩ | ⟨rfl, rfl⟩ <;> simp

/-- The letter of a base is none of its digits, and `n` is neither. -/
theorem not_digit_of_radix {letter : Char} (h : Strand.radixDigit? letter = some digit) :
    isRadixLetter letter = true ∧ digit letter = false ∧ digit 'n' = false := by
  rcases radix_cases h with ⟨rfl, rfl⟩ | ⟨rfl, rfl⟩ | ⟨rfl, rfl⟩ <;> decide

/-- The letter of a base and its digits are the longest text that a base may have. -/
theorem Announced.longest_radix {letter : Char}
    (h : Announced (charIn (· == letter)) digit front (letter :: text) piece after empty)
    (hbase : Strand.radixDigit? letter = some digit) :
    Longest radixForm (letter :: text) piece after ∧ ∃ digits, piece = letter :: digits ∧
      ∀ c ∈ digits, digit c = true := by
  cases h with
  | absent none => exact absurd ⟨text, rfl⟩ (none [letter] ⟨letter, beq_self_eq_true letter, rfl⟩)
  | present mark_longest digits_longest =>
    obtain ⟨rfl, rfl⟩ := mark_longest.unique
      (longest_charIn (p := (· == letter)) (beq_self_eq_true letter) text)
    refine ⟨⟨?_, (mem_radixForm hbase).mpr digits_longest.mem, ?_⟩, _, rfl,
      mem_kstar_charIn.mp digits_longest.mem⟩
    · rw [digits_longest.split, List.append_assoc]
      rfl
    · intro other hother hstarts
      cases other with
      | nil => exact Nat.zero_le _
      | cons c tail =>
        obtain ⟨rfl, htail⟩ := List.cons_prefix_cons.mp hstarts
        exact Nat.succ_le_succ (digits_longest.longest tail ((mem_radixForm hbase).mp hother) htail)

/-- The mark of an exponent has no digits. -/
theorem not_digit_of_exponentMark {sign : List Char} (h : sign ∈ exponentMark) {c : Char}
    (hc : c ∈ sign) : c.isDigit = false := by
  have hplain (p : Char → Bool) (hp : p = isExponentLetter ∨ p = isSign) (c : Char)
      (hc : p c = true) : c.isDigit = false := by
    rcases hp with rfl | rfl
    · rcases Bool.or_eq_true_iff.mp hc with he | he <;> rw [eq_of_beq he] <;> decide
    · rcases Bool.or_eq_true_iff.mp hc with he | he <;> rw [eq_of_beq he] <;> decide
  obtain ⟨_, ⟨d, hd, rfl⟩, rest, hrest, rfl⟩ := Language.mem_mul.mp h
  rcases List.mem_append.mp hc with hc | hc
  · exact hplain _ (.inl rfl) c (List.mem_singleton.mp hc ▸ hd)
  · rcases hrest with rfl | ⟨e, he, rfl⟩
    · cases hc
    · exact hplain _ (.inr rfl) c (List.mem_singleton.mp hc ▸ he)

/-- What begins an exponent. -/
theorem letter_of_exponentForm {c : Char} {tail : List Char} (h : c :: tail ∈ exponentForm) :
    isExponentLetter c = true := by
  obtain ⟨sign, hsign, digits, -, heq⟩ := Language.mem_mul.mp h
  obtain ⟨_, ⟨d, hd, rfl⟩, rest, -, rfl⟩ := Language.mem_mul.mp hsign
  exact (List.cons.inj heq).1 ▸ hd

/-- What a fraction is made of. -/
theorem point_or_digit (h : piece ∈ maybe fractionForm) {c : Char} (hc : c ∈ piece) :
    c = '.' ∨ c.isDigit = true := by
  rcases h with rfl | h
  · cases hc
  · obtain ⟨_, rfl, digits, hdigits, rfl⟩ := Language.mem_mul.mp h
    rcases List.mem_append.mp hc with hc | hc
    · exact .inl (List.mem_singleton.mp hc)
    · exact .inr (mem_kstar_charIn.mp hdigits c hc)

/-- **The number behind a lead** is the longest text of the form. -/
theorem NumberAt.longest (h : NumberAt lead behind text after empty) :
    Longest (numberForm lead behind) (lead ++ behind) text after := by
  cases h with
  | @radix letter _ _ _ _ _ _ bare letter_ahead base announced suffix_longest =>
    obtain ⟨behind, rfl⟩ := List.head?_eq_some_iff.mp letter_ahead
    obtain ⟨hletter, -, hn⟩ := not_digit_of_radix base
    obtain ⟨hpiece, digits, rfl, hdigits⟩ := announced.longest_radix base
    rw [numberForm, if_pos ⟨bare, hletter⟩, bare]
    refine (hpiece.mul suffix_longest ?_).fixed ['0']
    rintro first - c more hcut tail (hnil | hword)
    · cases hnil
    · -- The suffix is neither the letter nor one of the digits.
      obtain ⟨rfl, -⟩ : c = 'n' ∧ tail = [] := List.cons.inj hword
      have hinside : 'n' ∈ letter :: digits := by rw [hcut]; exact List.mem_append_cons_self
      rcases List.mem_cons.mp hinside with rfl | hmem
      · cases hletter
      · rw [hdigits 'n' hmem] at hn
        cases hn
  | decimal plain fraction_longest exponent_longest =>
    rw [numberForm, if_neg plain]
    have hfraction := fraction_longest.longest (by
      rintro _ rfl c hc
      obtain rfl : c = '.' := List.mem_singleton.mp hc
      decide)
    have hexponent := exponent_longest.longest fun sign hsign c hc =>
      not_digit_of_exponentMark hsign hc
    refine (hfraction.mul hexponent ?_).fixed lead
    rintro first - c more hcut tail (hnil | hexponent)
    · cases hnil
    · -- An exponent begins neither with a point nor with a digit.
      have hletter := letter_of_exponentForm hexponent
      rcases point_or_digit hfraction.mem (hcut ▸ List.mem_append_cons_self) with rfl | hdigit
      · cases hletter
      · rcases Bool.or_eq_true_iff.mp hletter with he | he
        · obtain rfl := eq_of_beq he
          cases hdigit
        · obtain rfl := eq_of_beq he
          cases hdigit

/-! ### Reading a number -/

/-- The finding of a text that misses digits at its end. -/
def Surroundings.missingDigits (around : Surroundings) (front : List Char) : Finding where
  rule := .expectedDigitsAfterA
  line := around.line
  column := around.origin + front.length
  args := [String.ofList front]

/-- The fault of a letter or digit behind a number. -/
def Surroundings.strayBehind (around : Surroundings) (number : List Char) (c : Char) :
    Finding where
  rule := .invalidNumeric
  line := around.line
  column := around.origin + number.length + 1
  args := [c.toString, String.ofList number]

namespace Strand

variable (around : Surroundings)

/-- **A piece is read**: it is taken, and the texts that miss digits are found. -/
structure Gains (s t : Strand) (piece : List Char) (empty : List (List Char)) : Prop where
  taken : t.taken = piece.reverse ++ s.taken
  findings : t.findings = (empty.map around.missingDigits).reverse ++ s.findings

variable {around} {s t u : Strand} {piece' : List Char} {empty' : List (List Char)}

theorem Gains.refl (s : Strand) : s.Gains around s [] [] := ⟨rfl, rfl⟩

theorem Gains.trans (h : s.Gains around t piece empty) (h' : t.Gains around u piece' empty') :
    s.Gains around u (piece ++ piece') (empty ++ empty') := by
  constructor
  · rw [h'.taken, h.taken, List.reverse_append, List.append_assoc]
  · rw [h'.findings, h.findings, List.map_append, List.reverse_append, List.append_assoc]

variable (around) in
theorem Gains.take {c : Char} {rest : List Char} (h : s.rest = c :: rest) :
    s.take.rest = rest ∧ s.Gains around s.take [c] [] := by
  unfold Strand.take
  rw [h]
  exact ⟨rfl, rfl, rfl⟩

/-- Behind a mark its digits are read. -/
theorem Gains.someDigits {sign : List Char} (digit : Char → Bool)
    (hmark : Longest mark s.rest sign u.rest)
    (h : s.Gains around u sign []) : ∃ piece empty,
      Announced mark digit s.taken.reverse s.rest piece (u.someDigits around digit).rest empty ∧
        s.Gains around (u.someDigits around digit) piece empty := by
  have hrun := longest_run digit u.rest
  rw [← u.rest_someDigits around digit] at hrun
  refine ⟨_, _, .present hmark hrun, ?_⟩
  have htext : u.taken.reverse = s.taken.reverse ++ sign := by rw [h.taken]; simp
  unfold Strand.someDigits noteIf runLength
  by_cases hnone : u.rest.takeWhile digit = []
  · rw [if_pos (by rw [hnone]; rfl), if_pos hnone]
    constructor
    · simp [takeWhile, note, hnone, h.taken]
    · have hlength : u.taken.length = (s.taken.reverse ++ sign).length := by
        rw [← htext, List.length_reverse]
      simp [takeWhile, note, h.findings, Surroundings.missingDigits, lastColumn, text, htext,
        hlength]
  · rw [if_neg (by simpa using hnone), if_neg hnone]
    constructor
    · simp [takeWhile, h.taken]
    · simp [takeWhile, h.findings]

variable (around)

/-- A fraction is read. -/
theorem announced_fraction (s : Strand) : ∃ piece empty,
    Announced (word ".") Char.isDigit s.taken.reverse s.rest piece (s.fraction around).rest empty ∧
      s.Gains around (s.fraction around) piece empty := by
  unfold fraction
  split
  · next hpoint =>
    obtain ⟨rest, hrest⟩ := List.head?_eq_some_iff.mp hpoint
    obtain ⟨hbehind, htake⟩ := Gains.take around hrest
    refine htake.someDigits Char.isDigit ?_
    rw [hrest, hbehind]
    exact longest_word "." rest
  · next hpoint =>
    refine ⟨[], [], .absent ?_, .refl s⟩
    rintro _ rfl ⟨rest, hrest⟩
    exact hpoint (hrest ▸ rfl)

/-- One of two characters comes next. -/
theorem exists_of_head? {text : List Char} {c d : Char}
    (h : text.head? = some c ∨ text.head? = some d) :
    ∃ e rest, text = e :: rest ∧ (e == c || e == d) = true := by
  rcases h with h | h
  · obtain ⟨rest, hrest⟩ := List.head?_eq_some_iff.mp h
    exact ⟨c, rest, hrest, by simp⟩
  · obtain ⟨rest, hrest⟩ := List.head?_eq_some_iff.mp h
    exact ⟨d, rest, hrest, by simp⟩

/-- An exponent is read. -/
theorem announced_exponent (s : Strand) : ∃ piece empty,
    Announced exponentMark Char.isDigit s.taken.reverse s.rest piece (s.exponent around).rest
        empty ∧
      s.Gains around (s.exponent around) piece empty := by
  unfold exponent
  split
  · next hletter =>
    obtain ⟨e, rest, hrest, he⟩ := exists_of_head? hletter
    obtain ⟨hbehind, htake⟩ := Gains.take around hrest
    extract_lets t u
    have hmark : ∃ sign, Longest exponentMark s.rest sign u.rest ∧ s.Gains around u sign [] := by
      rw [hrest]
      simp only [u]
      split
      · next hsign =>
        obtain ⟨c, behind, hcut, hc⟩ := exists_of_head? hsign
        obtain ⟨hbehind', htake'⟩ := Gains.take around hcut
        refine ⟨[e, c], ?_, htake.trans htake'⟩
        rw [← hbehind, hbehind']
        exact (hcut ▸ (longest_charIn (p := isSign) hc behind).maybe).cons he
      · next hsign =>
        refine ⟨[e], ?_, htake⟩
        rw [← hbehind]
        refine (longest_maybe_of_none ?_).cons he
        rintro _ ⟨c, hc, rfl⟩ ⟨behind, hcut⟩
        refine hsign ?_
        rw [show t.rest = c :: behind from hcut.symm]
        simpa [isSign] using hc
    obtain ⟨sign, hsign, hgains⟩ := hmark
    exact hgains.someDigits Char.isDigit hsign
  · next hletter =>
    refine ⟨[], [], .absent ?_, .refl s⟩
    rintro sign hsign ⟨rest, hrest⟩
    obtain ⟨_, ⟨d, hd, rfl⟩, tail, -, rfl⟩ := Language.mem_mul.mp hsign
    exact hletter (by simpa [← hrest, isExponentLetter] using hd)

/-- The digits of another base are read, and the suffix. -/
theorem announced_radixNumber {letter : Char} {rest : List Char} (hrest : s.rest = letter :: rest)
    (digit : Char → Bool) : ∃ piece behind suffix empty,
    Announced (charIn (· == letter)) digit s.taken.reverse s.rest piece behind empty ∧
      Longest (maybe (word "n")) behind suffix (s.radixNumber around digit).rest ∧
      s.Gains around (s.radixNumber around digit) (piece ++ suffix) empty := by
  obtain ⟨hbehind, htake⟩ := Gains.take around hrest
  have hmark : Longest (charIn (· == letter)) s.rest [letter] s.take.rest := by
    rw [hrest, hbehind]
    exact longest_charIn (p := (· == letter)) (beq_self_eq_true letter) rest
  obtain ⟨piece, empty, hpiece, hgains⟩ := htake.someDigits digit hmark
  unfold radixNumber
  extract_lets t
  split
  · next hn =>
    obtain ⟨after, hafter⟩ := List.head?_eq_some_iff.mp hn
    obtain ⟨hbehind', htake'⟩ := Gains.take around hafter
    refine ⟨piece, t.rest, ['n'], empty, hpiece, ?_, ?_⟩
    · rw [hbehind', hafter]
      exact (longest_word "n" after).maybe
    · simpa using hgains.trans htake'
  · next hn =>
    refine ⟨piece, t.rest, [], empty, hpiece, longest_maybe_of_none ?_, by simpa using hgains⟩
    rintro _ rfl ⟨after, hafter⟩
    exact hn (hafter ▸ rfl)

/-- A letter has a base exactly if it is the letter of one. -/
theorem isSome_radixDigit? (c : Char) : (radixDigit? c).isSome = isRadixLetter c := by
  unfold radixDigit?
  split
  · rfl
  · rfl
  · rfl
  · next hb ho hx =>
    simp [isRadixLetter, show c ≠ 'b' from hb, show c ≠ 'o' from ho, show c ≠ 'x' from hx]

/-- **A number is read** behind its lead as far as it goes. -/
theorem numberAt_numberTail (s : Strand) : ∃ piece empty,
    NumberAt s.taken.reverse s.rest (s.taken.reverse ++ piece) (s.numberTail around).rest empty ∧
      s.Gains around (s.numberTail around) piece empty := by
  unfold numberTail
  split
  · next digit hbare hdigit =>
    obtain ⟨letter, hletter, hbase⟩ := Option.bind_eq_some_iff.mp hdigit
    obtain ⟨rest, hrest⟩ := List.head?_eq_some_iff.mp hletter
    obtain ⟨piece, behind, suffix, empty, hpiece, hsuffix, hgains⟩ :=
      announced_radixNumber around hrest digit
    exact ⟨piece ++ suffix, empty, .radix (by rw [hbare]; rfl) hletter hbase hpiece hsuffix,
      hgains⟩
  · next hplain =>
    obtain ⟨fraction, empty, hfraction, hgains⟩ := announced_fraction around s
    obtain ⟨exponent, empty', hexponent, hgains'⟩ :=
      announced_exponent around (s.fraction around)
    refine ⟨fraction ++ exponent, empty ++ empty', .decimal ?_ hfraction ?_, hgains.trans hgains'⟩
    · rintro ⟨hbare, hletter⟩
      obtain ⟨letter, hhead, hletter⟩ := (Option.any_eq_true _ _).mp hletter
      rw [← isSome_radixDigit?] at hletter
      obtain ⟨digit, hdigit⟩ := Option.isSome_iff_exists.mp hletter
      exact hplain digit (List.reverse_eq_iff.mp hbare) (by rw [hhead]; exact hdigit)
    · have hfront : (s.fraction around).taken.reverse = s.taken.reverse ++ fraction := by
        rw [hgains.taken]; simp
      rw [← hfront]
      exact hexponent

end Strand

namespace State

variable {s : State}

/-- At a digit a step reads a number. -/
theorem step_of_number (hmode : ∀ opening, s.mode ≠ .template opening)
    (h : Longest numberLead s.rest lead behind) : s.step = s.roused.number lead.length := by
  have hpos := numberLength_ne_zero h.mem ⟨behind, h.split.symm⟩
  have hlength := numberLength_of_longest h
  cases hrest : s.rest with
  | nil =>
    rw [hrest] at hpos
    exact absurd rfl hpos
  | cons c rest =>
    rw [hrest] at hpos hlength
    have hdigit := isDigit_of_numberLength_ne_zero hpos
    have hblank : isBlank c = false :=
      isBlank_eq_false_of_isIdentifierPart (by simp [isIdentifierPart, Char.isAlphanum, hdigit])
    have hword : identifierLength (c :: rest) = 0 := by
      simp [identifierLength, isIdentifierStart_eq_false_of_isDigit hdigit]
    have hread : s.readToken c = s.roused.number (numberLength s.roused.rest) := by
      show (if identifierLength s.roused.rest ≠ 0 then _ else if numberLength s.roused.rest ≠ 0
        then _ else _) = _
      rw [show s.roused.rest = c :: rest from hrest, if_neg (not_not_intro hword), if_pos hpos,
        ← hrest]
      rfl
    rw [step_of_mode_ne hmode, hrest]
    dsimp only
    rw [hblank, hread, show s.roused.rest = c :: rest from hrest, hlength]
    rfl

/-- **What reading a number does**, by what follows it. -/
theorem number_eq (s : State) (h : Longest numberLead s.rest lead behind) :
    ∃ number after empty, NumberAt lead behind number after empty ∧
      (∀ c rest, after = c :: rest → c.isAlphanum = true → s.number lead.length =
        s.failWith ⟨(empty.map (s.surroundings 0).missingDigits).reverse,
          (s.surroundings 0).strayBehind number c⟩) ∧
      (after.head?.any Char.isAlphanum = false → s.number lead.length =
        .next ((s.noteAll (empty.map (s.surroundings 0).missingDigits).reverse).pushNext
          number.length .number (String.ofList number))) := by
  obtain ⟨piece, empty, hnumber, hgains⟩ := Strand.numberAt_numberTail
    (s.surroundings 0) (({ rest := s.rest } : Strand).takeN lead.length)
  have htaken : (({ rest := s.rest } : Strand).takeN lead.length).taken = lead.reverse := by
    simp [Strand.takeN, h.take_length]
  have hbehind : (({ rest := s.rest } : Strand).takeN lead.length).rest = behind := h.drop_length
  rw [htaken, List.reverse_reverse, hbehind] at hnumber
  have hread : ((({ rest := s.rest } : Strand).takeN lead.length).numberTail
      (s.surroundings 0)).taken.reverse = lead ++ piece := by
    rw [hgains.taken, htaken, ← List.reverse_append, List.reverse_reverse]
  have hfindings := hgains.findings
  refine ⟨lead ++ piece, _, empty, hnumber, ?_⟩
  unfold State.number Strand.number
  dsimp only
  generalize (({ rest := s.rest } : Strand).takeN lead.length).numberTail (s.surroundings 0) = read
    at hread hfindings
  have hlength : read.taken.length = (lead ++ piece).length := by
    rw [← hread, List.length_reverse]
  have hfound : read.findings = (empty.map (s.surroundings 0).missingDigits).reverse :=
    hfindings.trans (List.append_nil _)
  rw [← hfound, ← hlength, ← hread]
  constructor
  · intro c rest hrest hstray
    simp [hrest, hstray, Strand.halt, Strand.text, Strand.nextColumn, Strand.lastColumn,
      Surroundings.strayBehind]
  · intro hplain
    cases hrest : read.rest with
    | nil => rfl
    | cons c rest =>
      rw [hrest] at hplain
      simp [show c.isAlphanum = false from hplain, Strand.text]

/-- The texts that miss digits are found on one rule. -/
theorem found_missingDigits (s : State) (empty : List (List Char)) :
    (s.noteAll (empty.map (s.surroundings 0).missingDigits).reverse).found
        .expectedDigitsAfterA =
      (empty.map (s.surroundings 0).missingDigits).reverse ++ s.found .expectedDigitsAfterA := by
  rw [found_noteAll, List.filter_eq_self.mpr fun finding hfinding => ?_]
  obtain ⟨front, -, rfl⟩ := List.mem_map.mp (List.mem_reverse.mp hfinding)
  exact decide_eq_true rfl

end State

/-! ### Passes -/

/-- **What a step does at a number** of a pass: `number` stands behind the lead, `after` follows
it, and `empty` are the texts up to where it misses digits. -/
structure ReadsNumber (settings : Settings) (text : String) (s : State)
    (lead behind number after : List Char) (empty : List (List Char)) : Prop where
  /-- The number is the longest text of the form. -/
  longest : Longest (numberForm lead behind) s.rest number after
  /-- It is made of longest parts, some of which may miss digits. -/
  stands : NumberAt lead behind number after empty
  /-- If a letter or digit follows, the pass stops there. -/
  fault : ∀ c rest, after = c :: rest → c.isAlphanum = true →
    (Pass.run settings text).abort =
      some ⟨.invalidNumeric, s.line, s.column + number.length + 1⟩
  /-- Otherwise the number is a token. -/
  token : after.head?.any Char.isAlphanum = false →
    ∃ (t : State) (token : Token), s.step = .next t ∧ t.tokens = token :: s.tokens ∧
      token.kind = .number ∧ token.value = String.ofList number ∧
      token.start = s.position ∧ token.stop = ⟨s.line, s.column + number.length⟩
  /-- Either way each text that misses digits is reported, if the rule is on and the line is not
  quiet. -/
  reports : s.ReportsOn (.ofString text) settings .expectedDigitsAfterA
    (empty.map (s.surroundings 0).missingDigits)

/-- **Numbers are read** to the end of the longest text of their form, under any settings and on
every text. -/
theorem number_read (settings : Settings) {text : String} {s : State}
    (hreach : State.Reaches (.initial (Source.ofString text).lines.toList) s)
    (hmode : ∀ opening, s.mode ≠ .template opening) {lead behind : List Char}
    (hlead : Longest numberLead s.rest lead behind) :
    ∃ number after empty, ReadsNumber settings text s lead behind number after empty := by
  obtain ⟨number, after, empty, hnumber, hstray, hplain⟩ := s.roused.number_eq hlead
  have hlongest := hnumber.longest
  rw [← hlead.split] at hlongest
  rw [← State.step_of_number hmode hlead] at hstray hplain
  -- Whatever follows, what is found are the missing digits, and nothing is set.
  have hfinds : s.step.state.found .expectedDigitsAfterA =
        (empty.map (s.surroundings 0).missingDigits).reverse ++ s.found .expectedDigitsAfterA ∧
      s.step.state.ledger.changes = s.ledger.changes := by
    have hnoted := s.roused.found_missingDigits empty
    by_cases hend : after.head?.any Char.isAlphanum = true
    · obtain ⟨c, hc, halnum⟩ := (Option.any_eq_true _ _).mp hend
      obtain ⟨rest, hafter⟩ := List.head?_eq_some_iff.mp hc
      rw [hstray c rest hafter halnum]
      exact ⟨(State.found_leaveLine _).trans hnoted, by simp [Step.state, State.failWith]; rfl⟩
    · rw [hplain (Bool.eq_false_of_not_eq_true hend)]
      exact ⟨(State.found_pushNext _ (by decide) _ _ _).trans hnoted, by
        simp [Step.state, Ledger.add]; rfl⟩
  refine ⟨number, after, empty, hlongest, hnumber, ?_, ?_, ?_⟩
  · rintro c rest rfl hc
    have hroom := congrArg List.length hlongest.split
    rw [List.length_append, List.length_cons] at hroom
    refine abort_of_failed_inside settings hreach (hstray c rest rfl hc) rfl ?_ ?_
    · show s.column < s.column + 0 + number.length + 1
      omega
    · show s.column + 0 + number.length + 1 ≤ s.column + s.rest.length
      omega
  · intro hnone
    exact ⟨_, _, hplain hnone, State.tokens_pushNext _ _ _ _, rfl, rfl, rfl, rfl⟩
  · exact State.reportsOn_of_found (by decide) (by decide) s.grows_step List.suffix_rfl hfinds.2
      hfinds.1 rfl

/-- A number that misses the digits of its fraction and those of its exponent. -/
theorem number_read_missing :
    Longest numberLead "1.e-;".toList ['1'] ".e-;".toList ∧ ∃ number after empty,
      ReadsNumber {} "1.e-;" { line := 1, rest := "1.e-;".toList, below := [] } ['1']
        ".e-;".toList number after empty := by
  have hlead : Longest numberLead "1.e-;".toList ['1'] ".e-;".toList :=
    @longest_numberLead "1.e-;".toList (by decide)
  exact ⟨hlead, number_read {} (.single rfl) (by simp) hlead⟩

end ScriptLint
