import ScriptLint.Lexeme
import ScriptLint.Literal.Strand

/-!
# Number literals

A number is a lead, which a single look finds, and what belongs to it: the digits
of another base, or a fraction and an exponent.

## Main definitions

* `Strand.number` — reads a number to its end
-/

namespace ScriptLint.Strand

variable (around : Surroundings)

/-- The digits that a letter after a bare `0` announces. -/
def radixDigit? : Char → Option (Char → Bool)
  | 'b' => some isBinaryDigit
  | 'o' => some isOctalDigit
  | 'x' => some isHexDigit
  | _ => none

/-- A point and digits, if a point comes next. -/
def fraction (s : Strand) : Strand :=
  if s.rest.head? = some '.' then s.take.someDigits around Char.isDigit else s

/-- `e` or `E`, a sign or none, and digits, if such a letter comes next. -/
def exponent (s : Strand) : Strand :=
  if s.rest.head? = some 'e' ∨ s.rest.head? = some 'E' then
    let s := s.take
    let s := if s.rest.head? = some '+' ∨ s.rest.head? = some '-' then s.take else s
    s.someDigits around Char.isDigit
  else s

/-- Digits of another base after their letter, and `n` or nothing. -/
def radixNumber (s : Strand) (digit : Char → Bool) : Strand :=
  let s := s.take.someDigits around digit
  if s.rest.head? = some 'n' then s.take else s

/-- The number after its lead. -/
def numberTail (s : Strand) : Strand :=
  match s.taken, s.rest.head?.bind radixDigit? with
  | ['0'], some digit => s.radixNumber around digit
  | _, _ => (s.fraction around).exponent around

/-- Reads a number whose lead has `lead` characters. A letter or digit that follows
it is a fault. -/
def number (lead : Nat) (s : Strand) : Reading Strand :=
  let read := (s.takeN lead).numberTail around
  match read.rest with
  | c :: _ =>
    if c.isAlphanum then
      read.halt around .invalidNumeric (read.nextColumn around) [c.toString, read.text]
    else .ok read
  | [] => .ok read

/-! ### A number is a piece of its line, with at least its lead -/

theorem whole_numberTail (s : Strand) : (s.numberTail around).whole = s.whole := by
  have fraction (s : Strand) : (s.fraction around).whole = s.whole := by
    unfold fraction; split <;> simp
  have exponent (s : Strand) : (s.exponent around).whole = s.whole := by
    unfold exponent; split
    · simp only [whole_someDigits]; split <;> simp
    · rfl
  have radix (s : Strand) (digit : Char → Bool) :
      (s.radixNumber around digit).whole = s.whole := by
    simp only [radixNumber]; split <;> simp
  unfold numberTail
  split <;> simp [fraction, exponent, radix]

theorem length_rest_numberTail_le (s : Strand) :
    (s.numberTail around).rest.length ≤ s.rest.length := by
  have drop (p : Char → Bool) (l : List Char) : (l.dropWhile p).length ≤ l.length :=
    (List.dropWhile_sublist p).length_le
  have fraction (s : Strand) : (s.fraction around).rest.length ≤ s.rest.length := by
    unfold fraction; split
    · have := drop Char.isDigit s.rest.tail
      simp at this ⊢; omega
    · exact Nat.le_refl _
  have exponent (s : Strand) : (s.exponent around).rest.length ≤ s.rest.length := by
    unfold exponent; split
    · simp only [rest_someDigits, rest_take]
      split
      · have := drop Char.isDigit s.rest.tail.tail
        simp at this ⊢; omega
      · have := drop Char.isDigit s.rest.tail
        simp at this ⊢; omega
    · exact Nat.le_refl _
  have radix (s : Strand) (digit : Char → Bool) :
      (s.radixNumber around digit).rest.length ≤ s.rest.length := by
    have := drop digit s.rest.tail
    simp only [radixNumber, rest_someDigits, rest_take]
    split <;> simp at this ⊢ <;> omega
  unfold numberTail
  split
  · exact radix s _
  · exact Nat.le_trans (exponent _) (fraction s)

theorem taken_ne_nil_of_number {lead : Nat} {s t : Strand} (hlead : 0 < lead)
    (hs : s.rest ≠ []) (hnone : s.taken = []) (h : s.number around lead = .ok t) :
    t.taken ≠ [] := by
  have ht : t = (s.takeN lead).numberTail around := by
    unfold number at h
    extract_lets read at h
    split at h
    · split at h
      · simp [halt] at h
      · exact (Except.ok.inj h).symm
    · exact (Except.ok.inj h).symm
  intro hnil
  have hw := whole_numberTail around (s.takeN lead)
  have hl := length_rest_numberTail_le around (s.takeN lead)
  rw [← ht] at hw hl
  have hpos : 0 < s.rest.length := List.length_pos_iff.mpr hs
  have : t.rest = s.rest := by simpa [whole, takeN, hnil, hnone] using hw
  rw [this] at hl
  simp [takeN] at hl
  omega

end ScriptLint.Strand
