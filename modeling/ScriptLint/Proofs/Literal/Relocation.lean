import ScriptLint.Proofs.Loops

/-!
# Literals elsewhere

Reading a literal looks at its characters, at the column it begins at and at the modes it
stands in.  It looks neither at the number of its line, which it only puts into its
findings, nor at the findings it has made.  So a map of findings that takes those made on
one line to those made on another **relocates** the whole reading: what is taken and left
is the same, and the findings are mapped, whether the literal is read to its end or halts.

The same fact says which findings there are.  A map that leaves the findings of a line alone,
and moves any other to it, relocates a literal on this line to where it is; so it changes no
finding of the literal, and all of them are on its line.  A literal halts at fewer rules than it
breaks, so faults are mapped on their own.

## Main definitions

* `Finding.Regular`, `Rule.Fatal` — what the checks of a scan find, and where it stops
* `Rule.OfLiteral` — the rules that literals are checked against
* `Relocates` — maps of findings and of faults from one line to another
* `Strand.relocate`, `Halt.relocate`, `Reading.relocate` — strands and readings with their
  findings mapped
* `Surroundings.Owns`, `Surroundings.StopsAt`, `Reading.Owned` — findings and faults on the line of
  a literal

## Main statements

* `Relocates.number`, `Relocates.quoted`, `Relocates.regex` — the three kinds of literal
* `Strand.owned_number`, `Strand.owned_quoted`, `Strand.owned_regex` — the findings of a literal
  are on its line
-/

namespace ScriptLint

/-- **Regular**: a finding that a check of a scan may make.  Long lines are left to the report; and
if nothing is set a rule has its default level, or what is unexpected is an error. -/
def Finding.Regular (finding : Finding) : Prop :=
  finding.rule ≠ .noLongLines ∧
    (finding.unset = finding.rule.defaultLevel ∨
      finding.rule = .unexpectedA ∧ finding.unset = .error)

instance (finding : Finding) : Decidable finding.Regular :=
  inferInstanceAs (Decidable (_ ∧ _))

/-- **Fatal**: a rule that may stop a scan. -/
def Rule.Fatal (rule : Rule) : Prop :=
  rule ∈ [invalidNumeric, invalidRegex, unclosedString, unclosedComment, unclosedMega,
    unexpectedCharA, expectedA, expectedAB]

instance (rule : Rule) : Decidable rule.Fatal := inferInstanceAs (Decidable (_ ∈ _))

/-- **Of literals**: a rule that literals are checked against. -/
def Rule.OfLiteral (rule : Rule) : Prop :=
  rule ∈ [invalidRegex, unexpectedA, unexpectedABeforeB, expectedABeforeB, expectedDigitsAfterA,
    expectedFourDigits, expectedRegexpFactorA, tooManyDigits]

instance (rule : Rule) : Decidable rule.OfLiteral := inferInstanceAs (Decidable (_ ∈ _))

/-- A finding at the default level of its rule. -/
theorem regular_of_default {rule : Rule} (hrule : rule ≠ .noLongLines) (line column : Nat)
    (args : List String) : Finding.Regular { rule, line, column, args } :=
  ⟨hrule, .inl rfl⟩

/-- **Relocation**: surroundings that differ in the line, and maps of findings and of faults that
take those made on the line of the one to those made on the line of the other. -/
structure Relocates (move stop : Finding → Finding) (around around' : Surroundings) : Prop where
  origin : around'.origin = around.origin
  json : around'.json = around.json
  inTemplate : around'.inTemplate = around.inTemplate
  finding : ∀ rule column args unset,
    Finding.Regular { rule, line := around.line, column, args, unset } → rule.OfLiteral →
    move { rule, line := around.line, column, args, unset } =
      { rule, line := around'.line, column, args, unset }
  fault : ∀ rule column args, rule.Fatal →
    stop { rule, line := around.line, column, args } = { rule, line := around'.line, column, args }

/-- A strand with its findings mapped. -/
def Strand.relocate (move : Finding → Finding) (s : Strand) : Strand :=
  { s with findings := s.findings.map move }

section

variable (move : Finding → Finding) (s : Strand)

@[simp] theorem Strand.taken_relocate : (s.relocate move).taken = s.taken := rfl

@[simp] theorem Strand.rest_relocate : (s.relocate move).rest = s.rest := rfl

@[simp] theorem Strand.findings_relocate :
    (s.relocate move).findings = s.findings.map move := rfl

@[simp] theorem Strand.text_relocate : (s.relocate move).text = s.text := rfl

end

/-- A halt with its findings and its fault mapped. -/
def Halt.relocate (move stop : Finding → Finding) (halt : Halt) : Halt :=
  ⟨halt.findings.map move, stop halt.fault⟩

/-- A reading with its findings and its fault mapped. -/
def Reading.relocate {α β : Type} (move stop : Finding → Finding) (result : α → β) :
    Reading α → Reading β
  | .error halt => .error (halt.relocate move stop)
  | .ok a => .ok (result a)

namespace Relocates

open Strand

variable {move stop : Finding → Finding} {around around' : Surroundings}
  (h : Relocates move stop around around')

/-! ### Single characters -/

section

variable (s : Strand) (rule : Rule) (column : Nat) (args : List String)

theorem take : (s.relocate move).take = s.take.relocate move := by
  obtain ⟨taken, rest, findings⟩ := s
  cases rest <;> rfl

include h

theorem lastColumn : (s.relocate move).lastColumn around' = s.lastColumn around :=
  congrArg (· + s.taken.length) h.origin

theorem nextColumn : (s.relocate move).nextColumn around' = s.nextColumn around :=
  congrArg (· + 1) (h.lastColumn s)

theorem note (hrule : rule.OfLiteral) :
    (s.relocate move).note around' rule column args =
      (s.note around rule column args).relocate move := by
  have hline : rule ≠ .noLongLines := by
    rintro rfl
    exact absurd hrule (by decide)
  simp only [Strand.note, relocate, List.map_cons,
    h.finding _ _ _ _ (regular_of_default hline _ _ _) hrule]

theorem noteIf (p : Bool) (hrule : rule.OfLiteral) :
    (s.relocate move).noteIf around' p rule column args =
      (s.noteIf around p rule column args).relocate move := by
  unfold Strand.noteIf
  split
  · exact h.note s rule column args hrule
  · rfl

theorem noteErrorIf (p : Bool) :
    (s.relocate move).noteErrorIf around' p .unexpectedA column args =
      (s.noteErrorIf around p .unexpectedA column args).relocate move := by
  have hregular : Finding.Regular ⟨.unexpectedA, around.line, column, args, .error⟩ :=
    ⟨show Rule.unexpectedA ≠ _ by decide, .inr ⟨rfl, rfl⟩⟩
  unfold Strand.noteErrorIf
  split
  · simp only [relocate, List.map_cons, h.finding _ _ _ _ hregular (by decide)]
  · rfl

theorem halt {α β : Type} (result : α → β) (hrule : rule.Fatal) :
    (s.relocate move).halt around' rule column args =
      (s.halt around rule column args).relocate move stop result := by
  simp only [Strand.halt, Reading.relocate, Halt.relocate, relocate, h.fault _ _ _ hrule]

theorem missing {α β : Type} (result : α → β) (c : Char) :
    (s.relocate move).missing around' c = (s.missing around c).relocate move stop result := by
  unfold Strand.missing
  rw [h.lastColumn, h.nextColumn, rest_relocate]
  split
  · exact h.halt s _ _ _ result (by decide)
  · exact h.halt s _ _ _ result (by decide)

theorem expect (c : Char) :
    (s.relocate move).expect around' c =
      (s.expect around c).relocate move stop (·.relocate move) := by
  unfold Strand.expect
  rw [take, rest_relocate]
  split
  · rfl
  · exact h.missing s _ c

theorem someDigits (p : Char → Bool) :
    (s.relocate move).someDigits around' p = (s.someDigits around p).relocate move := by
  unfold Strand.someDigits
  rw [h.lastColumn, show (s.relocate move).runLength p = s.runLength p from rfl,
    text_relocate]
  exact congrArg (Strand.takeWhile · p) (h.noteIf s _ _ _ _ (by decide))

end

/-! ### Numbers -/

section

include h

variable (s : Strand)

theorem fraction : (s.relocate move).fraction around' = (s.fraction around).relocate move := by
  unfold Strand.fraction
  rw [take, h.someDigits, rest_relocate]
  split <;> rfl

theorem exponent : (s.relocate move).exponent around' = (s.exponent around).relocate move := by
  unfold Strand.exponent
  extract_lets letter sign letter' sign'
  have hletter : letter = letter'.relocate move := take s
  have hsign : sign = sign'.relocate move := by
    simp only [sign, sign', hletter, take]
    rw [rest_relocate]
    split <;> rfl
  rw [hsign, h.someDigits, rest_relocate]
  split <;> rfl

theorem radixNumber (digit : Char → Bool) :
    (s.relocate move).radixNumber around' digit = (s.radixNumber around digit).relocate move := by
  unfold Strand.radixNumber
  extract_lets t t'
  have ht : t = t'.relocate move := by
    simp only [t, t', take, h.someDigits]
  rw [ht, take, rest_relocate]
  split <;> rfl

theorem numberTail :
    (s.relocate move).numberTail around' = (s.numberTail around).relocate move := by
  unfold Strand.numberTail
  rw [h.fraction, h.exponent, taken_relocate,
    rest_relocate]
  split
  · exact h.radixNumber s _
  · rfl

/-- **Numbers** are read alike elsewhere. -/
theorem number (lead : Nat) :
    (s.relocate move).number around' lead =
      (s.number around lead).relocate move stop (·.relocate move) := by
  unfold Strand.number
  extract_lets read read'
  have hread : read = read'.relocate move := h.numberTail (s.takeN lead)
  rw [hread, h.nextColumn, rest_relocate]
  split
  · split
    · exact h.halt read' _ _ _ _ (by decide)
    · rfl
  · rfl

/-! ### Escapes and strings -/

theorem bracedCodePoint :
    (s.relocate move).bracedCodePoint around' = (s.bracedCodePoint around).relocate move := by
  unfold Strand.bracedCodePoint
  extract_lets opened brace read last opened' brace' read' last'
  have hopened : opened = opened'.relocate move := take s
  have hbrace : brace = brace'.relocate move := by
    simp only [brace, brace', hopened, h.lastColumn, h.json]
    exact h.noteErrorIf opened' _ _ _
  have hread : read = read'.relocate move := by
    simp only [read, read', hbrace, h.someDigits]
  have hlast : last = last'.relocate move := by
    simp only [last, last', hread, hbrace, h.nextColumn]
    exact h.noteIf read' _ _ _ _ (by decide)
  rw [hlast, h.nextColumn]
  exact (congrArg Strand.take (h.noteIf last' _ _ _ _ (by decide))).trans (take _)

theorem plainCodeUnit :
    (s.relocate move).plainCodeUnit around' = (s.plainCodeUnit around).relocate move := by
  unfold Strand.plainCodeUnit
  extract_lets read read'
  have hread : read = read'.relocate move := rfl
  rw [hread, h.nextColumn]
  exact h.noteIf read' _ _ _ _ (by decide)

theorem escape (allowed : List Char) :
    (s.relocate move).escape around' allowed =
      (s.escape around allowed).relocate move stop (·.relocate move) := by
  unfold Strand.escape
  rw [take]
  generalize s.take = t
  unfold Strand.escaped
  rw [take, h.nextColumn, h.bracedCodePoint, h.plainCodeUnit,
    rest_relocate]
  split
  · exact h.halt t _ _ _ _ (by decide)
  · rfl
  · rfl
  · split
    · rfl
    · exact congrArg Except.ok (h.note t _ _ _ (by decide))

theorem quotedTurn (quote : Char) :
    (s.relocate move).quotedTurn around' quote =
      (s.quotedTurn around quote).map (·.relocate move)
        (Reading.relocate move stop (·.relocate move)) := by
  unfold Strand.quotedTurn
  rw [rest_relocate, h.nextColumn, h.inTemplate, h.escape]
  split
  · exact congrArg Turn.done (h.halt s _ _ _ _ (by decide))
  · split
    · cases s.escape around [quote] <;> rfl
    · split
      · rfl
      · rw [h.noteIf _ _ _ _ _ (by decide), take]
        rfl

/-- **Strings** are read alike elsewhere. -/
theorem quoted (quote : Char) :
    (s.relocate move).quoted around' quote =
      (s.quoted around quote).relocate move stop (·.relocate move) :=
  (isLoop_quoted around quote).natural (isLoop_quoted around' quote)
    (fun t => h.quotedTurn t quote) s

/-! ### Regular expressions -/

theorem classAtom (c : Char) :
    (s.relocate move).classAtom around' c =
      (s.classAtom around c).relocate move stop (·.relocate move) := by
  unfold Strand.classAtom
  split
  · exact h.escape s _
  · simp only [h.nextColumn, h.inTemplate]
    rw [h.noteIf _ _ _ _ _ (by decide), h.nextColumn, h.noteIf _ _ _ _ _ (by decide), take]
    rfl

theorem classTurn (range : Bool) :
    Strand.classTurn around' (range, s.relocate move) =
      (Strand.classTurn around (range, s)).map (Prod.map id (relocate move))
        (Reading.relocate move stop (·.relocate move)) := by
  unfold Strand.classTurn
  dsimp only
  rw [rest_relocate, h.lastColumn, h.noteIf _ _ _ _ _ (by decide), take]
  split
  · exact congrArg Turn.done (h.expect _ _)
  · next c tail _ =>
    split
    · rfl
    · rw [h.classAtom]
      cases s.classAtom around c with
      | error halt => rfl
      | ok t =>
        dsimp only [Reading.relocate]
        rw [rest_relocate, take]
        split <;> rfl

theorem classMembers (range : Bool) :
    (s.relocate move).classMembers around' range =
      (s.classMembers around range).relocate move stop (·.relocate move) :=
  (isLoop_classMembers around).natural (isLoop_classMembers around')
    (fun t => h.classTurn t.2 t.1) (range, s)

theorem charClass :
    (s.relocate move).charClass around' =
      (s.charClass around).relocate move stop (·.relocate move) := by
  unfold Strand.charClass
  extract_lets t t'
  have ht : t = t'.relocate move := take s
  rw [ht, take, rest_relocate, ← h.classMembers]
  split <;> rfl

theorem strayLazy : (s.relocate move).strayLazy around' = (s.strayLazy around).relocate move := by
  unfold Strand.strayLazy
  rw [rest_relocate, h.nextColumn, h.note _ _ _ _ (by decide), take]
  split <;> rfl

theorem counted :
    (s.relocate move).counted around' =
      (s.counted around).relocate move stop (·.relocate move) := by
  unfold Strand.counted
  extract_lets opened digits low high opened' digits' low' high'
  have hopened : opened = opened'.relocate move := take s
  have hdigits : digits = digits'.relocate move := by
    simp only [digits, digits', hopened]
    rfl
  have hlow : low = low'.relocate move := by
    simp only [low, low', hopened, hdigits, h.nextColumn]
    exact h.noteIf digits' _ _ _ _ (by decide)
  have hhigh : high = high'.relocate move := by
    simp only [high, high', hlow, take]
    rw [rest_relocate]
    split <;> rfl
  rw [hhigh, h.expect]
  cases high'.expect around '}' with
  | error halt => rfl
  | ok t => exact congrArg Except.ok (h.strayLazy t)

theorem quantifier :
    (s.relocate move).quantifier around' =
      (s.quantifier around).relocate move stop (·.relocate move) := by
  unfold Strand.quantifier
  rw [rest_relocate, take, take, h.strayLazy, h.counted]
  split <;> rfl

theorem groupOpening :
    (s.relocate move).groupOpening around' =
      (s.groupOpening around).relocate move stop (·.relocate move) := by
  unfold Strand.groupOpening
  extract_lets t t'
  have ht : t = t'.relocate move := take s
  rw [ht, take, take, h.nextColumn, h.expect, h.note _ _ _ _ (by decide),
    rest_relocate]
  split <;> rfl

theorem noteEmptyGroup :
    (s.relocate move).noteEmptyGroup around' = (s.noteEmptyGroup around).relocate move := by
  unfold Strand.noteEmptyGroup
  rw [h.nextColumn]
  exact h.noteIf s _ _ _ _ (by decide)

theorem factor (c : Char) :
    (s.relocate move).factor around' c =
      (s.factor around c).relocate move stop (·.relocate move) := by
  unfold Strand.factor
  split
  · exact h.charClass s
  · split
    · exact h.escape s _
    · simp only [h.nextColumn, h.inTemplate]
      rw [h.noteIf _ _ _ _ _ (by decide), h.nextColumn, h.noteIf _ _ _ _ _ (by decide), take]
      rfl

theorem patternTurn (depth : Nat) (anchored : Bool) :
    Strand.patternTurn around' (depth, anchored, s.relocate move) =
      (Strand.patternTurn around (depth, anchored, s)).map
        (Prod.map id (Prod.map id (relocate move)))
        (Reading.relocate move stop (Prod.map (relocate move) id)) := by
  unfold Strand.patternTurn
  dsimp only
  rw [rest_relocate, take]
  split
  · exact congrArg Turn.done (h.missing s _ _)
  · next c tail _ =>
    split
    · rfl
    · split
      · rw [h.quantifier]
        cases s.take.quantifier around <;> rfl
      · split
        · exact congrArg Turn.done (h.missing s _ _)
        · split
          · rw [h.groupOpening]
            cases s.groupOpening around with
            | error halt => rfl
            | ok t =>
              show Turn.again (depth + 1, anchored, _) = _
              rw [h.noteEmptyGroup]
              rfl
          · rw [h.factor]
            cases s.factor around c with
            | error halt => rfl
            | ok t =>
              dsimp only [Reading.relocate]
              rw [h.quantifier]
              cases t.quantifier around <;> rfl

theorem pattern (depth : Nat) (anchored : Bool) :
    (s.relocate move).pattern around' depth anchored =
      (s.pattern around depth anchored).relocate move stop (Prod.map (relocate move) id) :=
  (isLoop_pattern around).natural (isLoop_pattern around')
    (fun t => h.patternTurn t.2.2 t.1 t.2.1) (depth, anchored, s)

theorem flagsTurn (body : String) (seen : List Char) :
    Strand.flagsTurn around' body (seen, s.relocate move) =
      (Strand.flagsTurn around body (seen, s)).map (Prod.map id (relocate move))
        (Prod.map (relocate move) id) := by
  unfold Strand.flagsTurn
  dsimp only
  rw [rest_relocate, h.nextColumn]
  split
  · rfl
  · split
    · rw [h.noteIf _ _ _ _ _ (by decide), take]
      rfl
    · rfl

theorem flags (body : String) (seen : List Char) :
    (s.relocate move).flags around' body seen =
      (s.flags around body seen).map (relocate move) id :=
  (isLoop_flags around body).natural (isLoop_flags around' body)
    (fun t => h.flagsTurn t.2 body t.1) (seen, s)

/-- **Regular expressions** are read alike elsewhere. -/
theorem regex :
    (s.relocate move).regex around' =
      (s.regex around).relocate move stop (Prod.map (relocate move) id) := by
  unfold Strand.regex
  extract_lets t t'
  have ht : t = t'.relocate move := by
    simp only [t, t', h.nextColumn]
    exact h.noteIf s _ _ _ _ (by decide)
  rw [ht, h.noteEmptyGroup, h.pattern]
  cases (t'.noteEmptyGroup around).pattern around 0 false with
  | error halt => rfl
  | ok result =>
    obtain ⟨u, anchored⟩ := result
    dsimp only [Reading.relocate, Prod.map]
    rw [take, text_relocate, h.flags]
    generalize u.take.flags around u.text [] = result
    obtain ⟨read, flags⟩ := result
    dsimp only [Prod.map]
    rw [rest_relocate, h.origin]
    split
    · exact h.halt read _ _ _ (Prod.map (relocate move) id) (by decide)
    · exact h.halt read _ _ _ (Prod.map (relocate move) id) (by decide)
    · rfl

end

end Relocates

/-! ### The findings of a literal -/

/-- **Own findings** of a literal: on its line, regular, and on a rule of literals. -/
def Surroundings.Owns (around : Surroundings) (finding : Finding) : Prop :=
  finding.line = around.line ∧ finding.Regular ∧ finding.rule.OfLiteral

instance (around : Surroundings) : DecidablePred around.Owns :=
  fun _ => inferInstanceAs (Decidable (_ ∧ _))

/-- **Own faults** of a literal: on its line, and fatal. -/
def Surroundings.StopsAt (around : Surroundings) (fault : Finding) : Prop :=
  fault.line = around.line ∧ fault.rule.Fatal

instance (around : Surroundings) : DecidablePred around.StopsAt :=
  fun _ => inferInstanceAs (Decidable (_ ∧ _))

/-- What is a literal's own is left alone, and anything else is made so. -/
def Surroundings.claim (around : Surroundings) (own : Finding → Prop) [DecidablePred own]
    (finding : Finding) : Finding :=
  if own finding then finding
  else { rule := .invalidRegex, line := around.line, column := finding.column }

theorem Surroundings.owns_claim (around : Surroundings) (finding : Finding) :
    around.Owns (around.claim around.Owns finding) := by
  unfold claim
  split
  · assumption
  · exact ⟨rfl, regular_of_default (by decide) _ _ _, show Rule.OfLiteral .invalidRegex by decide⟩

theorem Surroundings.stopsAt_claim (around : Surroundings) (fault : Finding) :
    around.StopsAt (around.claim around.StopsAt fault) := by
  unfold claim
  split
  · assumption
  · exact ⟨rfl, show Rule.Fatal .invalidRegex by decide⟩

/-- What a literal finds is its own before it is made so. -/
theorem relocates_claim (around : Surroundings) :
    Relocates (around.claim around.Owns) (around.claim around.StopsAt) around around where
  origin := rfl
  json := rfl
  inTemplate := rfl
  finding := fun _ _ _ _ hregular hrule => if_pos ⟨rfl, hregular, hrule⟩
  fault := fun _ _ _ hfatal => if_pos ⟨rfl, hfatal⟩

/-- **Owned reading**: all findings of a reading are own, and so is the fault. -/
def Reading.Owned {α : Type} (around : Surroundings) (findings : α → List Finding) :
    Reading α → Prop
  | .error halt => around.StopsAt halt.fault ∧ ∀ f ∈ halt.findings, around.Owns f
  | .ok a => ∀ f ∈ findings a, around.Owns f

/-- A reading that stays the same when its findings are made own is owned. -/
theorem Reading.owned_of_eq {α : Type} {around : Surroundings} {findings : α → List Finding}
    {result : α → α}
    (hresult : ∀ a, findings (result a) = (findings a).map (around.claim around.Owns))
    {r : Reading α}
    (h : r = r.relocate (around.claim around.Owns) (around.claim around.StopsAt) result) :
    r.Owned around findings := by
  have hmem (l : List Finding) : ∀ f ∈ l.map (around.claim around.Owns), around.Owns f := by
    intro f hf
    obtain ⟨g, -, rfl⟩ := List.mem_map.mp hf
    exact around.owns_claim g
  cases r with
  | error halt =>
    have hhalt := Except.error.inj h
    rw [hhalt]
    exact ⟨around.stopsAt_claim halt.fault, hmem halt.findings⟩
  | ok a =>
    show ∀ f ∈ findings a, around.Owns f
    rw [Except.ok.inj h, hresult]
    exact hmem (findings a)

namespace Strand

variable (around : Surroundings) (rest : List Char)

/-- **The findings of a number** are on its line. -/
theorem owned_number (lead : Nat) :
    (({ rest } : Strand).number around lead).Owned around findings := by
  refine Reading.owned_of_eq ?_ ((relocates_claim around).number { rest } lead)
  exact fun _ => rfl

/-- **The findings of a string** are on its line. -/
theorem owned_quoted (quote : Char) :
    (({ rest } : Strand).quoted around quote).Owned around findings := by
  refine Reading.owned_of_eq ?_ ((relocates_claim around).quoted { rest } quote)
  exact fun _ => rfl

/-- **The findings of a regular expression** are on its line. -/
theorem owned_regex : (({ rest } : Strand).regex around).Owned around (·.1.findings) := by
  refine Reading.owned_of_eq ?_ ((relocates_claim around).regex { rest })
  exact fun _ => rfl

end Strand

end ScriptLint
