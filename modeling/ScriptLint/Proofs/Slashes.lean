import ScriptLint.Proofs.Scan.Additions
import ScriptLint.Proofs.Scan.Placement

/-!
# Slashes

Whether a slash divides or opens a regular expression is decided when it is met, by what
is remembered of the tokens before it: the reserved word a token spells, and whether it
followed a dot.  Here the decision is said of the finished tokens.  Each token, with the
ones before it, bears out what was remembered of it; so the tokens before a slash decide
its role.

## Main definitions

* `EachAfter` — a property of each token with the tokens before it
* `Token.ActsAs` — a token acts as a reserved word
* `RegexFollows` — the tokens after which a slash opens a regular expression
* `SlashesDecided` — every slash of the tokens of a source is as it should be

## Main statements

* `slashRole_ne_division_iff` — the decision, in terms of the tokens before the slash
* `slashes_decided` — the slashes of a completed pass are decided by the tokens before them
-/

namespace ScriptLint

/-! ### Tokens and the tokens before them -/

/-- A property of each token of a list, newest first, with the tokens before it. -/
def EachAfter (P : List Token → Token → Prop) : List Token → Prop
  | [] => True
  | t :: older => P older t ∧ EachAfter P older

theorem EachAfter.of_append {P : List Token → Token → Prop} {newer older : List Token}
    (h : EachAfter P (newer ++ older)) : EachAfter P older := by
  induction newer with
  | nil => exact h
  | cons t newer ih => exact ih h.2

/-- The tokens that are no comments. -/
def code (tokens : List Token) : List Token := tokens.filter (·.kind != .comment)

/-- **Acting as a reserved word**: a token spells it, ignoring case, and does not follow a dot. -/
def Token.ActsAs (t : Token) (before : Option Token) (word : String) : Prop :=
  (t.kind = .identifier ∨ t.kind = .keyword) ∧ word ∈ reservedWords ∧ t.value.toLower = word ∧
    ∀ dot ∈ before, dot.isOperator "." = false

/-- The words that a regular expression may follow. -/
def regexWords : List String :=
  ["return", "case", "delete", "in", "instanceof", "new", "typeof", "void", "yield"]

/-- The characters at the end of an operator that a regular expression may follow. -/
def regexEnds : List Char := "!%&*+-/;<>^\x7b|\x7d~(,:=?[".toList

/-- **A regular expression follows** tokens that are no comments, newest first: none, one that
acts as one of the words, or an operator that ends in one of the characters. -/
def RegexFollows : List Token → Prop
  | [] => True
  | p :: before => (∃ word ∈ regexWords, p.ActsAs before.head? word) ∨
      p.kind = .operator ∧ ∃ c ∈ regexEnds, p.value.toList.getLast? = some c

/-- **Decided slashes**: a slash that opens no comment starts a regular expression exactly if one
follows the tokens before it, and otherwise takes an equals sign with it exactly if it is
next. -/
def SlashesDecided (source : Source) (tokens : List Token) : Prop :=
  ∀ front t back, tokens = front ++ t :: back →
    t.kind = .regex ∨ t.isOperator "/" = true ∨ t.isOperator "/=" = true →
    (t.kind = .regex ↔ RegexFollows (code front).reverse) ∧
    (t.isOperator "/=" = true ↔
      t.kind ≠ .regex ∧ source.charAt? ⟨t.start.line, t.start.column + 1⟩ = some '=')

/-! ### What is remembered of a token -/

/-- **Borne out**: what a token remembers is so of the tokens before it, newest first. -/
inductive BorneOut (source : Source) (older : List Token) (t : Token) : Prop
  /-- A word remembers what it spells and whether it follows a dot. -/
  | word (hkind : t.kind = .identifier ∨ t.kind = .keyword)
      (hkeyword : t.keyword = reserved? t.value)
      (hdot : t.precededByDot = (code older).head?.any (·.isOperator "."))
  /-- A regular expression stands where a slash does not divide. -/
  | regex (hkind : t.kind = .regex) (hkeyword : t.keyword = none)
      (hrole : slashRole (code older).head? ≠ .division)
  /-- A slash stands where it divides, with an equals sign if one is next. -/
  | slash (hkind : t.kind = .operator) (hkeyword : t.keyword = none)
      (hrole : slashRole (code older).head? = .division)
      (hequals : t.value = "/=" ↔
        source.charAt? ⟨t.start.line, t.start.column + 1⟩ = some '=')
  /-- Any other token remembers nothing. -/
  | plain (hword : t.kind ≠ .identifier ∧ t.kind ≠ .keyword) (hregex : t.kind ≠ .regex)
      (hkeyword : t.keyword = none)
      (hslash : t.isOperator "/" = false ∧ t.isOperator "/=" = false)

namespace State

variable {source : Source} {s t : State}

theorem preceding_eq (s : State) : s.preceding = (code s.tokens).head? :=
  List.head?_filter.symm

/-- What is next on a line is next in the source. -/
theorem head?_tail_rest (h : Placed source s.track) :
    s.rest.tail.head? = some '=' ↔ source.charAt? ⟨s.line, s.column + 1⟩ = some '=' := by
  have hrest : s.rest = (source.readAt s.tokens s.line).drop s.column := h.rest
  rw [List.head?_tail, hrest, List.getElem?_drop]
  exact source.getElem?_readAt_eq_some (by decide) (by decide)

/-- A token that is read is borne out by the tokens before it. -/
theorem borneOut_of_reads (h : Placed source s.track) {new : Token}
    (hstart : new.start = s.position) (hread : Reads s new) : BorneOut source s.tokens new := by
  have hpreceding := s.preceding_eq
  cases hread with
  | word hkind hkeyword hdot => exact .word hkind hkeyword (by rw [hdot, afterDot, hpreceding])
  | literal hkind hkeyword _ =>
    rcases hkind with hkind | hkind | hkind
    all_goals
      exact .plain (by simp [hkind]) (by simp [hkind]) hkeyword (by simp [Token.isOperator, hkind])
  | regex hkind hkeyword hrole => exact .regex hkind hkeyword (hpreceding ▸ hrole)
  | division hkind hkeyword hrole hvalue =>
    refine .slash hkind hkeyword (hpreceding ▸ hrole) ?_
    rw [hstart, hvalue]
    refine Iff.trans ?_ (head?_tail_rest h)
    split
    · next hnext => exact iff_of_true rfl hnext
    · next hnext => exact iff_of_false (by decide) hnext
  | punctuation hkind hkeyword hslash hequals _ _ =>
    exact .plain (by simp [hkind]) (by simp [hkind]) hkeyword
      (by simp [Token.isOperator, hslash, hequals])

/-- Every step adds tokens that are borne out by the ones before them. -/
theorem eachAfter_of_step (h : Placed source s.track)
    (hs : EachAfter (BorneOut source) s.tokens) (hstep : s.step = .next t) :
    EachAfter (BorneOut source) t.tokens := by
  cases adds_of_step hstep with
  | none htokens => rwa [htokens]
  | read _ hstart hread htokens =>
    rw [htokens]
    exact ⟨borneOut_of_reads h hstart hread, hs⟩
  | part _ hpart hplain hkeyword hstop htokens =>
    rw [htokens]
    refine ⟨?_, ?_, hs⟩
    · rcases hstop with hstop | hstop
      all_goals
        simp only [Token.isOperator, Bool.and_eq_true, beq_iff_eq] at hstop
        exact .plain (by simp [hstop.1]) (by simp [hstop.1]) hkeyword
          (by simp [Token.isOperator, hstop.2])
    · exact .plain (by simp [hpart.1]) (by simp [hpart.1]) hplain
        (by simp [Token.isOperator, hpart.1])

end State

/-- **The tokens of a reached state** are borne out by the ones before them. -/
theorem eachAfter_of_reaches {source : Source} {s : State}
    (h : State.Reaches (.initial source.lines.toList) s) :
    EachAfter (BorneOut source) s.tokens := by
  induction h with
  | refl =>
    have htokens : (State.initial source.lines.toList).tokens = [] :=
      State.tokens_initial source.lines.toList
    rw [htokens]
    trivial
  | tail hreach hstep ih => exact State.eachAfter_of_step (placed_of_reaches hreach) ih hstep

/-! ### The decision -/

theorem reserved?_eq_some_iff {value word : String} :
    reserved? value = some word ↔ word ∈ reservedWords ∧ value.toLower = word := by
  unfold reserved?
  constructor
  · intro h
    have hspells := List.find?_some h
    rw [beq_iff_eq] at hspells
    exact ⟨List.mem_of_find?_eq_some h, hspells.symm⟩
  · rintro ⟨hmem, rfl⟩
    have hfound : (reservedWords.find? (· == value.toLower)).isSome :=
      List.find?_isSome.mpr ⟨value.toLower, hmem, beq_self_eq_true _⟩
    obtain ⟨word, hword⟩ := Option.isSome_iff_exists.mp hfound
    have hspells := List.find?_some hword
    rw [beq_iff_eq] at hspells
    rw [hword, hspells]

/-- A token that is borne out acts as it remembers. -/
theorem BorneOut.actsAs_iff {source : Source} {older : List Token} {t : Token}
    (h : BorneOut source older t) (word : String) :
    t.actsAs = some word ↔ t.ActsAs (code older).head? word := by
  unfold Token.actsAs Token.ActsAs
  have hnone (hkeyword : t.keyword = none)
      (hword : t.kind ≠ .identifier ∧ t.kind ≠ .keyword) :
      (if t.precededByDot = true then none else t.keyword) = some word ↔
        (t.kind = .identifier ∨ t.kind = .keyword) ∧ word ∈ reservedWords ∧
          t.value.toLower = word ∧ ∀ dot ∈ (code older).head?, dot.isOperator "." = false := by
    simp [hkeyword, hword]
  cases h with
  | word hkind hkeyword hdot =>
    cases hbefore : (code older).head? with
    | none => simp [hdot, hbefore, hkind, hkeyword, reserved?_eq_some_iff]
    | some dot =>
      cases hop : dot.isOperator "." with
      | true => simp [hdot, hbefore, hop]
      | false => simp [hdot, hbefore, hop, hkind, hkeyword, reserved?_eq_some_iff]
  | regex hkind hkeyword _ => exact hnone hkeyword (by simp [hkind])
  | slash hkind hkeyword _ _ => exact hnone hkeyword (by simp [hkind])
  | plain hword _ hkeyword _ => exact hnone hkeyword hword

/-- The words that a regular expression may follow, as a slash tells them apart. -/
theorem exists_regexWords_iff (acts : Option String) :
    (∃ word ∈ regexWords, acts = some word) ↔
      acts.any suspectKeywords.contains = true ∨ acts = some "return" := by
  cases acts with
  | none => simp
  | some acted =>
    rw [Option.any_some, List.contains_iff_mem]
    constructor
    · rintro ⟨word, hmem, heq⟩
      obtain rfl := Option.some.inj heq
      rcases List.mem_cons.mp hmem with rfl | hmem
      · exact .inr rfl
      · exact .inl hmem
    · rintro (hmem | hreturn)
      · exact ⟨acted, List.mem_cons_of_mem _ hmem, rfl⟩
      · exact ⟨"return", List.mem_cons_self, hreturn⟩

/-- The ends of operators that a regular expression may follow, as a slash tells them apart. -/
theorem exists_regexEnds_iff (c : Char) :
    (∃ d ∈ regexEnds, some c = some d) ↔
      "!%&*+-/;<>^\x7b|\x7d~".toList.contains c = true ∨ "(,:=?[".toList.contains c = true := by
  have hends : regexEnds = "!%&*+-/;<>^\x7b|\x7d~".toList ++ "(,:=?[".toList := by decide
  rw [List.contains_iff_mem, List.contains_iff_mem, ← List.mem_append, ← hends]
  constructor
  · rintro ⟨d, hd, heq⟩
    rwa [Option.some.inj heq]
  · intro hc
    exact ⟨c, hc, rfl⟩

/-- The role of a slash after a token, by what the token acts as and what it ends in. -/
theorem slashRole_some_ne_division_iff (p : Token) :
    slashRole (some p) ≠ .division ↔ (∃ word ∈ regexWords, p.actsAs = some word) ∨
      p.kind = .operator ∧ ∃ c ∈ regexEnds, p.value.toList.getLast? = some c := by
  rw [exists_regexWords_iff]
  simp only [slashRole]
  split
  · next hsuspect => exact iff_of_true (by decide) (.inl (.inl hsuspect))
  · next hsuspect =>
    split
    · next hreturn => exact iff_of_true (by decide) (.inl (.inr hreturn))
    · next hreturn =>
      rw [or_iff_right (not_or.mpr ⟨hsuspect, hreturn⟩)]
      split
      · next hkind => exact iff_of_false (by simp) fun h => hkind h.1
      · next hkind =>
        rw [and_iff_right (not_not.mp hkind)]
        -- What is left is the last character of an operator.
        split
        · next hlast => simp [hlast]
        · next c hlast =>
          rw [hlast, exists_regexEnds_iff]
          split
          · next hbare => exact iff_of_true (by decide) (.inl hbare)
          · next hbare =>
            split
            · next hopens => exact iff_of_true (by decide) (.inr hopens)
            · next hopens => exact iff_of_false (by simp) (not_or.mpr ⟨hbare, hopens⟩)

/-- **The decision on a slash**, in terms of the tokens before it. -/
theorem slashRole_ne_division_iff {source : Source} {older : List Token}
    (h : EachAfter (BorneOut source) older) :
    slashRole (code older).head? ≠ .division ↔ RegexFollows (code older) := by
  cases hcode : code older with
  | nil => simp [slashRole, RegexFollows]
  | cons p before =>
    obtain ⟨comments, rest, rfl, -, -, hrest⟩ := List.filter_eq_cons_iff.mp hcode
    have hborne : BorneOut source rest p := h.of_append.1
    rw [List.head?_cons, slashRole_some_ne_division_iff]
    simp only [hborne.actsAs_iff]
    rw [show code rest = before from hrest]
    rfl

/-- **Slashes are decided by the tokens before them.**  In a completed pass a slash opens a
regular expression exactly after the tokens that one may follow, however many comments, lines
or templates are between. -/
theorem slashes_decided (settings : Settings) (text : String)
    (h : (Pass.run settings text).abort = none) :
    SlashesDecided (.ofString text) (Pass.run settings text).tokens := by
  intro front t back hsplit hslash
  obtain ⟨s, hreach, -, -, -, e, hkind, -, htokens⟩ :=
    reached_of_completed (fault_eq_none_of_abort h) .refl
  have hreversed : e :: s.tokens = back.reverse ++ t :: front.reverse := by
    have hreverse := congrArg List.reverse (htokens.symm.trans hsplit)
    simpa using hreverse
  -- The token is not the end of the source, so it is one of the reached state.
  obtain ⟨newer, hnewer⟩ : ∃ newer, s.tokens = newer ++ t :: front.reverse := by
    cases hback : back.reverse with
    | nil =>
      rw [hback] at hreversed
      obtain rfl := (List.cons.inj hreversed).1
      simp [hkind, Token.isOperator] at hslash
    | cons x newer =>
      rw [hback] at hreversed
      exact ⟨newer, (List.cons.inj hreversed).2⟩
  have heach := eachAfter_of_reaches hreach
  rw [hnewer] at heach
  obtain ⟨hborne, heach⟩ := heach.of_append
  have hcode : (code front).reverse = code front.reverse := List.filter_reverse.symm
  rw [hcode, ← slashRole_ne_division_iff heach]
  cases hborne with
  | word hword _ _ => rcases hword with hword | hword <;> simp [hword, Token.isOperator] at hslash
  | regex hregex _ hrole => simp [hregex, hrole, Token.isOperator]
  | slash hop _ hrole hequals => simp [hop, hrole, hequals, Token.isOperator]
  | plain _ hregex _ hother => simp [hregex, hother] at hslash

/-- Slashes after a property named like a keyword, a closing backtick and a comment. -/
theorem slashes_of_property :
    SlashesDecided (.ofString "a.return /= 2 / \x60x$\x7b/[/]+/g\x7d\x60 /* c */ / b;\nnew /c/;")
      (Pass.run {} "a.return /= 2 / \x60x$\x7b/[/]+/g\x7d\x60 /* c */ / b;\nnew /c/;").tokens :=
  slashes_decided {} _ (by decide +kernel)

end ScriptLint
