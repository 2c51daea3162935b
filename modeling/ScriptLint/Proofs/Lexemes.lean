import Mathlib.Tactic.FinCases
import ScriptLint.Proofs.Grammar

/-!
# Lexemes are as long as they can be

The matchers of lexemes are **maximal munch**: each measures the longest start of a text that has
the form of its lexemes.  The forms are languages, which say nothing of how far to look ahead; that
of operators is a list of words beside the runs of dots.

No character begins lexemes of two kinds.  So a text begins with a lexeme of one kind at most, and
the order in which a step tries the kinds does not matter.

## Main definitions

* `operatorWords`, `operatorForm` — the form of operators
* `Munches` — what it is for a matcher to be maximal munch
* `State.trials`, `Step.firstOf` — the readings of a token, and the first with a lexeme

## Main statements

* `longest_operator` — what the matcher of operators measures
* `lexemes_exclusive` — a text begins with a lexeme of one kind at most
* `lexemes_maximal` — the matchers are maximal munch, and their order does not matter
-/

namespace ScriptLint

open Computability

/-! ### Operators -/

/-- One of some words. -/
def wordIn (words : List String) : Language Char := {text | String.ofList text ∈ words}

/-- The operators that are no run of dots. -/
def operatorWords : List String :=
  ["(", ")", "\x7b", "\x7d", "[", "]", ",", ":", ";", "'", "\"", "~", "\x60",
    "?", "??", "??=", "?.", "=", "==", "===", "=>", "*", "**", "**=", "*=", "*/", "/", "//", "/*",
    "+", "++", "+=", "-", "--", "-=", "^", "^=", "%", "%=", "&", "&&", "&&=", "&=",
    "|", "||", "||=", "|=", ">", ">>", ">>>", ">=", ">>=", ">>>=", "<", "<<", "<<=", "<=",
    "!", "!!", "!=", "!=="]

/-- A dot. -/
def isDot (c : Char) : Bool := c == '.'

/-- **Operators**: the words and the runs of dots. -/
def operatorForm : Language Char := wordIn operatorWords + charIn isDot * (charIn isDot)∗

/-- The characters that are operators and begin no other. -/
def operatorMarks : List Char :=
  ['(', ')', '\x7b', '\x7d', '[', ']', ',', ':', ';', '\'', '"', '~', '\x60']

/-- The characters that begin several words. -/
def operatorLeads : List Char :=
  ['?', '=', '*', '/', '+', '-', '^', '%', '&', '|', '>', '<', '!']

variable {text piece rest : List Char}

theorem le_countSuffix (suffix : Char) (count : Nat) (rest : List Char) :
    count ≤ countSuffix suffix count rest := by
  unfold countSuffix
  split
  · exact Nat.le_succ _
  · exact Nat.le_refl _

/-- A word that nothing extends is taken. -/
theorem take_mem (core : List Char) (hword : String.ofList core ∈ operatorWords)
    (rest : List Char) : (core ++ rest).take core.length ∈ operatorForm := by
  rw [List.take_left]
  exact .inl hword

/-- A word that an equals sign extends is taken alone or with it. -/
theorem take_countSuffix (core rest : List Char) :
    (core ++ rest).take (countSuffix '=' core.length rest) = core ∨
      (core ++ rest).take (countSuffix '=' core.length rest) = core ++ ['='] := by
  unfold countSuffix
  split
  · next hhead =>
    obtain ⟨behind, rfl⟩ := List.head?_eq_some_iff.mp hhead
    exact .inr (by simp [List.take_append])
  · exact .inl List.take_left

/-- If it is an operator with the sign too, an operator is taken either way. -/
theorem take_countSuffix_mem (core : List Char) (halone : String.ofList core ∈ operatorWords)
    (hequals : String.ofList (core ++ ['=']) ∈ operatorWords) (rest : List Char) :
    (core ++ rest).take (countSuffix '=' core.length rest) ∈ operatorForm := by
  rcases take_countSuffix core rest with h | h
  · rw [h]
    exact .inl halone
  · rw [h]
    exact .inl hequals

/-- What the matcher measures is an operator. -/
theorem take_operatorLength_mem (h : operatorLength text ≠ 0) :
    text.take (operatorLength text) ∈ operatorForm := by
  revert h
  fun_cases operatorLength text <;> intro h
  case case1 => exact absurd rfl h
  case case2 rest =>
    have hrun := (longest_run isDot rest).cons (p := isDot) (c := '.') rfl
    rw [show 1 + (rest.takeWhile (· == '.')).length = ('.' :: rest.takeWhile isDot).length from
      Nat.add_comm _ _, hrun.take_length]
    exact .inr hrun.mem
  case case33 hsingle =>
    have hmarks : (operatorMarks.all fun c => operatorWords.contains (String.ofList [c])) = true := by
      decide
    have hword := List.all_eq_true.mp hmarks _ (List.contains_iff_mem.mp hsingle)
    exact .inl (List.contains_iff_mem.mp hword)
  case case34 => exact absurd rfl h
  -- The others are words, taken as they stand or as far as an equals sign behind them.
  all_goals
    first
    | refine take_mem [_] ?_ _ <;> decide
    | refine take_mem [_, _] ?_ _ <;> decide
    | refine take_countSuffix_mem [_] ?_ ?_ _ <;> decide
    | refine take_countSuffix_mem [_, _] ?_ ?_ _ <;> decide
    | refine take_countSuffix_mem [_, _, _] ?_ ?_ _ <;> decide

/-- Whatever begins a word is an operator by itself. -/
theorem one_le_operatorLength {c : Char} (h : c ∈ operatorMarks ++ operatorLeads)
    (rest : List Char) : 1 ≤ operatorLength (c :: rest) := by
  generalize htext : c :: rest = text
  fun_cases operatorLength text
  case case1 => cases htext
  case case34 hsingle =>
    obtain ⟨rfl, rfl⟩ := List.cons.inj htext
    rcases List.mem_append.mp h with hmark | hlead
    · exact absurd (List.contains_iff_mem.mpr hmark) hsingle
    · simp only [operatorLeads, List.mem_cons, List.not_mem_nil, or_false] at hlead
      tauto
  -- Every other reading is of one character or more.
  all_goals
    first
    | omega
    | exact Nat.le_trans (by decide) (le_countSuffix '=' _ _)

/-- Behind two of these a third one may follow, or an equals sign. -/
theorem two_le_operatorLength (rest : List Char) : 2 ≤ operatorLength ('>' :: '>' :: rest) := by
  cases rest with
  | nil => exact Nat.le_refl 2
  | cons c rest =>
    by_cases hc : c = '>'
    · subst hc
      exact Nat.le_trans (by decide) (le_countSuffix '=' 3 rest)
    · simp [operatorLength, hc, le_countSuffix]

/-- The matcher goes on to the end of a word at least. -/
theorem length_le_of_word {word : String} (h : word ∈ operatorWords) (rest : List Char) :
    word.toList.length ≤ operatorLength (word.toList ++ rest) := by
  fin_cases h
  -- Of one character, or as much as the matcher has read before it asks for an equals sign.
  all_goals
    first
    | exact one_le_operatorLength (by decide) rest
    | exact le_countSuffix '=' _ _
    | exact Nat.le_refl _
    | exact two_le_operatorLength rest

/-- The matcher goes on to the end of every operator at least. -/
theorem length_le_operatorLength (h : piece ∈ operatorForm) (hstarts : piece <+: text) :
    piece.length ≤ operatorLength text := by
  obtain ⟨rest, rfl⟩ := hstarts
  rcases h with hword | hdots
  · have hle := length_le_of_word hword rest
    rwa [String.toList_ofList] at hle
  · obtain ⟨_, ⟨c, hc, rfl⟩, run, hrun, rfl⟩ := Language.mem_mul.mp hdots
    obtain rfl : c = '.' := beq_iff_eq.mp hc
    have hle := (longest_run isDot (run ++ rest)).longest run hrun (List.prefix_append _ _)
    show run.length + 1 ≤ 1 + ((run ++ rest).takeWhile isDot).length
    omega

/-- **The longest operator** at the start of a text is as long as the matcher says. -/
theorem longest_operator (h : operatorLength text ≠ 0) :
    Longest operatorForm text (text.take (operatorLength text))
      (text.drop (operatorLength text)) where
  split := (List.take_append_drop _ _).symm
  mem := take_operatorLength_mem h
  longest := by
    intro other hother hstarts
    rw [List.length_take_of_le (operatorLength_le text)]
    exact length_le_operatorLength hother hstarts

theorem operatorLength_ne_zero (h : piece ∈ operatorForm) (hstarts : piece <+: text) :
    operatorLength text ≠ 0 := by
  have hle := length_le_operatorLength h hstarts
  have hne : piece ≠ [] := by
    rintro rfl
    rcases h with hword | hdots
    · exact absurd (show "" ∈ operatorWords from hword) (by decide)
    · obtain ⟨_, ⟨c, -, rfl⟩, run, -, hnil⟩ := Language.mem_mul.mp hdots
      cases hnil
  have hpos := List.length_pos_iff.mpr hne
  omega

/-! ### Maximal munch -/

/-- **Maximal munch**: what a matcher measures is the longest start of a text that has a form, and
nothing if there is none that is not empty. -/
structure Munches (matcher : List Char → Nat) (form : Language Char) : Prop where
  longest : ∀ text, ∃ piece rest, Longest (maybe form) text piece rest ∧
    matcher text = piece.length
  eq_zero_iff : ∀ text, matcher text = 0 ↔ ∀ piece ∈ form, piece <+: text → piece = []

/-- A matcher that measures the longest start with a form, wherever there is one. -/
theorem munches_of_longest {matcher : List Char → Nat} {form : Language Char}
    (hlongest : ∀ text, matcher text ≠ 0 →
      Longest form text (text.take (matcher text)) (text.drop (matcher text)))
    (hle : ∀ text, matcher text ≤ text.length)
    (hne : ∀ text, ∀ piece ∈ form, piece <+: text → matcher text ≠ 0) : Munches matcher form where
  longest text := by
    by_cases hzero : matcher text = 0
    · refine ⟨[], text, longest_maybe_of_none fun piece hpiece hstarts => ?_, hzero⟩
      exact hne text piece hpiece hstarts hzero
    · exact ⟨_, _, (hlongest text hzero).maybe, (List.length_take_of_le (hle text)).symm⟩
  eq_zero_iff text := by
    constructor
    · intro hzero piece hpiece hstarts
      exact absurd hzero (hne text piece hpiece hstarts)
    · intro hnone
      by_contra hpos
      have hempty := hnone _ (hlongest text hpos).mem (List.take_prefix _ _)
      have hlength := congrArg List.length hempty
      rw [List.length_take_of_le (hle text)] at hlength
      exact hpos hlength

/-! ### One kind at most -/

/-- No operator begins like an identifier or a number. -/
theorem lead_of_operatorLength_ne_zero {c : Char} (h : operatorLength (c :: rest) ≠ 0) :
    isIdentifierStart c = false ∧ c.isDigit = false := by
  have hwords : ∀ word ∈ operatorWords,
      (word.toList.head?.all fun d => !isIdentifierStart d && !d.isDigit) = true :=
    List.all_eq_true.mp (by decide)
  obtain ⟨n, hn⟩ := Nat.exists_eq_succ_of_ne_zero h
  rcases take_operatorLength_mem h with hword | hdots
  · have hlead := hwords _ hword
    rw [String.toList_ofList, hn] at hlead
    simpa using hlead
  · obtain ⟨_, ⟨d, hd, rfl⟩, run, -, hsplit⟩ := Language.mem_mul.mp hdots
    obtain rfl : d = '.' := beq_iff_eq.mp hd
    rw [hn] at hsplit
    obtain ⟨rfl, -⟩ := List.cons.inj hsplit
    decide

/-- **One kind at most**: of two kinds of lexemes a text begins with one at most. -/
theorem lexemes_exclusive (text : List Char) :
    [identifierLength text, numberLength text, operatorLength text].Pairwise
      fun m n => m = 0 ∨ n = 0 := by
  cases text with
  | nil => decide
  | cons c rest =>
    have hword (hc : isIdentifierStart c = false) : identifierLength (c :: rest) = 0 := by
      rw [identifierLength, hc]
      rfl
    have hnumber (hc : c.isDigit = false) : numberLength (c :: rest) = 0 := by
      by_contra hpos
      rw [isDigit_of_numberLength_ne_zero hpos] at hc
      cases hc
    have hdigit (hpos : numberLength (c :: rest) ≠ 0) : identifierLength (c :: rest) = 0 :=
      hword (isIdentifierStart_eq_false_of_isDigit (isDigit_of_numberLength_ne_zero hpos))
    have hlead (hpos : operatorLength (c :: rest) ≠ 0) :
        identifierLength (c :: rest) = 0 ∧ numberLength (c :: rest) = 0 :=
      (lead_of_operatorLength_ne_zero hpos).imp hword hnumber
    simp only [List.pairwise_cons, List.forall_mem_cons, List.Pairwise.nil, List.not_mem_nil]
    refine ⟨⟨?_, ?_, by simp⟩, ⟨?_, by simp⟩, by simp, trivial⟩
    · exact or_iff_not_imp_right.mpr hdigit
    · exact or_iff_not_imp_right.mpr fun hpos => (hlead hpos).1
    · exact or_iff_not_imp_right.mpr fun hpos => (hlead hpos).2

/-! ### The order of the kinds -/

/-- The readings of a token, each with the length of its lexeme. -/
def State.trials (s : State) : List (Nat × Step) :=
  [(identifierLength s.rest, .next (s.identifier (identifierLength s.rest))),
    (numberLength s.rest, s.number (numberLength s.rest)),
    (operatorLength s.rest, s.operator (operatorLength s.rest))]

/-- The first reading with a lexeme, or else what is done without one. -/
def Step.firstOf (trials : List (Nat × Step)) (otherwise : Step) : Step :=
  ((trials.find? (·.1 ≠ 0)).map (·.2)).getD otherwise

/-- Where one element at most has a property, the order of the others does not matter. -/
theorem find?_eq_of_perm {α : Type} {p : α → Bool} {l l' : List α} (h : l.Perm l')
    (hone : l'.Pairwise fun a b => p a = false ∨ p b = false) : l.find? p = l'.find? p := by
  have hfilter := h.filter p
  have hpairs := hone.filter p
  rw [← List.head?_filter, ← List.head?_filter]
  cases hcases : l'.filter p with
  | nil => rw [hcases] at hfilter; rw [hfilter.eq_nil]
  | cons a tail =>
    cases tail with
    | nil => rw [hcases] at hfilter; rw [hfilter.eq_singleton]
    | cons b tail =>
      have hmem : ∀ c ∈ l'.filter p, p c = true := fun c hc => (List.mem_filter.mp hc).2
      rw [hcases] at hmem hpairs
      have hab := (List.pairwise_cons.mp hpairs).1 b List.mem_cons_self
      simp [hmem a, hmem b] at hab

/-- **The order does not matter** in which the kinds of lexemes are tried. -/
theorem State.readToken_eq_firstOf (s : State) (c : Char) {trials : List (Nat × Step)}
    (h : trials.Perm s.roused.trials) : s.readToken c = .firstOf trials
      (s.roused.fail .unexpectedCharA s.line (s.column + 1) [c.toString]) := by
  have hread : s.readToken c =
      if identifierLength s.roused.rest ≠ 0 then
        .next (s.roused.identifier (identifierLength s.roused.rest))
      else if numberLength s.roused.rest ≠ 0 then s.roused.number (numberLength s.roused.rest)
      else if operatorLength s.roused.rest ≠ 0 then
        s.roused.operator (operatorLength s.roused.rest)
      else s.roused.fail .unexpectedCharA s.line (s.column + 1) [c.toString] := rfl
  have hone : s.roused.trials.Pairwise fun a b =>
      decide (a.1 ≠ 0) = false ∨ decide (b.1 ≠ 0) = false := by
    have hexclusive := lexemes_exclusive s.roused.rest
    rw [show [identifierLength s.roused.rest, numberLength s.roused.rest,
      operatorLength s.roused.rest] = s.roused.trials.map (·.1) from rfl,
      List.pairwise_map] at hexclusive
    simpa using hexclusive
  rw [hread, Step.firstOf, find?_eq_of_perm h hone, State.trials]
  by_cases hword : identifierLength s.roused.rest = 0
  · by_cases hnumber : numberLength s.roused.rest = 0
    · by_cases hoperator : operatorLength s.roused.rest = 0
      · simp [hword, hnumber, hoperator]
      · simp [hword, hnumber, hoperator]
    · simp [hword, hnumber]
  · simp [hword]

/-! ### All together -/

/-- **Maximal munch of lexemes**: what the matchers measure, and that their order does not
matter. -/
structure MaximalMunch : Prop where
  /-- The matcher of identifiers measures the longest one. -/
  identifier : Munches identifierLength identifier
  /-- The matcher of numbers measures the longest lead of one. -/
  number : Munches numberLength numberLead
  /-- The matcher of operators measures the longest one. -/
  operator : Munches operatorLength operatorForm
  /-- A text begins with a lexeme of one kind at most. -/
  exclusive : ∀ text, [identifierLength text, numberLength text, operatorLength text].Pairwise
    fun m n => m = 0 ∨ n = 0
  /-- In whichever order the kinds are tried, the same is read. -/
  order : ∀ (s : State) (c : Char) (trials : List (Nat × Step)), trials.Perm s.roused.trials →
    s.readToken c = .firstOf trials
      (s.roused.fail .unexpectedCharA s.line (s.column + 1) [c.toString])

/-- **Lexemes are as long as they can be**, and the order of their kinds does not matter. -/
theorem lexemes_maximal : MaximalMunch where
  identifier := munches_of_longest (fun _ => longest_identifier) identifierLength_le
    fun _ _ => identifierLength_ne_zero
  number := munches_of_longest (fun _ => longest_numberLead) numberLength_le
    fun _ _ => numberLength_ne_zero
  operator := munches_of_longest (fun _ => longest_operator) operatorLength_le
    fun _ _ => operatorLength_ne_zero
  exclusive := lexemes_exclusive
  order s c _ := s.readToken_eq_firstOf c

end ScriptLint
