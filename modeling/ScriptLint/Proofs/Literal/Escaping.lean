import Mathlib.Data.List.Basic
import Mathlib.Data.List.Induction
import ScriptLint.Proofs.Literal.Whole

/-!
# Escapes in a text

Which characters of a text belong to escape sequences.  A reader of literals decides it as
it goes; here it is decided by an automaton that sees the characters one by one, so that
what a reader does can be compared with a property of the text alone.

An escape takes its backslash and the character behind it.  Behind `\u` it takes an
opening brace as well, then hexadecimal digits, and then **whatever stands in the place of
the closing brace**.

Strings have a second way to tell: a character is escaped if an odd number of backslashes
stands before it.  The two agree up to the first overrun, where the place of a closing
brace is taken by something that counts.

## Main definitions

* `Stage` — how far an escape has come
* `Stage.behind`, `Stage.loose` — the stage behind a text, and its characters in no escape
* `Stage.Released` — the stages in which a reader has left an escape
* `EndsEscaping`, `Overruns` — escaping by the number of backslashes, and where it fails
* `Strand.Passes` — going on by a piece of text

## Main statements

* `Strand.passes_of_escape` — what reading an escape does to the stage
* `takes_iff_endsEscaping`, `not_mem_loose_iff` — where the two ways to tell agree
-/

namespace ScriptLint

/-! ### Picking characters -/

section Picking

variable {σ : Type} (after : σ → Char → σ) (picks : σ → Char → Bool)

/-- **Picked characters**: those of a text that an automaton picks as it reads them. -/
def picked (s : σ) : List Char → List Char
  | [] => []
  | c :: text => if picks s c then c :: picked (after s c) text else picked (after s c) text

variable {after picks}

theorem picked_append (s : σ) (front back : List Char) :
    picked after picks s (front ++ back) =
      picked after picks s front ++ picked after picks (front.foldl after s) back := by
  induction front generalizing s with
  | nil => rfl
  | cons c front ih =>
    simp only [List.cons_append, picked, List.foldl_cons, ih]
    split
    · rfl
    · rfl

/-- A character is picked from a text if it is picked at one of its places. -/
theorem mem_picked_iff {s : σ} {text : List Char} {c : Char} :
    c ∈ picked after picks s text ↔
      ∃ front back, text = front ++ c :: back ∧ picks (front.foldl after s) c = true := by
  constructor
  · intro h
    induction text generalizing s with
    | nil => cases h
    | cons d text ih =>
      have hlater : c ∈ picked after picks (after s d) text → ∃ front back,
          d :: text = front ++ c :: back ∧ picks (front.foldl after s) c = true := by
        intro hmem
        obtain ⟨front, back, rfl, hpicks⟩ := ih hmem
        exact ⟨d :: front, back, rfl, hpicks⟩
      unfold picked at h
      split at h
      · next hpicks =>
        rcases List.mem_cons.mp h with rfl | h
        · exact ⟨[], text, rfl, hpicks⟩
        · exact hlater h
      · exact hlater h
  · rintro ⟨front, back, rfl, hpicks⟩
    rw [picked_append, picked, if_pos hpicks]
    simp

end Picking

/-- A hexadecimal digit is nothing else. -/
theorem ne_of_isHexDigit {c d : Char} (hc : isHexDigit c = true) (hd : isHexDigit d = false) :
    c ≠ d := by
  rintro rfl
  rw [hc] at hd
  cases hd

/-! ### Stages -/

/-- **Stage**: how far an escape sequence has come. -/
inductive Stage
  /-- Outside of escapes. -/
  | outside
  /-- Behind a backslash that escapes. -/
  | begun
  /-- Behind `\u`. -/
  | unit
  /-- Behind `\u`, an opening brace and any number of hexadecimal digits. -/
  | braced
deriving DecidableEq, Repr

namespace Stage

/-- Whether the next character belongs to an escape. -/
def takes : Stage → Char → Bool
  | outside, c => c == '\\'
  | begun, _ => true
  | unit, c => c == '{' || c == '\\'
  | braced, _ => true

/-- The stage behind one more character. -/
def after : Stage → Char → Stage
  | outside, c => if c = '\\' then begun else outside
  | begun, c => if c = 'u' then unit else outside
  | unit, c => if c = '{' then braced else if c = '\\' then begun else outside
  | braced, c => if isHexDigit c then braced else outside

/-- The stage behind a text. -/
def behind (stage : Stage) (text : List Char) : Stage := text.foldl after stage

/-- **Loose characters**: those of a text that belong to no escape. -/
def loose (stage : Stage) (text : List Char) : List Char :=
  picked after (fun stage c => !stage.takes c) stage text

@[simp] theorem behind_nil (stage : Stage) : stage.behind [] = stage := rfl

@[simp] theorem behind_cons (stage : Stage) (c : Char) (text : List Char) :
    stage.behind (c :: text) = (stage.after c).behind text := rfl

@[simp] theorem behind_append (stage : Stage) (front back : List Char) :
    stage.behind (front ++ back) = (stage.behind front).behind back :=
  List.foldl_append

@[simp] theorem loose_nil (stage : Stage) : stage.loose [] = [] := rfl

@[simp] theorem loose_append (stage : Stage) (front back : List Char) :
    stage.loose (front ++ back) = stage.loose front ++ (stage.behind front).loose back :=
  picked_append stage front back

/-- Only a `u` behind the backslash leads behind `\u`. -/
theorem after_eq_unit {stage : Stage} {c : Char} :
    stage.after c = unit ↔ stage = begun ∧ c = 'u' := by
  cases stage <;> grind [after]

/-- A braced escape is opened by its brace and goes on with its digits. -/
theorem after_eq_braced {stage : Stage} {c : Char} :
    stage.after c = braced ↔
      stage = braced ∧ isHexDigit c = true ∨ c = '{' ∧ stage = unit := by
  cases stage <;> grind [after]

/-- A backslash begins an escape unless it belongs to one, and nothing else does. -/
theorem after_eq_begun {stage : Stage} {c : Char} :
    stage.after c = begun ↔ c = '\\' ∧ stage ≠ begun ∧ stage ≠ braced := by
  cases stage <;> grind [after]

/-- A character that no escape takes is loose. -/
theorem loose_cons_of_not_takes {stage : Stage} {c : Char} (h : stage.takes c = false)
    (text : List Char) : stage.loose (c :: text) = c :: (stage.after c).loose text := by
  simp [loose, picked, h]

theorem loose_cons_of_takes {stage : Stage} {c : Char} (h : stage.takes c = true)
    (text : List Char) : stage.loose (c :: text) = (stage.after c).loose text := by
  simp [loose, picked, h]

@[simp] theorem takes_backslash (stage : Stage) : stage.takes '\\' = true := by
  cases stage <;> rfl

/-- Behind a character that no escape takes there is none. -/
theorem after_of_not_takes {stage : Stage} {c : Char} (h : stage.takes c = false) :
    stage.after c = outside := by
  cases stage <;> grind [takes, after]

/-- The digits of a braced escape belong to it. -/
theorem braced_digits {digits : List Char} (h : ∀ c ∈ digits, isHexDigit c = true) :
    braced.behind digits = braced ∧ braced.loose digits = [] := by
  induction digits with
  | nil => exact ⟨rfl, rfl⟩
  | cons c digits ih =>
    obtain ⟨hc, hdigits⟩ := List.forall_mem_cons.mp h
    have hafter : braced.after c = braced := if_pos hc
    rw [behind_cons, hafter, loose_cons_of_takes rfl, hafter]
    exact ih hdigits

/-- Outside of escapes hexadecimal digits stay outside. -/
theorem outside_digits {digits : List Char} (h : ∀ c ∈ digits, isHexDigit c = true) :
    outside.behind digits = outside := by
  induction digits with
  | nil => rfl
  | cons c digits ih =>
    obtain ⟨hc, hdigits⟩ := List.forall_mem_cons.mp h
    have hne : c ≠ '\\' := ne_of_isHexDigit hc (by decide)
    rw [behind_cons, show outside.after c = outside from if_neg hne]
    exact ih hdigits

/-- A character is loose in a text if no escape takes it at one of its places. -/
theorem mem_loose_iff {stage : Stage} {text : List Char} {c : Char} :
    c ∈ stage.loose text ↔
      ∃ front back, text = front ++ c :: back ∧ (stage.behind front).takes c = false := by
  simp only [loose, mem_picked_iff, Bool.not_eq_true']
  rfl

/-- The characters in no escape are among those of the text. -/
theorem mem_of_mem_loose {stage : Stage} {text : List Char} {c : Char}
    (h : c ∈ stage.loose text) : c ∈ text := by
  obtain ⟨front, back, rfl, -⟩ := mem_loose_iff.mp h
  simp

/-- **Released**: a reader has left the escape, if any.  The next character goes on as outside of
escapes, and an escape takes it only if it is a backslash or one that no escape allows. -/
def Released (stage : Stage) (allowed rest : List Char) : Prop :=
  ∀ c ∈ rest.head?, stage.after c = outside.after c ∧
    (stage.takes c = true → c = '\\' ∨ c ∉ Strand.commonEscapes ∧ c ∉ allowed)

namespace Released

variable {stage : Stage} {allowed rest : List Char} {c : Char}

theorem outside (allowed rest : List Char) : Released .outside allowed rest := by
  intro c _
  refine ⟨rfl, fun htakes => .inl ?_⟩
  simpa [takes] using htakes

theorem nil (stage : Stage) (allowed : List Char) : Released stage allowed [] := by
  intro c hc
  cases hc

/-- Whatever comes next goes on as outside of escapes. -/
theorem after_eq (h : Released stage allowed (c :: rest)) :
    stage.after c = Stage.outside.after c :=
  (h c rfl).1

/-- Behind the next character an escape has begun or there is none. -/
theorem after_of_ne (h : Released stage allowed (c :: rest)) (hc : c ≠ '\\') :
    stage.after c = .outside := by
  rw [h.after_eq]
  exact if_neg hc

/-- What escapes allow no escape takes. -/
theorem not_takes (h : Released stage allowed (c :: rest)) (hc : c ≠ '\\')
    (hspecial : c ∈ Strand.commonEscapes ∨ c ∈ allowed) : stage.takes c = false := by
  rw [Bool.eq_false_iff]
  intro htakes
  rcases (h c rfl).2 htakes with heq | ⟨hcommon, hallowed⟩
  · exact hc heq
  · exact hspecial.elim hcommon hallowed

end Released

end Stage

/-! ### Escaping by the number of backslashes -/

/-- The number of backslashes at the end of a text. -/
def trailingBackslashes (text : List Char) : Nat :=
  (text.reverse.takeWhile (· == '\\')).length

/-- **Escaping by parity**: an odd number of backslashes stands at the end of a text, so that the
last one escapes what comes next. -/
def EndsEscaping (text : List Char) : Prop := trailingBackslashes text % 2 = 1

instance : DecidablePred EndsEscaping := fun _ => inferInstanceAs (Decidable (_ = _))

theorem not_endsEscaping_nil : ¬EndsEscaping [] := by
  simp [EndsEscaping, trailingBackslashes]

/-- Of two backslashes in a row exactly one escapes. -/
@[simp] theorem endsEscaping_backslash (text : List Char) :
    EndsEscaping (text ++ ['\\']) ↔ ¬EndsEscaping text := by
  have hmore : trailingBackslashes (text ++ ['\\']) = trailingBackslashes text + 1 := by
    simp [trailingBackslashes]
  rw [EndsEscaping, EndsEscaping, hmore]
  omega

@[simp] theorem endsEscaping_concat_of_ne {c : Char} (hc : c ≠ '\\') (text : List Char) :
    EndsEscaping (text ++ [c]) ↔ False := by
  simp [EndsEscaping, trailingBackslashes, hc]

/-- A text ends escaping if its last character is a backslash that nothing escapes. -/
theorem endsEscaping_iff {text : List Char} :
    EndsEscaping text ↔ ∃ front, text = front ++ ['\\'] ∧ ¬EndsEscaping front := by
  constructor
  · intro h
    rcases List.eq_nil_or_concat' text with rfl | ⟨front, c, rfl⟩
    · exact absurd h not_endsEscaping_nil
    · by_cases hc : c = '\\'
      · subst hc
        exact ⟨front, rfl, (endsEscaping_backslash front).mp h⟩
      · exact absurd h (by simp [hc])
  · rintro ⟨front, rfl, hfront⟩
    exact (endsEscaping_backslash front).mpr hfront

/-- The text ends in a braced escape that still lacks its closing brace. -/
def OpensBrace (text : List Char) : Prop :=
  ∃ front digits, text = front ++ '\\' :: 'u' :: '{' :: digits ∧ ¬EndsEscaping front ∧
    ∀ c ∈ digits, isHexDigit c = true

/-- **Overrun**: in the place of the closing brace of an escape stands the quote that closes a
string, or a backslash. -/
def Overruns (quote : Char) (text : List Char) : Prop :=
  ∃ front c back, text = front ++ c :: back ∧ OpensBrace front ∧ (c = quote ∨ c = '\\')

theorem Overruns.append {quote : Char} {text : List Char} (h : Overruns quote text)
    (back : List Char) : Overruns quote (text ++ back) := by
  obtain ⟨front, c, tail, rfl, hopens, hc⟩ := h
  exact ⟨front, c, tail ++ back, by simp, hopens, hc⟩

/-- One more character behind an open braced escape is a digit of it, or the text has just opened
it. -/
theorem opensBrace_concat {text : List Char} {c : Char} :
    OpensBrace (text ++ [c]) ↔ OpensBrace text ∧ isHexDigit c = true ∨
      c = '{' ∧ ∃ front, text = front ++ ['\\', 'u'] ∧ ¬EndsEscaping front := by
  constructor
  · rintro ⟨front, digits, htext, hfront, hdigits⟩
    rcases List.eq_nil_or_concat' digits with rfl | ⟨digits, d, rfl⟩
    · have hends : text ++ [c] = (front ++ ['\\', 'u']) ++ ['{'] := htext.trans (by simp)
      obtain ⟨rfl, hc⟩ := List.append_inj' hends rfl
      exact .inr ⟨by simpa using hc, front, rfl, hfront⟩
    · have hends : text ++ [c] = (front ++ '\\' :: 'u' :: '{' :: digits) ++ [d] :=
        htext.trans (by simp)
      obtain ⟨rfl, hc⟩ := List.append_inj' hends rfl
      obtain rfl : c = d := by simpa using hc
      rw [List.forall_mem_append] at hdigits
      exact .inl ⟨⟨front, digits, rfl, hfront, hdigits.1⟩, hdigits.2 c List.mem_cons_self⟩
  · rintro (⟨⟨front, digits, rfl, hfront, hdigits⟩, hc⟩ | ⟨rfl, front, rfl, hfront⟩)
    · refine ⟨front, digits ++ [c], by simp, hfront, ?_⟩
      rw [List.forall_mem_append]
      exact ⟨hdigits, by simpa using hc⟩
    · exact ⟨front, [], by simp, hfront, by simp⟩

/-- **The stage by the backslashes**: what the characters at the end of a text say about the
escape they belong to. -/
structure ByBackslashes (text : List Char) : Prop where
  begun : Stage.outside.behind text = .begun ↔ EndsEscaping text
  unit : Stage.outside.behind text = .unit ↔
    ∃ front, text = front ++ ['\\', 'u'] ∧ ¬EndsEscaping front
  braced : Stage.outside.behind text = .braced ↔ OpensBrace text

/-- Up to the first overrun the stage goes by the backslashes. -/
theorem byBackslashes_of_not_overruns {quote : Char} {text : List Char}
    (h : ¬Overruns quote text) : ByBackslashes text := by
  induction text using List.reverseRecOn with
  | nil =>
    refine ⟨?_, ?_, ?_⟩
    · simp [not_endsEscaping_nil]
    · simp
    · simp [OpensBrace]
  | append_singleton text c ih =>
    have hprefix : ¬Overruns quote text := fun hover => h (hover.append [c])
    have hbrace : c = '\\' → ¬OpensBrace text := by
      rintro rfl hopens
      exact h ⟨text, '\\', [], rfl, hopens, .inr rfl⟩
    obtain ⟨hbegun, hunit, hbraced⟩ := ih hprefix
    generalize hstage : Stage.outside.behind text = stage at hbegun hunit hbraced
    have hafter : Stage.outside.behind (text ++ [c]) = stage.after c := by
      rw [Stage.behind_append, hstage]
      rfl
    refine ⟨?_, ?_, ?_⟩
    · rw [hafter]
      rw [Stage.after_eq_begun]
      by_cases hc : c = '\\'
      · have hne : stage ≠ .braced := fun heq => hbrace hc (hbraced.mp heq)
        rw [hc, endsEscaping_backslash, ← hbegun]
        exact ⟨fun h => h.2.1, fun h => ⟨rfl, h, hne⟩⟩
      · rw [endsEscaping_concat_of_ne hc, iff_false]
        exact fun h => hc h.1
    · rw [hafter, Stage.after_eq_unit, hbegun, endsEscaping_iff]
      constructor
      · rintro ⟨⟨front, rfl, hfront⟩, rfl⟩
        exact ⟨front, by simp, hfront⟩
      · rintro ⟨front, htext, hfront⟩
        have hends : text ++ [c] = (front ++ ['\\']) ++ ['u'] := htext.trans (by simp)
        obtain ⟨rfl, hc⟩ := List.append_inj' hends rfl
        exact ⟨⟨front, rfl, hfront⟩, by simpa using hc⟩
    · rw [hafter, Stage.after_eq_braced, opensBrace_concat, hbraced, hunit]

/-- Up to the first overrun a quote belongs to an escape exactly if an odd number of backslashes
stands before it. -/
theorem takes_iff_endsEscaping {quote : Char} (hquote : quote = '"' ∨ quote = '\'')
    {front : List Char} (h : ¬Overruns quote (front ++ [quote])) :
    (Stage.outside.behind front).takes quote = true ↔ EndsEscaping front := by
  have hfront : ¬Overruns quote front := fun hover => h (hover.append [quote])
  have hopens : ¬OpensBrace front := fun hopens => h ⟨front, quote, [], rfl, hopens, .inl rfl⟩
  have hby := byBackslashes_of_not_overruns hfront
  rw [← hby.begun]
  rw [← hby.braced] at hopens
  cases hstage : Stage.outside.behind front with
  | outside => rcases hquote with rfl | rfl <;> decide
  | begun => simp [Stage.takes]
  | unit => rcases hquote with rfl | rfl <;> decide
  | braced => exact absurd hstage hopens

/-- Up to the first overrun every quote of a text is escaped exactly if none is loose. -/
theorem not_mem_loose_iff {quote : Char} (hquote : quote = '"' ∨ quote = '\'')
    {text : List Char} (h : ¬Overruns quote text) :
    quote ∉ Stage.outside.loose text ↔
      ∀ front back, text = front ++ quote :: back → EndsEscaping front := by
  have htakes {front back : List Char} (htext : text = front ++ quote :: back) :
      (Stage.outside.behind front).takes quote = true ↔ EndsEscaping front := by
    refine takes_iff_endsEscaping hquote fun hover => h ?_
    rw [htext, List.append_cons]
    exact hover.append back
  rw [Stage.mem_loose_iff]
  constructor
  · intro hnone front back htext
    rw [← htakes htext]
    rw [← Bool.not_eq_false]
    exact fun hfalse => hnone ⟨front, back, htext, hfalse⟩
  · rintro hall ⟨front, back, htext, hfalse⟩
    rw [(htakes htext).mpr (hall front back htext)] at hfalse
    cases hfalse

/-! ### Going on by a piece -/

namespace Strand

variable (around : Surroundings)

/-- **Passing**: a strand goes on by a piece of its text. -/
structure Passes (s : Strand) (piece : List Char) (t : Strand) : Prop where
  taken : t.taken = piece.reverse ++ s.taken
  rest : s.rest = piece ++ t.rest

namespace Passes

variable {s t u : Strand} {piece piece' : List Char}

theorem refl (s : Strand) : s.Passes [] s := ⟨rfl, rfl⟩

theorem trans (h : s.Passes piece t) (h' : t.Passes piece' u) :
    s.Passes (piece ++ piece') u := by
  refine ⟨?_, ?_⟩
  · rw [h'.taken, h.taken, List.reverse_append, List.append_assoc]
  · rw [h.rest, h'.rest, List.append_assoc]

/-- Only what is taken and what is left matters. -/
theorem congr (h : s.Passes piece t) (htaken : u.taken = t.taken) (hrest : u.rest = t.rest) :
    s.Passes piece u :=
  ⟨htaken.trans h.taken, h.rest.trans (congrArg (piece ++ ·) hrest.symm)⟩

/-- The next character is taken. -/
theorem take {c : Char} {tail : List Char} (h : s.rest = c :: tail) : s.Passes [c] s.take := by
  have htake : s.take = { s with taken := c :: s.taken, rest := tail } := by
    simp [Strand.take, h]
  rw [htake]
  exact ⟨rfl, h⟩

/-- It is taken with findings made before it, too. -/
theorem take_noted {c : Char} {tail : List Char} (h : s.rest = c :: tail)
    (htaken : u.taken = s.taken) (hrest : u.rest = s.rest) : s.Passes [c] u.take := by
  have hpass : u.Passes [c] u.take := take (hrest.trans h)
  exact ⟨hpass.taken.trans (congrArg ([c].reverse ++ ·) htaken), hrest.symm.trans hpass.rest⟩

/-- A run of characters is taken. -/
theorem takeWhile (s : Strand) (p : Char → Bool) :
    s.Passes (s.rest.takeWhile p) (s.takeWhile p) :=
  ⟨rfl, List.takeWhile_append_dropWhile.symm⟩

/-- Whatever comes next is taken. -/
theorem take_any (s : Strand) : s.Passes s.rest.head?.toList s.take := by
  cases hrest : s.rest with
  | nil =>
    have htake : s.take = s := by simp [Strand.take, hrest]
    rw [htake]
    exact refl s
  | cons c tail => exact take hrest

end Passes

theorem taken_take (s : Strand) : s.take.taken = s.rest.head?.toList ++ s.taken := by
  unfold Strand.take
  split <;> simp [*]

/-! ### Escapes -/

/-- A braced code point goes on by its brace, its digits and what stands behind them, and leaves
the escape. -/
theorem passes_bracedCodePoint {s : Strand} {tail : List Char} (hs : s.rest = '{' :: tail) :
    ∃ piece, s.Passes piece (s.bracedCodePoint around) ∧ Stage.unit.loose piece = [] ∧
      ((s.bracedCodePoint around).rest = [] ∨ Stage.unit.behind piece = .outside) := by
  have hdigits : ∀ c ∈ tail.takeWhile isHexDigit, isHexDigit c = true :=
    List.all_eq_true.mp List.all_takeWhile
  obtain ⟨hbehind, hloose⟩ := Stage.braced_digits hdigits
  -- The brace and the digits are taken, then one more character if there is one.
  have hopen : s.Passes ['{'] s.take := .take hs
  have hread : s.Passes ('{' :: tail.takeWhile isHexDigit) (s.take.takeWhile isHexDigit) := by
    have hrun := hopen.trans (.takeWhile s.take isHexDigit)
    rwa [rest_take, hs] at hrun
  have hlast := hread.trans (.take_any _)
  have hall : s.Passes _ (s.bracedCodePoint around) := hlast.congr
    (by simp [bracedCodePoint, taken_take, someDigits, Strand.takeWhile])
    (by simp [bracedCodePoint])
  have hstage (last : List Char) :
      Stage.unit.loose ('{' :: tail.takeWhile isHexDigit ++ last) = Stage.braced.loose last ∧
      Stage.unit.behind ('{' :: tail.takeWhile isHexDigit ++ last) =
        Stage.braced.behind last := by
    rw [List.cons_append, Stage.loose_cons_of_takes rfl, Stage.behind_cons,
      show Stage.unit.after '{' = .braced from rfl, Stage.loose_append, Stage.behind_append,
      hbehind, hloose]
    exact ⟨rfl, rfl⟩
  refine ⟨_, hall, ?_, ?_⟩
  · rw [(hstage _).1]
    cases (s.take.takeWhile isHexDigit).rest.head? with
    | none => rfl
    | some c => rfl
  · cases hend : (s.take.takeWhile isHexDigit).rest with
    | nil =>
      refine .inl ?_
      simp only [rest_takeWhile, rest_take] at hend
      simp [bracedCodePoint, hend]
    | cons c back =>
      refine .inr ?_
      have hc : isHexDigit c = false := by
        have hhead := List.head?_dropWhile_not isHexDigit s.take.rest
        rw [← rest_takeWhile, hend] at hhead
        simpa using hhead
      rw [(hstage _).2]
      simp [Stage.after, hc]

/-- A plain code unit goes on by its digits, and leaves the escape. -/
theorem passes_plainCodeUnit {s : Strand} (hs : s.rest.head? ≠ some '{')
    (allowed : List Char) :
    ∃ piece, s.Passes piece (s.plainCodeUnit around) ∧
      (∀ c ∈ Stage.unit.loose piece, isHexDigit c = true) ∧
      (Stage.unit.behind piece).Released allowed (s.plainCodeUnit around).rest := by
  have hdigits : ∀ c ∈ s.rest.takeWhile isHexDigit, isHexDigit c = true :=
    List.all_eq_true.mp List.all_takeWhile
  have hall : s.Passes (s.rest.takeWhile isHexDigit) (s.plainCodeUnit around) :=
    (Passes.takeWhile s isHexDigit).congr (by simp [plainCodeUnit]) (by simp [plainCodeUnit])
  refine ⟨_, hall, fun c hc => hdigits c (Stage.mem_of_mem_loose hc), ?_⟩
  cases hrun : s.rest.takeWhile isHexDigit with
  | nil =>
    -- Without digits the next character is no brace, so no escape goes on.
    have hrest : (s.plainCodeUnit around).rest = s.rest := by
      have hsplit := hall.rest
      rw [hrun] at hsplit
      exact hsplit.symm
    rw [hrest]
    intro c hc
    have hbrace : c ≠ '{' := by
      rintro rfl
      exact hs hc
    refine ⟨if_neg hbrace, fun htakes => .inl ?_⟩
    simpa [Stage.takes, hbrace] using htakes
  | cons c digits =>
    rw [hrun] at hdigits
    obtain ⟨hc, hdigits⟩ := List.forall_mem_cons.mp hdigits
    have hafter : Stage.unit.after c = .outside := by
      have hbrace : c ≠ '{' ∧ c ≠ '\\' :=
        ⟨ne_of_isHexDigit hc (by decide), ne_of_isHexDigit hc (by decide)⟩
      simp [Stage.after, hbrace]
    rw [Stage.behind_cons, hafter, Stage.outside_digits hdigits]
    exact .outside _ _

/-- **Reading an escape** goes on by a piece of which only hexadecimal digits are loose, and
leaves the escape. -/
theorem passes_of_escape {allowed : List Char} {s t : Strand} {tail : List Char}
    (hs : s.rest = '\\' :: tail) {stage : Stage} (hstage : stage.after '\\' = .begun)
    (h : s.escape around allowed = .ok t) :
    ∃ piece, s.Passes piece t ∧ (∀ c ∈ stage.loose piece, isHexDigit c = true) ∧
      (stage.behind piece).Released allowed t.rest := by
  have hback : s.Passes ['\\'] s.take := .take hs
  have hloose (piece : List Char) : stage.loose (['\\'] ++ piece) = Stage.begun.loose piece := by
    rw [List.singleton_append, Stage.loose_cons_of_takes (Stage.takes_backslash stage), hstage]
  have hbehind (piece : List Char) : stage.behind (['\\'] ++ piece) = Stage.begun.behind piece := by
    rw [List.singleton_append, Stage.behind_cons, hstage]
  unfold escape escaped at h
  split at h
  · simp [halt] at h
  · next c tail' hu =>
    obtain rfl := Except.ok.inj h
    have hv : s.take.take.rest = '{' :: tail' := by
      rw [rest_take, hu]
      rfl
    obtain ⟨piece, hpasses, hnone, hleft⟩ := passes_bracedCodePoint around hv
    refine ⟨_, hback.trans ((Passes.take hu).trans hpasses), ?_, ?_⟩
    · rw [hloose, List.singleton_append, Stage.loose_cons_of_takes rfl]
      rw [show Stage.begun.after 'u' = .unit from rfl, hnone]
      simp
    · rw [hbehind, List.singleton_append, Stage.behind_cons,
        show Stage.begun.after 'u' = .unit from rfl]
      rcases hleft with hnil | houtside
      · rw [hnil]
        exact .nil _ _
      · rw [houtside]
        exact .outside _ _
  · next hnot hu =>
    obtain rfl := Except.ok.inj h
    have hv : s.take.take.rest.head? ≠ some '{' := by
      rw [rest_take, hu]
      intro hhead
      obtain ⟨back, hback⟩ := List.head?_eq_some_iff.mp hhead
      exact hnot back hback
    obtain ⟨piece, hpasses, hdigits, hreleased⟩ := passes_plainCodeUnit around hv allowed
    refine ⟨_, hback.trans ((Passes.take hu).trans hpasses), ?_, ?_⟩
    · rw [hloose, List.singleton_append, Stage.loose_cons_of_takes rfl]
      exact hdigits
    · rw [hbehind, List.singleton_append, Stage.behind_cons]
      exact hreleased
  · next c tail' hbrace hc hu =>
    have hstop : Stage.begun.after c = .outside := if_neg hc
    split at h
    · obtain rfl := Except.ok.inj h
      refine ⟨_, hback.trans (.take hu), ?_, ?_⟩
      · rw [hloose, Stage.loose_cons_of_takes rfl, hstop]
        simp
      · rw [hbehind, Stage.behind_cons, hstop]
        exact .outside _ _
    · next hnot =>
      obtain rfl := Except.ok.inj h
      simp only [Bool.or_eq_true, List.contains_iff_mem, not_or] at hnot
      refine ⟨_, hback.congr rfl rfl, ?_, ?_⟩
      · rw [← List.append_nil ['\\'], hloose]
        simp
      · rw [← List.append_nil ['\\'], hbehind, rest_note, hu]
        intro d hd
        obtain rfl := Option.some.inj hd
        refine ⟨?_, fun _ => .inr hnot⟩
        have hback' : c ≠ '\\' := by
          rintro rfl
          exact hnot.1 (by decide)
        rw [Stage.behind_nil, hstop]
        exact (if_neg hback').symm

/-- An escape without a character behind its backslash is a fault. -/
theorem fault_of_escape {allowed : List Char} {s : Strand} {tail : List Char} {stop : Halt}
    (hs : s.rest = '\\' :: tail) (h : s.escape around allowed = .error stop) :
    tail = [] ∧ stop.fault =
      { rule := .unclosedString, line := around.line,
        column := around.origin + s.taken.length + 2 } := by
  unfold escape escaped at h
  split at h
  · next hu =>
    obtain rfl := Except.error.inj h
    rw [rest_take, hs] at hu
    refine ⟨hu, ?_⟩
    simp only [nextColumn, lastColumn, taken_take, hs, List.head?_cons, Option.toList_some,
      List.singleton_append, List.length_cons]
    rfl
  · cases h
  · cases h
  · split at h <;> cases h

end Strand

end ScriptLint
