import ScriptLint.Proofs.Literal.Outline

/-!
# Reading a pattern keeps its outline

The reader of patterns goes on by pieces — a class, an escape, a character, a quantifier —
of which no character in the outline is a parenthesis, a slash, a closing bracket or an anchor,
and which leave no class open.  Only groups add parentheses, and an anchor is read alone.  So what
the loop over a pattern keeps is said of the outline of what it has taken.

## Main definitions

* `Strand.PassesInert` — going on by inert characters
* `Strand.AnchorAt` — an anchor that speaks of the ends of lines
* `Strand.Begun` — a pattern begun, with a number of groups open

## Main statements

* `Strand.harmless_of_escape`, `Strand.harmless_of_charClass`, `Strand.harmless_of_quantifier`,
  `Strand.harmless_of_factor` — the pieces of a pattern
* `Strand.begun_of_pattern` — what the loop over a pattern keeps up to its slash
* `Strand.regexAhead_of_regex` — what is read of a regular expression
-/

namespace ScriptLint

/-! ### Reading pieces -/

namespace Strand

variable (around : Surroundings) {s t u : Strand} {zone : Zone}

theorem passes_of_expect {c : Char} (h : s.expect around c = .ok t) : s.Passes [c] t := by
  unfold expect at h
  split at h
  · next hc =>
    obtain rfl := Except.ok.inj h
    obtain ⟨tail, htail⟩ := List.head?_eq_some_iff.mp hc
    exact .take htail
  · exact absurd h (missing_ne_ok around s c t)

/-- An escape is harmless. -/
theorem harmless_of_escape {allowed tail : List Char} (hs : s.rest = '\\' :: tail)
    (hreleased : zone.stage.Released allowed s.rest) (h : s.escape around allowed = .ok t) :
    ∃ piece, s.Passes piece t ∧ zone.Harmless allowed piece t.rest := by
  rw [hs] at hreleased
  obtain ⟨piece, hpiece, hdigits, hleft⟩ := passes_of_escape around hs hreleased.after_eq h
  exact ⟨piece, hpiece, .of_digits hdigits hleft⟩

/-! ### Classes -/

/-- A member of a class is harmless in it. -/
theorem harmless_of_classAtom {c : Char} {tail : List Char} (hs : s.rest = c :: tail)
    (hc : c ≠ ']') (hin : zone.inClass = true)
    (hreleased : zone.stage.Released classEscapes s.rest) (h : s.classAtom around c = .ok t) :
    ∃ piece, s.Passes piece t ∧ zone.Harmless classEscapes piece t.rest := by
  unfold classAtom at h
  split at h
  · next hslash => exact harmless_of_escape around (hslash ▸ hs) hreleased h
  · next hslash =>
    obtain rfl := Except.ok.inj h
    rw [hs] at hreleased
    exact ⟨[c], .take_noted hs (by simp) (by simp), .single hreleased hslash (.inl ⟨hin, hc⟩)⟩

/-- **The members of a class** add nothing to the outline, and the class is closed behind them. -/
theorem closes_of_classMembers {range : Bool} (hin : zone.inClass = true)
    (hreleased : zone.stage.Released classEscapes s.rest)
    (h : s.classMembers around range = .ok t) :
    ∃ piece, s.Passes piece t ∧ (∀ c ∈ zone.outline piece, c ∉ structural) ∧
      zone.behind piece = {} := by
  fun_induction classMembers around range s generalizing zone with
  | case1 range s hs =>
    have hpass := (passes_of_expect around h).rest
    rw [rest_noteIf, hs] at hpass
    cases hpass
  | case2 range s tail hs =>
    obtain rfl := Except.ok.inj h
    rw [hs] at hreleased
    have htakes : zone.stage.takes ']' = false :=
      hreleased.not_takes (by decide) (.inr (by decide))
    refine ⟨[']'], .take_noted hs (by simp) (by simp), ?_, ?_⟩
    · rw [Zone.outline_cons_of_not_bares (by simp [Zone.bares, hin])]
      simp
    · show zone.after ']' = {}
      rw [Zone.after_of_not_takes htakes, hin]
      rfl
  | case3 => cases h
  | case4 range s c tail hs hc u hu hyphen ih =>
    obtain ⟨member, hmember, hharmless⟩ := harmless_of_classAtom around hs hc hin hreleased hu
    have hin' := hharmless.inClass.trans hin
    -- The hyphen of a range is a member that begins no escape.
    obtain ⟨back, hback⟩ := List.head?_eq_some_iff.mp hyphen
    have hleft := hharmless.released
    rw [hback] at hleft
    have hwith : zone.Harmless classEscapes (member ++ ['-']) u.take.rest :=
      hharmless.append (.single hleft (by decide) (.inl ⟨hin', by decide⟩))
    obtain ⟨piece, hpiece, hplain, hbehind⟩ := ih (hwith.inClass.trans hin) hwith.released h
    refine ⟨member ++ ['-'] ++ piece, (hmember.trans (.take hback)).trans hpiece, ?_, ?_⟩
    · rw [Zone.outline_append, List.forall_mem_append]
      exact ⟨hwith.plain, hplain⟩
    · rwa [Zone.behind_append]
  | case5 range s c tail hs hc u hu hyphen ih =>
    obtain ⟨member, hmember, hharmless⟩ := harmless_of_classAtom around hs hc hin hreleased hu
    obtain ⟨piece, hpiece, hplain, hbehind⟩ := ih (hharmless.inClass.trans hin) hharmless.released h
    refine ⟨member ++ piece, hmember.trans hpiece, ?_, ?_⟩
    · rw [Zone.outline_append, List.forall_mem_append]
      exact ⟨hharmless.plain, hplain⟩
    · rwa [Zone.behind_append]

/-- A class is harmless: it adds its opening bracket to the outline, and is closed. -/
theorem harmless_of_charClass {tail : List Char} (hs : s.rest = '[' :: tail)
    (hclass : zone.inClass = false) (hreleased : zone.stage.Released groupEscapes s.rest)
    (h : s.charClass around = .ok t) :
    ∃ piece, s.Passes piece t ∧ zone.Harmless groupEscapes piece t.rest := by
  rw [hs] at hreleased
  have htakes : zone.stage.takes '[' = false := hreleased.not_takes (by decide) (.inr (by decide))
  have hopen : zone.behind ['['] = { inClass := true } := by
    show zone.after '[' = _
    rw [Zone.after_of_not_takes htakes, hclass]
    rfl
  -- The bracket and a caret, if any, open the class.
  obtain ⟨opening, v, hpass, hplain, hbehind, hmembers⟩ : ∃ opening v, s.Passes opening v ∧
      (∀ c ∈ zone.outline opening, c ∉ structural) ∧
      zone.behind opening = { inClass := true } ∧ v.classMembers around false = .ok t := by
    have hbracket : ∀ c ∈ zone.outline ['['], c ∉ structural := by
      intro c hc
      obtain rfl := List.mem_singleton.mp (Zone.mem_of_mem_outline hc)
      decide
    unfold charClass at h
    extract_lets v at h
    split at h
    · next hcaret =>
      obtain ⟨back, hback⟩ := List.head?_eq_some_iff.mp hcaret
      refine ⟨['['] ++ ['^'], _, (Passes.take hs).trans (.take hback), ?_, ?_, h⟩
      · rw [Zone.outline_append, hopen]
        simpa [Zone.outline, picked, Zone.bares] using hbracket
      · rw [Zone.behind_append, hopen]
        rfl
    · exact ⟨['['], v, .take hs, hbracket, hopen, h⟩
  have hin : (zone.behind opening).inClass = true := by
    rw [hbehind]
  have houtside : (zone.behind opening).stage.Released classEscapes v.rest := by
    rw [hbehind]
    exact .outside _ _
  obtain ⟨piece, hpiece, hplain', hclosed⟩ := closes_of_classMembers around hin houtside hmembers
  rw [← Zone.behind_append] at hclosed
  refine ⟨opening ++ piece, hpass.trans hpiece, ?_, ?_, ?_⟩
  · rw [Zone.outline_append, List.forall_mem_append]
    exact ⟨hplain, hplain'⟩
  · rw [hclosed, hclass]
  · rw [hclosed]
    exact .outside _ _

/-! ### Quantifiers -/

/-- A strand goes on by inert characters. -/
def PassesInert (s t : Strand) : Prop := ∃ piece, s.Passes piece t ∧ ∀ c ∈ piece, Inert c

theorem PassesInert.refl (s : Strand) : s.PassesInert s := ⟨[], .refl s, by simp⟩

theorem PassesInert.trans (h : s.PassesInert t) (h' : t.PassesInert u) : s.PassesInert u := by
  obtain ⟨piece, hpass, hinert⟩ := h
  obtain ⟨piece', hpass', hinert'⟩ := h'
  exact ⟨piece ++ piece', hpass.trans hpass', List.forall_mem_append.mpr ⟨hinert, hinert'⟩⟩

theorem Passes.inert {c : Char} (h : s.Passes [c] t) (hc : Inert c) : s.PassesInert t :=
  ⟨[c], h, by simpa using hc⟩

theorem PassesInert.take {c : Char} {tail : List Char} (hs : s.rest = c :: tail) (hc : Inert c) :
    s.PassesInert s.take :=
  (Passes.take hs).inert hc

/-- The next two characters are taken. -/
theorem Passes.take_two {c d : Char} {tail : List Char} (hs : s.rest = c :: d :: tail) :
    s.Passes [c, d] s.take.take :=
  (Passes.take hs).trans (.take (by rw [rest_take, hs]; rfl))

theorem PassesInert.take_two {c d : Char} {tail : List Char} (hs : s.rest = c :: d :: tail)
    (hc : Inert c) (hd : Inert d) : s.PassesInert s.take.take :=
  ⟨[c, d], .take_two hs, by simpa using ⟨hc, hd⟩⟩

theorem PassesInert.digits (s : Strand) : s.PassesInert (s.takeWhile Char.isDigit) :=
  ⟨_, .takeWhile s _, fun c hc =>
    inert_of_isDigit (List.all_eq_true.mp List.all_takeWhile c hc)⟩

theorem passesInert_strayLazy (s : Strand) : s.PassesInert (s.strayLazy around) := by
  unfold strayLazy
  split
  · next hlazy =>
    obtain ⟨back, hback⟩ := List.head?_eq_some_iff.mp hlazy
    exact (Passes.take_noted hback (by simp) (by simp)).inert (by decide)
  · exact .refl s

theorem passesInert_of_counted {tail : List Char} (hs : s.rest = '{' :: tail)
    (h : s.counted around = .ok t) : s.PassesInert t := by
  unfold counted at h
  extract_lets opened read low high at h
  have hopened : s.PassesInert opened := .take hs (by decide)
  have hread : opened.PassesInert low := by
    obtain ⟨piece, hpass, hinert⟩ := PassesInert.digits opened
    exact ⟨piece, hpass.congr (by simp [low, read]) (by simp [low, read]), hinert⟩
  have hhigh : low.PassesInert high := by
    simp only [high]
    split
    · next hcomma =>
      obtain ⟨back, hback⟩ := List.head?_eq_some_iff.mp hcomma
      exact (PassesInert.take hback (by decide)).trans (.digits _)
    · exact .refl low
  cases hc : high.expect around '}' with
  | error e => simp [hc, Except.map] at h
  | ok v =>
    have hclose : high.PassesInert v := (passes_of_expect around hc).inert (by decide)
    simp only [hc, Except.map, Except.ok.injEq] at h
    subst h
    exact (hopened.trans hread).trans (hhigh.trans (hclose.trans (passesInert_strayLazy around v)))

/-- **A quantifier** is inert. -/
theorem passesInert_of_quantifier (h : s.quantifier around = .ok t) : s.PassesInert t := by
  unfold quantifier at h
  split at h
  case h_1 hs =>
    obtain rfl := Except.ok.inj h
    exact .take_two hs (by decide) (by decide)
  case h_2 hs =>
    obtain rfl := Except.ok.inj h
    exact .take_two hs (by decide) (by decide)
  case h_3 hs =>
    obtain rfl := Except.ok.inj h
    exact .take hs (by decide)
  case h_4 hs =>
    obtain rfl := Except.ok.inj h
    exact .take hs (by decide)
  case h_5 hs =>
    obtain rfl := Except.ok.inj h
    exact (PassesInert.take hs (by decide)).trans (passesInert_strayLazy around _)
  case h_6 hs => exact passesInert_of_counted around hs h
  case h_7 =>
    obtain rfl := Except.ok.inj h
    exact .refl s

/-- A quantifier is harmless outside of classes. -/
theorem harmless_of_quantifier (hclass : zone.inClass = false)
    (hreleased : zone.stage.Released groupEscapes s.rest) (h : s.quantifier around = .ok t) :
    ∃ piece, s.Passes piece t ∧ zone.Harmless groupEscapes piece t.rest := by
  obtain ⟨piece, hpass, hinert⟩ := passesInert_of_quantifier around h
  rw [hpass.rest] at hreleased
  exact ⟨piece, hpass, .of_inert hclass hreleased hinert⟩

/-! ### Factors and groups -/

/-- A factor that is no group is harmless. -/
theorem harmless_of_factor {c : Char} {tail : List Char} (hs : s.rest = c :: tail)
    (hc : c ∉ structural) (hclass : zone.inClass = false)
    (hreleased : zone.stage.Released groupEscapes s.rest) (h : s.factor around c = .ok t) :
    ∃ piece, s.Passes piece t ∧ zone.Harmless groupEscapes piece t.rest := by
  unfold factor at h
  split at h
  · next hopen => exact harmless_of_charClass around (hopen ▸ hs) hclass hreleased h
  · next hopen =>
    split at h
    · next hslash => exact harmless_of_escape around (hslash ▸ hs) hreleased h
    · next hslash =>
      obtain rfl := Except.ok.inj h
      rw [hs] at hreleased
      have hplain : c ∉ '[' :: structural := by
        rw [List.mem_cons, not_or]
        exact ⟨hopen, hc⟩
      exact ⟨[c], .take_noted hs (by simp) (by simp),
        .single hreleased hslash (.inr ⟨hclass, hplain⟩)⟩

/-- The prefixes of a group, behind its parenthesis. -/
def groupPrefixes : List (List Char) := [[], ['?', '='], ['?', '!'], ['?', ':']]

/-- **The opening of a group** goes on by its parenthesis and its prefix, which is there if a
question mark is. -/
theorem passes_of_groupOpening (h : s.groupOpening around = .ok t) :
    ∃ kind ∈ groupPrefixes, s.take.Passes kind t ∧ (kind = [] → t.rest.head? ≠ some '?') := by
  unfold groupOpening at h
  extract_lets u at h
  split at h
  · next hu =>
    obtain rfl := Except.ok.inj h
    exact ⟨['?', '='], by decide, .take_two hu, by simp⟩
  · next hu =>
    obtain rfl := Except.ok.inj h
    exact ⟨['?', '!'], by decide, .take_two hu, by simp⟩
  · next hu =>
    exact ⟨['?', ':'], by decide, (Passes.take hu).trans (passes_of_expect around h), by simp⟩
  · next hu =>
    obtain rfl := Except.ok.inj h
    refine ⟨[], by decide, (Passes.refl u).congr rfl rfl, fun _ => ?_⟩
    rw [rest_note, hu]
    simp
  · next hnot _ =>
    obtain rfl := Except.ok.inj h
    refine ⟨[], by decide, .refl u, fun _ hhead => ?_⟩
    obtain ⟨back, hback⟩ := List.head?_eq_some_iff.mp hhead
    exact hnot back hback

/-! ### Patterns -/

/-- The zone behind what a strand has taken. -/
def zoneTaken (s : Strand) : Zone := ({} : Zone).behind s.taken.reverse

/-- The outline of what a strand has taken. -/
def outlineTaken (s : Strand) : List Char := ({} : Zone).outline s.taken.reverse

/-- **Group prefix**: what follows a parenthesis and starts with `?` goes on with `:`, `=` or
`!`. -/
def GroupPrefix (text : List Char) : Prop :=
  ∀ back, text = '?' :: back → ∃ c ∈ [':', '=', '!'], back.head? = some c

/-- The groups that begin before a place of a text have their prefixes. -/
def PrefixesBefore (text : List Char) (n : Nat) : Prop :=
  ∀ front back, text = front ++ '(' :: back → front.length < n →
    (({} : Zone).behind front).bares '(' = true → GroupPrefix back

/-- **An anchor inside**: a bare `$` that no slash follows, or a bare `^` behind other text. -/
def AnchorAt (front : List Char) (c : Char) (back : List Char) : Prop :=
  (({} : Zone).behind front).bares c = true ∧
    (c = '$' ∧ back.head? ≠ some '/' ∨ c = '^' ∧ front ≠ [])

/-- Before a place of a text stands an anchor inside. -/
def AnchorBefore (text : List Char) (n : Nat) : Prop :=
  ∃ front c back, text = front ++ c :: back ∧ front.length < n ∧ AnchorAt front c back

/-- **A pattern begun**, with a number of groups open: what the loop over a pattern keeps. -/
structure Begun (depth : Nat) (anchored : Bool) (s : Strand) : Prop where
  inClass : s.zoneTaken.inClass = false
  released : s.zoneTaken.stage.Released groupEscapes s.rest
  noSlash : '/' ∉ s.outlineTaken
  noBracket : ']' ∉ s.outlineTaken
  nested : Nested depth s.outlineTaken
  prefixes : PrefixesBefore s.whole s.taken.length
  anchors : anchored = true ↔ AnchorBefore s.whole s.taken.length

theorem inert_of_mem_groupPrefixes {kind : List Char} (h : kind ∈ groupPrefixes) :
    ∀ c ∈ kind, Inert c := by
  have hall : groupPrefixes.all (·.all fun c => decide (Inert c)) = true := by decide
  intro c hc
  exact of_decide_eq_true (List.all_eq_true.mp (List.all_eq_true.mp hall kind h) c hc)

/-- A prefix that is there if a question mark is makes a group prefix. -/
theorem groupPrefix_of_mem {kind rest : List Char} (hkind : kind ∈ groupPrefixes)
    (hbare : kind = [] → rest.head? ≠ some '?') : GroupPrefix (kind ++ rest) := by
  have hcolon (c : Char) (hc : c ∈ [':', '=', '!']) : GroupPrefix ('?' :: c :: rest) := by
    intro back hback
    obtain ⟨-, rfl⟩ := List.cons.inj hback
    exact ⟨c, hc, rfl⟩
  simp only [groupPrefixes, List.mem_cons, List.not_mem_nil, or_false] at hkind
  rcases hkind with rfl | rfl | rfl | rfl
  · intro back hback
    refine absurd ?_ (hbare rfl)
    rw [List.nil_append] at hback
    rw [hback]
    rfl
  · exact hcolon '=' (by decide)
  · exact hcolon '!' (by decide)
  · exact hcolon ':' (by decide)

namespace Passes

variable {piece : List Char}

theorem zoneTaken_eq (h : s.Passes piece t) : t.zoneTaken = s.zoneTaken.behind piece := by
  rw [zoneTaken, zoneTaken, h.taken, List.reverse_append, List.reverse_reverse, Zone.behind_append]

theorem outlineTaken_eq (h : s.Passes piece t) :
    t.outlineTaken = s.outlineTaken ++ s.zoneTaken.outline piece := by
  rw [outlineTaken, outlineTaken, zoneTaken, h.taken, List.reverse_append, List.reverse_reverse,
    Zone.outline_append]

theorem whole_eq (h : s.Passes piece t) : t.whole = s.whole := by
  rw [whole, whole, h.taken, h.rest]
  simp

/-- A character before the end of a piece stands before the piece or in it. -/
theorem place (h : s.Passes piece t) {front back : List Char} {c : Char}
    (hsplit : t.whole = front ++ c :: back) (hlt : front.length < t.taken.length) :
    front.length < s.taken.length ∨
      ∃ between after, piece = between ++ c :: after ∧ front = s.taken.reverse ++ between ∧
        back = after ++ t.rest := by
  by_cases hbefore : front.length < s.taken.length
  · exact .inl hbefore
  · have htaken : s.taken.reverse <+: t.whole := by
      rw [h.whole_eq]
      exact List.prefix_append _ _
    obtain ⟨between, rfl⟩ := List.prefix_of_prefix_length_le htaken ⟨_, hsplit.symm⟩ (by
      rw [List.length_reverse]
      exact Nat.not_lt.mp hbefore)
    have hbehind : piece ++ t.rest = between ++ c :: back := by
      rw [whole, h.taken, List.reverse_append, List.reverse_reverse, List.append_assoc,
        List.append_assoc, List.append_cancel_left_eq] at hsplit
      exact hsplit
    have hpiece : between ++ [c] <+: piece ++ t.rest := ⟨back, by simp [hbehind]⟩
    obtain ⟨after, rfl⟩ := List.prefix_of_prefix_length_le hpiece (List.prefix_append _ _) (by
      simp only [h.taken, List.length_append, List.length_reverse] at hlt
      rw [List.length_append, List.length_singleton]
      omega)
    refine .inr ⟨between, after, by simp, rfl, ?_⟩
    simpa using hbehind.symm

/-- Groups have their prefixes up to a later place if those that begin between have. -/
theorem prefixes (h : s.Passes piece t) (hs : PrefixesBefore s.whole s.taken.length)
    (hpiece : ∀ between after, piece = between ++ '(' :: after →
      (s.zoneTaken.behind between).bares '(' = true → GroupPrefix (after ++ t.rest)) :
    PrefixesBefore t.whole t.taken.length := by
  intro front back hsplit hlt hbares
  rcases h.place hsplit hlt with hbefore | ⟨between, after, hin, rfl, rfl⟩
  · exact hs front back (h.whole_eq ▸ hsplit) hbefore hbares
  · rw [Zone.behind_append] at hbares
    exact hpiece between after hin hbares

/-- An anchor before a later place stands before the piece or in it. -/
theorem anchorBefore_iff (h : s.Passes piece t) :
    AnchorBefore t.whole t.taken.length ↔ AnchorBefore s.whole s.taken.length ∨
      ∃ between c after, piece = between ++ c :: after ∧
        AnchorAt (s.taken.reverse ++ between) c (after ++ t.rest) := by
  constructor
  · rintro ⟨front, c, back, hsplit, hlt, hanchor⟩
    rcases h.place hsplit hlt with hbefore | ⟨between, after, hin, rfl, rfl⟩
    · exact .inl ⟨front, c, back, h.whole_eq ▸ hsplit, hbefore, hanchor⟩
    · exact .inr ⟨between, c, after, hin, hanchor⟩
  · rintro (⟨front, c, back, hsplit, hlt, hanchor⟩ | ⟨between, c, after, rfl, hanchor⟩)
    · refine ⟨front, c, back, h.whole_eq.trans hsplit, ?_, hanchor⟩
      rw [h.taken, List.length_append]
      omega
    · refine ⟨_, c, _, ?_, ?_, hanchor⟩
      · rw [whole, h.taken]
        simp
      · simp only [h.taken, List.length_append, List.length_reverse, List.length_cons]
        omega

end Passes

/-- An anchor that is read is one inside if it is told to be. -/
theorem anchorsLine_iff {c : Char} {tail : List Char} (hrest : s.rest = c :: tail)
    (hbares : s.zoneTaken.bares c = true) :
    s.anchorsLine c = true ↔ AnchorAt s.taken.reverse c tail := by
  have hfirst : s.taken.reverse ≠ [] ↔ s.taken.isEmpty = false := by
    rw [Ne, List.reverse_eq_nil_iff, ← List.isEmpty_iff, Bool.not_eq_true]
  rw [AnchorAt,
    and_iff_right (show (({} : Zone).behind s.taken.reverse).bares c = true from hbares),
    hfirst, anchorsLine, hrest]
  simp

theorem anchorsLine_of_not_mem {c : Char} (hc : c ∉ ScriptLint.anchors) (s : Strand) :
    s.anchorsLine c = false := by
  obtain ⟨hdollar, hcaret⟩ : c ≠ '$' ∧ c ≠ '^' := by
    simpa [ScriptLint.anchors] using hc
  simp [anchorsLine, hdollar, hcaret]

namespace Begun

variable {depth : Nat} {anchored : Bool} {piece : List Char}

/-- Only what is taken and what is left matters. -/
theorem congr (hs : Begun depth anchored s) (htaken : t.taken = s.taken) (hrest : t.rest = s.rest) :
    Begun depth anchored t := by
  obtain ⟨hclass, hreleased, hslash, hbracket, hnested, hprefixes, hanchors⟩ := hs
  constructor
  · rwa [zoneTaken, htaken]
  · rwa [zoneTaken, htaken, hrest]
  · rwa [outlineTaken, htaken]
  · rwa [outlineTaken, htaken]
  · rwa [outlineTaken, htaken]
  · rwa [whole, htaken, hrest]
  · rwa [whole, htaken, hrest]

/-- At the beginning of a text no pattern is open. -/
theorem start (tail : List Char) : Begun 0 false { rest := tail } := by
  refine ⟨rfl, .outside _ _, by simp [outlineTaken], by simp [outlineTaken], .nil, ?_, ?_⟩
  · intro front back _ hlt
    cases hlt
  · simp [AnchorBefore]

/-- A harmless piece keeps the groups that are open, and has no anchors. -/
theorem harmless (hs : Begun depth anchored s) (h : s.Passes piece t)
    (hpiece : s.zoneTaken.Harmless groupEscapes piece t.rest) : Begun depth anchored t := by
  have hnot {c : Char} (hc : c ∈ structural) : c ∉ s.zoneTaken.outline piece :=
    fun hmem => hpiece.plain c hmem hc
  have hbare {c : Char} (hc : c ∈ structural) {between after : List Char}
      (hin : piece = between ++ c :: after) : (s.zoneTaken.behind between).bares c ≠ true :=
    fun hbares => hnot hc (Zone.mem_outline_iff.mpr ⟨between, after, hin, hbares⟩)
  constructor
  · rw [h.zoneTaken_eq]
    exact hpiece.inClass.trans hs.inClass
  · rw [h.zoneTaken_eq]
    exact hpiece.released
  · rw [h.outlineTaken_eq, List.mem_append, not_or]
    exact ⟨hs.noSlash, hnot (by decide)⟩
  · rw [h.outlineTaken_eq, List.mem_append, not_or]
    exact ⟨hs.noBracket, hnot (by decide)⟩
  · rw [h.outlineTaken_eq]
    exact hs.nested.append_plain (hnot (by decide)) (hnot (by decide))
  · exact h.prefixes hs.prefixes fun between after hin hbares =>
      absurd hbares (hbare (by decide) hin)
  · rw [hs.anchors, h.anchorBefore_iff, or_iff_left]
    rintro ⟨between, c, after, hin, hbares, hc⟩
    rw [Zone.behind_append] at hbares
    refine hbare ?_ hin hbares
    rcases hc with ⟨rfl, -⟩ | ⟨rfl, -⟩
    · decide
    · decide

/-- A parenthesis, a slash or an anchor that comes next is bare. -/
theorem bares (hs : Begun depth anchored s) {c : Char} {tail : List Char}
    (hrest : s.rest = c :: tail) (hc : c ≠ '\\' ∧ c ≠ '[')
    (hspecial : c ∈ commonEscapes ∨ c ∈ groupEscapes) :
    s.zoneTaken.bares c = true ∧ s.zoneTaken.after c = {} := by
  have hreleased := hs.released
  rw [hrest] at hreleased
  have htakes : s.zoneTaken.stage.takes c = false := hreleased.not_takes hc.1 hspecial
  have hbares : s.zoneTaken.bares c = true := by simp [Zone.bares, hs.inClass, htakes]
  refine ⟨hbares, ?_⟩
  rw [Zone.after_of_bares hbares, beq_false_of_ne hc.2]

/-- A bare parenthesis or anchor is taken. -/
theorem bare (hs : Begun depth anchored s) {c : Char} {tail : List Char}
    (hrest : s.rest = c :: tail) (h : s.Passes [c] t) (hc : c ∈ ['(', ')'] ++ ScriptLint.anchors)
    {depth' : Nat} (hnested : Nested depth' (s.outlineTaken ++ [c]))
    (hgroup : c = '(' → GroupPrefix tail) : Begun depth' (anchored || s.anchorsLine c) t := by
  have hplain : (['(', ')'] ++ ScriptLint.anchors).all (fun c =>
      decide (c ∉ ['\\', '[', '/', ']'] ∧ c ∈ groupEscapes)) = true := by decide
  obtain ⟨hother, hspecial⟩ := of_decide_eq_true (List.all_eq_true.mp hplain c hc)
  simp only [List.mem_cons, List.not_mem_nil, or_false, not_or] at hother
  obtain ⟨hescape, hopen, hslash, hbracket⟩ := hother
  obtain ⟨hbares, hafter⟩ := hs.bares hrest ⟨hescape, hopen⟩ (.inr hspecial)
  have htail : t.rest = tail := (List.cons.inj (h.rest.symm.trans hrest)).2
  have hzone : t.zoneTaken = {} := by
    rw [h.zoneTaken_eq]
    exact hafter
  have houtline : t.outlineTaken = s.outlineTaken ++ [c] := by
    rw [h.outlineTaken_eq, Zone.outline_cons_of_bares hbares, Zone.outline_nil]
  constructor
  · rw [hzone]
  · rw [hzone]
    exact .outside _ _
  · rw [houtline, List.mem_append, not_or, List.mem_singleton]
    exact ⟨hs.noSlash, Ne.symm hslash⟩
  · rw [houtline, List.mem_append, not_or, List.mem_singleton]
    exact ⟨hs.noBracket, Ne.symm hbracket⟩
  · rwa [houtline]
  · refine h.prefixes hs.prefixes fun between after hin _ => ?_
    obtain ⟨rfl, hcons⟩ | ⟨-, ⟨⟩⟩ := List.singleton_eq_append_iff.mp hin
    obtain ⟨rfl, rfl⟩ := List.cons.inj hcons
    exact htail ▸ hgroup rfl
  · rw [Bool.or_eq_true, hs.anchors, h.anchorBefore_iff, anchorsLine_iff hrest hbares]
    refine or_congr_right ⟨fun hanchor => ⟨[], c, [], rfl, ?_⟩, ?_⟩
    · rw [List.append_nil, htail]
      exact hanchor
    · rintro ⟨between, d, after, hin, hanchor⟩
      obtain ⟨rfl, hcons⟩ | ⟨-, ⟨⟩⟩ := List.singleton_eq_append_iff.mp hin
      obtain ⟨rfl, rfl⟩ := List.cons.inj hcons
      rw [List.append_nil, htail] at hanchor
      exact hanchor

/-- A parenthesis is taken. -/
theorem parenthesis (hs : Begun depth anchored s) {c : Char} {tail : List Char}
    (hrest : s.rest = c :: tail) (hc : c = '(' ∨ c = ')') {depth' : Nat}
    (hnested : Nested depth' (s.outlineTaken ++ [c])) (hgroup : c = '(' → GroupPrefix tail) :
    Begun depth' anchored s.take := by
  have hplain : c ∉ ScriptLint.anchors := by rcases hc with rfl | rfl <;> decide
  have hmem : c ∈ ['(', ')'] ++ ScriptLint.anchors := by rcases hc with rfl | rfl <;> decide
  have htaken := hs.bare hrest (.take hrest) hmem hnested hgroup
  rwa [anchorsLine_of_not_mem hplain, Bool.or_false] at htaken

/-- A factor that is no group is read: an anchor alone, and anything else without anchors. -/
theorem factor (hs : Begun depth anchored s) {c : Char} {tail : List Char}
    (hrest : s.rest = c :: tail) (hc : c ∉ delimiters) (h : s.factor around c = .ok t) :
    Begun depth (anchored || s.anchorsLine c) t := by
  by_cases hanchor : c ∈ ScriptLint.anchors
  · have hplain : ScriptLint.anchors.all (fun c => decide (c ∉ ['[', '\\', '(', ')'])) = true := by
      decide
    have hother := of_decide_eq_true (List.all_eq_true.mp hplain c hanchor)
    simp only [List.mem_cons, List.not_mem_nil, or_false, not_or] at hother
    obtain ⟨hopen, hescape, hleft, hright⟩ := hother
    have hpass : s.Passes [c] t := by
      rw [Strand.factor, if_neg hopen, if_neg hescape] at h
      obtain rfl := Except.ok.inj h
      exact .take_noted hrest (by simp) (by simp)
    have hnested : Nested depth (s.outlineTaken ++ [c]) :=
      hs.nested.append_plain (by simpa using Ne.symm hleft) (by simpa using Ne.symm hright)
    exact hs.bare hrest hpass (List.mem_append_right _ hanchor) hnested fun heq => absurd heq hleft
  · rw [anchorsLine_of_not_mem hanchor, Bool.or_false]
    obtain ⟨piece, hpiece, hharmless⟩ := harmless_of_factor around hrest
      (fun hmem => (List.mem_append.mp hmem).elim hc hanchor) hs.inClass hs.released h
    exact hs.harmless hpiece hharmless

end Begun

/-- **The loop over a pattern** ends at a slash, with no group open. -/
theorem begun_of_pattern {depth : Nat} {anchored found : Bool} (hs : Begun depth anchored s)
    (h : s.pattern around depth anchored = .ok (t, found)) :
    Begun 0 found t ∧ t.rest.head? = some '/' := by
  fun_induction pattern around depth anchored s with
  | case1 depth anchored s hrest => exact absurd h (missing_ne_ok around s _ _)
  | case2 depth anchored s c tail hrest hslash =>
    obtain ⟨rfl, rfl⟩ := hslash
    obtain ⟨rfl, rfl⟩ := Prod.mk.inj (Except.ok.inj h)
    rw [hrest]
    exact ⟨hs, rfl⟩
  | case3 => cases h
  | case4 depth anchored s c tail hrest hslash hclose u hu ih =>
    obtain ⟨rfl, hdepth⟩ := hclose
    obtain ⟨depth, rfl⟩ := Nat.exists_eq_succ_of_ne_zero hdepth
    have hclosed : Begun depth anchored s.take :=
      hs.parenthesis hrest (.inr rfl) hs.nested.closed fun hne => absurd hne (by decide)
    obtain ⟨piece, hpiece, hharmless⟩ :=
      harmless_of_quantifier around hclosed.inClass hclosed.released hu
    exact ih (hclosed.harmless hpiece hharmless) h
  | case5 depth anchored s => exact absurd h (missing_ne_ok around s _ _)
  | case6 => cases h
  | case7 depth anchored s tail u hu hrest hslash hclose hend ih =>
    obtain ⟨kind, hkind, hpass, hbare⟩ := passes_of_groupOpening around hu
    have htail : tail = kind ++ u.rest := by
      rw [← hpass.rest, rest_take, hrest]
      rfl
    have hopened : Begun (depth + 1) anchored s.take :=
      hs.parenthesis hrest (.inl rfl) hs.nested.opened fun _ =>
        htail ▸ groupPrefix_of_mem hkind hbare
    have hgroup : Begun (depth + 1) anchored u := by
      refine hopened.harmless hpass (.of_inert hopened.inClass ?_ ?_)
      · rw [← hpass.rest]
        exact hopened.released
      · exact inert_of_mem_groupPrefixes hkind
    exact ih (hgroup.congr (taken_noteIf ..) (rest_noteIf ..)) h
  | case8 => cases h
  | case9 => cases h
  | case10 depth anchored s c tail hrest hslash hclose hend hopen u hu v hv ih =>
    have hplain : c ∉ delimiters := by
      simp only [delimiters, List.mem_cons, List.not_mem_nil, or_false, not_or]
      simp only [not_or] at hend
      exact ⟨hopen, hend.2.1, hend.1, hend.2.2⟩
    have hfactor := hs.factor around hrest hplain hu
    obtain ⟨piece, hpiece, hharmless⟩ :=
      harmless_of_quantifier around hfactor.inClass hfactor.released hv
    exact ih (hfactor.harmless hpiece hharmless) h

/-! ### Regular expressions -/

/-- What the loop over a pattern has taken at the closing slash. -/
theorem Begun.patterned {t : Strand} {found : Bool} (h : Begun 0 found t)
    (hslash : t.rest.head? = some '/') : Patterned t.taken.reverse := by
  obtain ⟨tail, htail⟩ := List.head?_eq_some_iff.mp hslash
  have hbares := (h.bares htail (by decide) (.inl (by decide))).1
  refine ⟨hbares, h.noSlash, h.nested, ?_, h.noBracket, ?_⟩
  · intro front back hsplit hbares
    refine Zone.exists_close_of_bares hbares ?_
    rw [← hsplit]
    exact h.inClass
  · intro front back hsplit hbares
    have hwhole : t.whole = front ++ '(' :: '?' :: (back ++ '/' :: tail) := by
      rw [whole, hsplit, htail]
      simp
    have hbefore : front.length < t.taken.length := by
      have hlength := congrArg List.length hsplit
      rw [List.length_reverse, List.length_append] at hlength
      rw [hlength]
      exact Nat.lt_add_of_pos_right (Nat.succ_pos _)
    obtain ⟨c, hc, hhead⟩ := h.prefixes front _ hwhole hbefore hbares _ rfl
    refine ⟨c, hc, ?_⟩
    -- Behind the last question mark of the pattern stands no slash.
    cases back with
    | nil =>
      obtain rfl : '/' = c := Option.some.inj hhead
      exact absurd hc (by decide)
    | cons d back => exact hhead

/-- What is told of the anchors of a pattern at the closing slash. -/
theorem Begun.anchorsInside_iff {t : Strand} {found : Bool} (h : Begun 0 found t)
    (hslash : t.rest.head? = some '/') : found = true ↔ AnchorsInside t.taken.reverse := by
  obtain ⟨tail, htail⟩ := List.head?_eq_some_iff.mp hslash
  have hwhole : t.whole = t.taken.reverse ++ '/' :: tail := by
    rw [whole, htail]
  rw [h.anchors]
  constructor
  · rintro ⟨front, c, back, hsplit, hlt, hbares, hc⟩
    have hfront : front ++ [c] <+: t.taken.reverse := by
      refine List.prefix_of_prefix_length_le (⟨back, by simp [hsplit]⟩ : front ++ [c] <+: t.whole)
        ⟨_, hwhole.symm⟩ ?_
      rw [List.length_append, List.length_reverse]
      exact hlt
    obtain ⟨more, hmore⟩ := hfront
    rw [List.append_assoc, List.singleton_append] at hmore
    have hback : back = more ++ '/' :: tail := by
      rw [hwhole, ← hmore, List.append_assoc, List.append_cancel_left_eq] at hsplit
      exact (List.cons.inj hsplit).2.symm
    refine ⟨front, c, more, hmore.symm, hbares, hc.imp_left (And.imp_right fun hnext hnil => ?_)⟩
    rw [hback, hnil] at hnext
    exact hnext rfl
  · rintro ⟨front, c, back, hsplit, hbares, hc⟩
    refine ⟨front, c, back ++ '/' :: tail, ?_, ?_, hbares, hc.imp_left ?_⟩
    · rw [hwhole, hsplit]
      simp
    · have hlength := congrArg List.length hsplit
      rw [List.length_reverse, List.length_append, List.length_cons] at hlength
      omega
    · rintro ⟨rfl, hne⟩
      obtain ⟨d, back, rfl⟩ := List.exists_cons_of_ne_nil hne
      refine ⟨rfl, fun hnext => ?_⟩
      obtain rfl : d = '/' := Option.some.inj hnext
      -- A slash behind a bare anchor would be bare.
      have hclosed : (({} : Zone).behind (front ++ ['$'])).bares '/' = true := by
        rw [Zone.behind_append, Zone.behind_cons, Zone.behind_nil, Zone.after_of_bares hbares]
        rfl
      exact h.noSlash (Zone.mem_outline_iff.mpr ⟨front ++ ['$'], back, by simp [hsplit], hclosed⟩)

/-- **The flags** of a pattern are the run of letters behind it. -/
theorem passes_flags (body : String) (seen : List Char) (s : Strand) :
    ∃ letters, s.Passes letters (s.flags around body seen).1 ∧ (∀ c ∈ letters, c.isAlpha = true) ∧
      (∀ c ∈ (s.flags around body seen).1.rest.head?, c.isAlpha = false) ∧
      (s.flags around body seen).2 = letters.reverse ++ seen := by
  fun_induction flags around body seen s with
  | case1 seen s hs => exact ⟨[], .refl s, by simp, by simp [hs], rfl⟩
  | case2 seen s c tail hs hletter bad ih =>
    obtain ⟨letters, hpass, hletters, hnext, hseen⟩ := ih
    exact ⟨c :: letters, (Passes.take_noted hs (by simp) (by simp)).trans hpass,
      List.forall_mem_cons.mpr ⟨hletter, hletters⟩, hnext, hseen.trans (by simp)⟩
  | case3 seen s c tail hs hletter =>
    exact ⟨[], .refl s, by simp, by simpa [hs] using hletter, rfl⟩

/-- **What is read of a regular expression** are the pattern behind the slash, the slash that closes
it, and the flags.  It is told whether the pattern has anchors inside and the flags no `m`. -/
theorem regexAhead_of_regex {tail : List Char} {t : Strand} {missesFlag : Bool}
    (h : ({ rest := tail } : Strand).regex around = .ok (t, missesFlag)) :
    ∃ body flags back, RegexAhead ('/' :: tail) body flags back ∧
      t.taken.reverse = body ++ '/' :: flags ∧
      (missesFlag = true ↔ AnchorsInside body ∧ 'm' ∉ flags) := by
  unfold regex at h
  extract_lets opened at h
  have hopened : Begun 0 false (opened.noteEmptyGroup around) :=
    (Begun.start tail).congr (by simp [noteEmptyGroup, opened]) (by simp [opened])
  split at h
  · cases h
  · next u anchored hu =>
    obtain ⟨hbegun, hslash⟩ := begun_of_pattern around hopened hu
    obtain ⟨after, hafter⟩ := List.head?_eq_some_iff.mp hslash
    obtain ⟨letters, hpass, hletters, hnext, hseen⟩ := passes_flags around u.text [] u.take
    generalize u.take.flags around u.text [] = read at hpass hnext hseen h
    have hread : u.Passes ('/' :: letters) read.1 := (Passes.take hafter).trans hpass
    -- No reader changes the text as a whole.
    have htail : tail = u.taken.reverse ++ '/' :: (letters ++ read.1.rest) := by
      have hwhole : u.whole = tail := by
        rw [whole_of_pattern around hu, whole_noteEmptyGroup, whole_noteIf]
        rfl
      rw [← hwhole, whole, hread.rest]
      simp
    dsimp only at h
    split at h
    · cases h
    · cases h
    · next hnotSlash hnotStar =>
      obtain ⟨rfl, rfl⟩ := Prod.mk.inj (Except.ok.inj h)
      refine ⟨u.taken.reverse, letters, read.1.rest,
        ⟨congrArg _ htail, hbegun.patterned hslash, hletters, ?_⟩, ?_, ?_⟩
      · intro c hc
        refine ⟨hnext c hc, ?_, ?_⟩
        · rintro rfl
          exact hnotSlash hc
        · rintro rfl
          exact hnotStar hc
      · rw [hread.taken]
        simp
      · rw [hseen, ← hbegun.anchorsInside_iff hslash]
        simp

end Strand

end ScriptLint
