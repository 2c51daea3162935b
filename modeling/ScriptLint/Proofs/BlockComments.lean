import Mathlib.Data.List.Infix
import ScriptLint.Proofs.Findings
import ScriptLint.Proofs.Scan.Additions
import ScriptLint.Proofs.Scan.Placement

/-!
# Block comments

A block comment goes from its `/*` to the first `*/` behind it, over any number of lines. Each
line that it goes over holds a part of it, and the parts with blanks between them are its value.
A `/*` inside a part is a finding, at the first place on its line; so is a slash right before the
closing `*/`, which makes one with the star.

## Main definitions

* `firstAt` — the first place of a mark in a text
* `Source.textFrom`, `Source.readFrom` — the text of a line behind a place, and as read
* `Source.nestedOn?` — the finding of a line that a comment goes over
* `ReadsBlockComment` — what a step does at a block comment

## Main statements

* `State.closes_of_closeComment` — where the search for the end of a comment stops
* `blockComment_read` — block comments are read to their first `*/`
-/

namespace ScriptLint

/-! ### Marks -/

/-- **The first place of a mark** in a text. -/
def firstAt (mark text : List Char) : Option Nat := text.tails.findIdx? mark.isPrefixOf

section

variable {a b c : Char} {mark text : List Char} {i : Nat}

theorem firstAt_cons (mark : List Char) (c : Char) (text : List Char) :
    firstAt mark (c :: text) =
      if mark.isPrefixOf (c :: text) then some 0 else (firstAt mark text).map (· + 1) := by
  rw [firstAt, List.tails_cons, List.findIdx?_cons, firstAt]

/-- There is no first place exactly if the text does not hold the mark. -/
theorem firstAt_eq_none : firstAt mark text = none ↔ ¬ mark <:+: text := by
  rw [firstAt, List.findIdx?_eq_none_iff, List.infix_iff_prefix_suffix]
  simp only [List.mem_tails, Bool.eq_false_iff, ne_eq, List.isPrefixOf_iff_prefix]
  constructor
  · rintro h ⟨tail, hstarts, hsuffix⟩
    exact h tail hsuffix hstarts
  · intro h tail hsuffix hstarts
    exact h ⟨tail, hstarts, hsuffix⟩

/-- Before its first place a text does not hold a mark. -/
theorem not_infix_take_firstAt (hmark : mark ≠ []) (h : firstAt mark text = some i) :
    ¬ mark <:+: text.take i := by
  induction text generalizing i with
  | nil =>
    rw [List.take_nil, List.infix_nil]
    exact hmark
  | cons c text ih =>
    rw [firstAt_cons] at h
    split at h
    · obtain rfl := Option.some.inj h
      rw [List.take_zero, List.infix_nil]
      exact hmark
    · next hstarts =>
      obtain ⟨k, hk, rfl⟩ := Option.map_eq_some_iff.mp h
      rw [List.take_succ_cons, List.infix_cons_iff]
      rintro (hhere | hlater)
      · refine hstarts (List.isPrefixOf_iff_prefix.mpr (hhere.trans ?_))
        exact (List.prefix_cons_inj c).mpr (List.take_prefix k text)
      · exact ih hk hlater

/-- A search for two characters finds their first place. -/
theorem findPair_eq (a b : Char) (text : List Char) : findPair a b text = firstAt [a, b] text := by
  have hgo (i : Nat) : findPair.go a b i text = (firstAt [a, b] text).map (i + ·) := by
    induction text generalizing i with
    | nil => rfl
    | cons c text ih =>
      rw [firstAt_cons]
      cases text with
      | nil => simp [findPair.go, firstAt]
      | cons d rest =>
        have hpair : [a, b].isPrefixOf (c :: d :: rest) = true ↔ c = a ∧ d = b := by
          rw [List.isPrefixOf_iff_prefix, List.cons_prefix_cons, List.cons_prefix_cons,
            and_iff_left List.nil_prefix]
          exact and_congr eq_comm eq_comm
        rw [findPair.go]
        by_cases hhere : c = a ∧ d = b
        · rw [if_pos hhere, if_pos (hpair.mpr hhere)]
          rfl
        · rw [if_neg hhere, if_neg fun h => hhere (hpair.mp h), ih, Option.map_map]
          congr 1
          funext k
          simp only [Function.comp_apply]
          omega
  rw [findPair, hgo]
  simp

/-- Two characters stand next to each other on one side of a third. -/
theorem pair_infix_append_cons {front back : List Char} (ha : c ≠ a) (hb : c ≠ b)
    (h : [a, b] <:+: front ++ c :: back) : [a, b] <:+: front ∨ [a, b] <:+: back := by
  induction front with
  | nil =>
    rcases List.infix_cons_iff.mp h with hhere | hlater
    · exact absurd (List.cons_prefix_cons.mp hhere).1.symm ha
    · exact .inr hlater
  | cons d front ih =>
    rcases List.infix_cons_iff.mp h with hhere | hlater
    · obtain ⟨rfl, hnext⟩ := List.cons_prefix_cons.mp hhere
      cases front with
      | nil => exact absurd (List.cons_prefix_cons.mp hnext).1.symm hb
      | cons e front =>
        obtain ⟨rfl, -⟩ := List.cons_prefix_cons.mp hnext
        exact .inl ⟨[], front, rfl⟩
    · rcases ih hlater with hfront | hback
      · exact .inl (hfront.trans (List.suffix_cons d front).isInfix)
      · exact .inr hback

/-- Texts joined by a third character do not hold two characters if none of them does. -/
theorem not_infix_intercalate {parts : List (List Char)} (ha : c ≠ a) (hb : c ≠ b)
    (h : ∀ part ∈ parts, ¬ [a, b] <:+: part) : ¬ [a, b] <:+: [c].intercalate parts := by
  induction parts with
  | nil => simp
  | cons part parts ih =>
    obtain ⟨hpart, hparts⟩ := List.forall_mem_cons.mp h
    cases parts with
    | nil => simpa using hpart
    | cons next parts =>
      rw [List.intercalate_cons_cons, List.append_assoc, List.singleton_append]
      intro hholds
      rcases pair_infix_append_cons ha hb hholds with hfront | hback
      · exact hpart hfront
      · exact ih hparts hback

/-- Spaces for tabs do not move a mark that has neither. -/
theorem firstAt_untabbed (hmark : ∀ c ∈ mark, c ≠ '\t' ∧ c ≠ ' ') (text : List Char) :
    firstAt mark (State.untabbed text) = firstAt mark text := by
  have hstarts (text : List Char) :
      mark.isPrefixOf (State.untabbed text) = mark.isPrefixOf text := by
    induction mark generalizing text with
    | nil => rfl
    | cons m mark ih =>
      obtain ⟨⟨htab, hspace⟩, hrest⟩ := List.forall_mem_cons.mp hmark
      cases text with
      | nil => rfl
      | cons c text =>
        have hhead : (m == if c = '\t' then ' ' else c) = (m == c) := by
          split
          · next heq => rw [heq, beq_false_of_ne hspace, beq_false_of_ne htab]
          · rfl
        exact congrArg₂ (· && ·) hhead (ih hrest text)
  induction text with
  | nil => rfl
  | cons c text ih =>
    have hcons : State.untabbed (c :: text) =
        (if c = '\t' then ' ' else c) :: State.untabbed text := rfl
    rw [hcons, firstAt_cons, firstAt_cons, ih, ← hcons, hstarts]

end

/-! ### Lines that a comment goes over -/

namespace Source

variable (source : Source)

/-- The columns of a line that stand before a place. -/
def columnFrom (p : Position) (n : Nat) : Nat := if n = p.line then p.column else 0

/-- **The text of a line behind a place**: all of a line below it. -/
def textFrom (p : Position) (n : Nat) : List Char :=
  (source.textAt n).toList.drop (columnFrom p n)

/-- The text of a line behind a place, as the scan reads it after some tokens. -/
def readFrom (tokens : List Token) (p : Position) (n : Nat) : List Char :=
  (source.readAt tokens n).drop (columnFrom p n)

/-- A line is read verbatim, or with spaces for its tabs. -/
theorem readFrom_eq (tokens : List Token) (p : Position) (n : Nat) :
    source.readFrom tokens p n = source.textFrom p n ∨
      source.readFrom tokens p n = State.untabbed (source.textFrom p n) := by
  unfold readFrom readAt
  split
  · exact .inl rfl
  · exact .inr (by rw [State.untabbed, State.untabbed, textFrom, List.map_drop])

/-- The finding of a line that a comment goes over to its end: the first `/*` of its part. -/
def nestedOn? (p : Position) (n : Nat) : Option Finding :=
  (firstAt "/*".toList (source.textFrom p n)).map fun j =>
    { rule := .nestedComment, line := n, column := columnFrom p n + j + 1 }

/-- The finding of a line on which a comment closes behind `i` characters: the first `/*` of its
part, or else the slash that the part ends in. -/
def nestedOnLast? (p : Position) (n i : Nat) : Option Finding :=
  let part := (source.textFrom p n).take i
  let slash := if part.getLast? = some '/' then some (part.length - 1) else none
  ((firstAt "/*".toList part).or slash).map fun j =>
    { rule := .nestedComment, line := n, column := columnFrom p n + j + 1 }

/-- The findings of the lines above line `n` that a comment goes over, in order. -/
def nestedAbove (p : Position) (n : Nat) : List Finding :=
  (List.range' p.line (n - p.line)).filterMap (source.nestedOn? p)

/-- The parts of a comment on the lines above line `n`, as read. -/
def partsAbove (tokens : List Token) (p : Position) (n : Nat) : List (List Char) :=
  (List.range' p.line (n - p.line)).map (source.readFrom tokens p)

theorem nestedAbove_succ {p : Position} {n : Nat} (h : p.line ≤ n) :
    source.nestedAbove p (n + 1) = source.nestedAbove p n ++ (source.nestedOn? p n).toList := by
  rw [nestedAbove, Nat.sub_add_comm h, List.range'_1_concat, Nat.add_sub_cancel' h,
    List.filterMap_append, nestedAbove]
  cases hn : source.nestedOn? p n <;> simp [hn]

theorem partsAbove_succ (tokens : List Token) {p : Position} {n : Nat} (h : p.line ≤ n) :
    source.partsAbove tokens p (n + 1) =
      source.partsAbove tokens p n ++ [source.readFrom tokens p n] := by
  rw [partsAbove, Nat.sub_add_comm h, List.range'_1_concat, Nat.add_sub_cancel' h,
    List.map_append, partsAbove]
  rfl

end Source

/-! ### The search for the end -/

namespace State

/-- **On the way**: a search for the end of a comment that began behind the place `p`, in the state
`s`, stands on a line of the comment, and the lines above do not close it. -/
structure Seeks (source : Source) (s : State) (p : Position) (u : State) (parts : List String) :
    Prop where
  placed : Placed source u.track
  tokens : u.tokens = s.tokens
  line_le : p.line ≤ u.line
  column : u.column = Source.columnFrom p u.line
  unclosed : ∀ n, p.line ≤ n → n < u.line → ¬ "*/".toList <:+: source.textFrom p n
  parts : parts.reverse = (source.partsAbove s.tokens p u.line).map String.ofList
  found : u.found .nestedComment =
    (source.nestedAbove p u.line).reverse ++ s.found .nestedComment
  ledger : u.ledger = s.ledger
  grows : s.Grows u

namespace Seeks

variable {source : Source} {s u t : State} {p : Position} {parts : List String}

/-- What is left of the line is its text behind the place, as read. -/
theorem rest (h : Seeks source s p u parts) : u.rest = source.readFrom s.tokens p u.line := by
  have hrest : u.rest = (source.readAt u.tokens u.line).drop u.column := h.placed.rest
  rw [hrest, h.tokens, h.column, Source.readFrom]

/-- Neither a mark nor a slash at the end is moved by reading. -/
theorem part_eq (h : Seeks source s p u parts) :
    (∀ mark : List Char, (∀ c ∈ mark, c ≠ '\t' ∧ c ≠ ' ') →
      firstAt mark u.rest = firstAt mark (source.textFrom p u.line) ∧
        ∀ i, firstAt mark (u.rest.take i) = firstAt mark ((source.textFrom p u.line).take i)) ∧
    ∀ i, (u.rest.take i).length = ((source.textFrom p u.line).take i).length ∧
      ((u.rest.take i).getLast? = some '/' ↔
        ((source.textFrom p u.line).take i).getLast? = some '/') := by
  rw [h.rest]
  rcases source.readFrom_eq s.tokens p u.line with heq | heq
  · rw [heq]
    exact ⟨fun _ _ => ⟨rfl, fun _ => rfl⟩, fun _ => ⟨rfl, Iff.rfl⟩⟩
  · have htake (i : Nat) : (State.untabbed (source.textFrom p u.line)).take i =
        State.untabbed ((source.textFrom p u.line).take i) := by
      rw [State.untabbed, State.untabbed, List.map_take]
    rw [heq]
    refine ⟨fun mark hmark => ⟨firstAt_untabbed hmark _, fun i => ?_⟩, fun i => ?_⟩
    · rw [htake, firstAt_untabbed hmark]
    · rw [htake, State.untabbed, List.length_map, List.getLast?_map]
      refine ⟨rfl, ?_⟩
      cases ((source.textFrom p u.line).take i).getLast? with
      | none => rfl
      | some c =>
        simp only [Option.map_some, Option.some.injEq]
        split
        · next htab => rw [htab]; decide
        · rfl

theorem findPair_closing (h : Seeks source s p u parts) :
    findPair '*' '/' u.rest = firstAt "*/".toList (source.textFrom p u.line) :=
  (findPair_eq _ _ _).trans (h.part_eq.1 "*/".toList (by simp)).1

/-- What is found on a line that the search leaves. -/
theorem found_noteNested (h : Seeks source s p u parts) :
    (u.noteNested u.rest).found .nestedComment =
      (source.nestedOn? p u.line).toList ++
        ((source.nestedAbove p u.line).reverse ++ s.found .nestedComment) := by
  have hopener : findPair '/' '*' u.rest = firstAt "/*".toList (source.textFrom p u.line) :=
    (findPair_eq _ _ _).trans (h.part_eq.1 "/*".toList (by simp)).1
  rw [← h.found, noteNested, hopener, Source.nestedOn?]
  cases firstAt "/*".toList (source.textFrom p u.line) with
  | none => rfl
  | some j =>
    dsimp only
    rw [found_note, h.column]
    rfl

/-- What is found on the line where the search ends. -/
theorem found_noteNestedLast (h : Seeks source s p u parts) (i : Nat) :
    (u.noteNestedLast (u.rest.take i)).found .nestedComment =
      (source.nestedOnLast? p u.line i).toList ++
        ((source.nestedAbove p u.line).reverse ++ s.found .nestedComment) := by
  have hopener : findPair '/' '*' (u.rest.take i) =
      firstAt "/*".toList ((source.textFrom p u.line).take i) :=
    (findPair_eq _ _ _).trans ((h.part_eq.1 "/*".toList (by simp)).2 i)
  obtain ⟨hlength, hslash⟩ := h.part_eq.2 i
  rw [← h.found, noteNestedLast, hopener, Source.nestedOnLast?]
  cases firstAt "/*".toList ((source.textFrom p u.line).take i) with
  | some j =>
    dsimp only
    rw [found_note, h.column]
    rfl
  | none =>
    dsimp only
    rw [hlength]
    unfold noteIf
    by_cases hend : ((source.textFrom p u.line).take i).getLast? = some '/'
    · have hpos : 0 < ((source.textFrom p u.line).take i).length := by
        rw [List.length_pos_iff]
        rintro hnil
        rw [hnil] at hend
        cases hend
      rw [if_pos (by rw [hslash.mpr hend]; rfl), if_pos hend, found_note, h.column]
      have hcolumn : Source.columnFrom p u.line + (((source.textFrom p u.line).take i).length - 1)
          + 1 = Source.columnFrom p u.line + ((source.textFrom p u.line).take i).length := by
        omega
      simp only [Option.none_or, Option.map_some, Option.toList_some, List.singleton_append,
        hcolumn]
    · rw [if_neg (by simpa using fun h => hend (hslash.mp h)), if_neg hend]
      rfl

/-- The search goes on in the next line. -/
theorem next (h : Seeks source s p u parts) (hnone : findPair '*' '/' u.rest = none)
    (ht : (u.noteNested u.rest).nextLine? = some t) :
    Seeks source s p t (String.ofList u.rest :: parts) := by
  obtain ⟨line, below, hbelow, htrack⟩ := track_of_nextLine? ht
  rw [track_noteNested] at htrack
  have hline : t.line = u.line + 1 := congrArg Track.line htrack
  have htokens : t.tokens = u.tokens := congrArg Track.tokens htrack
  have hbelow' : u.track.below = line :: below := by
    rw [← hbelow]
    exact (congrArg Track.below (u.track_noteNested u.rest)).symm
  constructor
  · rw [htrack]
    exact h.placed.enter hbelow'
  · rw [htokens, h.tokens]
  · have := h.line_le
    omega
  · have hbelow : p.line < t.line := by
      have := h.line_le
      omega
    rw [Source.columnFrom, if_neg hbelow.ne']
    exact congrArg Track.column htrack
  · intro n hfrom hto
    by_cases hn : n < u.line
    · exact h.unclosed n hfrom hn
    · obtain rfl : n = u.line := by omega
      rw [← firstAt_eq_none, ← h.findPair_closing]
      exact hnone
  · rw [List.reverse_cons, h.parts, hline, source.partsAbove_succ _ h.line_le, List.map_append,
      h.rest]
    rfl
  · rw [found_of_nextLine? _ (by decide) ht, h.found_noteNested, hline,
      source.nestedAbove_succ h.line_le, List.reverse_append, reverse_toList, List.append_assoc]
  · rw [ledger_of_nextLine? ht, ledger_noteNested, h.ledger]
  · exact h.grows.trans ((u.records_noteNested u.rest).trans (records_of_nextLine? ht)).grows

end Seeks

/-- **Where the search for the end stops**: on a line that closes the comment, or on the last line
of the source. -/
theorem closes_of_closeComment {source : Source} {s u : State} {p : Position}
    {parts : List String} (h : Seeks source s p u parts) :
    (∀ t, u.closeComment parts = .error t → ∃ v parts', Seeks source s p v parts' ∧
      firstAt "*/".toList (source.textFrom p v.line) = none ∧ v.below = [] ∧
      t = v.noteNested v.rest) ∧
    ∀ text t, u.closeComment parts = .ok (text, t) → ∃ v parts' i, Seeks source s p v parts' ∧
      firstAt "*/".toList (source.textFrom p v.line) = some i ∧
      text = " ".intercalate (String.ofList (v.rest.take i) :: parts').reverse ∧
      t = (v.noteNestedLast (v.rest.take i)).advance (i + 2) := by
  fun_induction closeComment parts u with
  | case1 parts u i hi part =>
    refine ⟨fun t ht => (by cases ht), fun text t ht => ?_⟩
    obtain ⟨rfl, rfl⟩ := Prod.mk.inj (Except.ok.inj ht)
    exact ⟨u, parts, i, h, h.findPair_closing ▸ hi, rfl, rfl⟩
  | case2 parts u hi u' t ht ih => exact ih (h.next hi ht)
  | case3 parts u hi u' hu =>
    refine ⟨fun t ht => ?_, fun text t ht => (by cases ht)⟩
    obtain rfl := Except.error.inj ht
    have hbelow : u.below = [] :=
      (congrArg Track.below (u.track_noteNested u.rest)).symm.trans (below_eq_nil_of_nextLine? hu)
    exact ⟨u, parts, h, h.findPair_closing ▸ hi, hbelow, rfl⟩

/-- The place behind the `/*` that a state stands at. -/
def behindOpener (s : State) : Position := ⟨s.line, s.column + 2⟩

/-- The search for the end of a comment begins behind its `/*`. -/
theorem seeks_of_opener {source : Source} {s opened : State} (hplaced : Placed source s.track)
    {tail : List Char} (hrest : s.rest = '/' :: '*' :: tail)
    (htrack : opened.track = s.track.advance 2) (hledger : opened.ledger = s.ledger)
    (hfound : opened.found .nestedComment = s.found .nestedComment) (hgrows : s.Grows opened) :
    Seeks source s s.behindOpener opened [] := by
  have hline : opened.line = s.line := congrArg Track.line htrack
  constructor
  case placed =>
    rw [htrack]
    exact hplaced.advance (by simp [track, hrest])
  case tokens => exact congrArg Track.tokens htrack
  case line_le => exact Nat.le_of_eq hline.symm
  case column =>
    rw [Source.columnFrom, if_pos (show opened.line = s.behindOpener.line from hline)]
    exact congrArg Track.column htrack
  case unclosed =>
    intro n hfrom hto
    rw [hline] at hto
    exact absurd hto (Nat.not_lt.mpr hfrom)
  case parts => simp [Source.partsAbove, behindOpener, hline]
  case found => simpa [Source.nestedAbove, behindOpener, hline] using hfound
  case ledger => exact hledger
  case grows => exact hgrows

/-- **What reading a block comment does**, by where the search for its end stops. -/
theorem step_of_opener {source : Source} {s : State} (hplaced : Placed source s.track)
    (hmode : ∀ opening, s.mode ≠ .template opening) {tail : List Char}
    (hrest : s.rest = '/' :: '*' :: tail) :
    (∃ v parts, Seeks source s s.behindOpener v parts ∧
      firstAt "*/".toList (source.textFrom s.behindOpener v.line) = none ∧ v.below = [] ∧
      s.step = (v.noteNested v.rest).fail .unclosedComment s.line (s.column + 1)) ∨
    ∃ v parts i text t, Seeks source s s.behindOpener v parts ∧
      firstAt "*/".toList (source.textFrom s.behindOpener v.line) = some i ∧
      text = " ".intercalate (String.ofList (v.rest.take i) :: parts).reverse ∧
      t = (v.noteNestedLast (v.rest.take i)).advance (i + 2) ∧
      s.step = .next ((t.push (t.token .comment text s.position)).inspectComment text.toList
        s.position) := by
  have hstep : s.step = s.roused.operator 2 :=
    step_of_operator hmode hrest (by decide) (by decide) (by decide) (Nat.succ_ne_zero 1)
  rw [hstep]
  unfold operator
  rw [show s.roused.rest = '/' :: '*' :: tail from hrest]
  unfold blockComment
  extract_lets opened opened'
  have hseeks : Seeks source s s.behindOpener opened' [] :=
    seeks_of_opener hplaced hrest (track_noteIf _ _ _ _ _) (ledger_noteIf _ _ _ _ _)
      (opened.found_noteIf_of_ne (by decide) _ _ _)
      (opened.records_noteIf _ (by decide) _ _).grows
  obtain ⟨herror, hok⟩ := closes_of_closeComment hseeks
  cases hclose : opened'.closeComment [] with
  | error t =>
    obtain ⟨v, parts, hv, hnone, hbelow, rfl⟩ := herror t hclose
    exact .inl ⟨v, parts, hv, hnone, hbelow, rfl⟩
  | ok result =>
    obtain ⟨text, t⟩ := result
    obtain ⟨v, parts, i, hv, hi, htext, rfl⟩ := hok text t hclose
    exact .inr ⟨v, parts, i, text, _, hv, hi, htext, rfl, rfl⟩

end State

/-! ### Passes -/

/-- **What a step does at a block comment** of a pass. -/
structure ReadsBlockComment (settings : Settings) (text : String) (s : State) : Prop where
  /-- If no text behind the opening closes the comment, the pass stops at the opening. -/
  unclosed : (∀ n, s.line ≤ n → n ≤ (Source.ofString text).lastIndex →
      ¬ "*/".toList <:+: (Source.ofString text).textFrom s.behindOpener n) →
    (Pass.run settings text).abort = some ⟨.unclosedComment, s.line, s.column + 1⟩ ∧
      s.ReportsOn (.ofString text) settings .nestedComment
        ((Source.ofString text).nestedAbove s.behindOpener ((Source.ofString text).lastIndex + 1))
  /-- Otherwise the comment ends behind the first place that closes it, on the first line that
  has one. Its value is made of the parts that the lines hold, and does not close a comment. -/
  closed : ∀ m i, s.line ≤ m →
    firstAt "*/".toList ((Source.ofString text).textFrom s.behindOpener m) = some i →
    (∀ n, s.line ≤ n → n < m →
      ¬ "*/".toList <:+: (Source.ofString text).textFrom s.behindOpener n) →
    ∃ (t : State) (token : Token), s.step = .next t ∧ t.tokens = token :: s.tokens ∧
      token.kind = .comment ∧ token.start = s.position ∧
      token.stop = ⟨m, Source.columnFrom s.behindOpener m + i + 2⟩ ∧
      token.value.toList = [' '].intercalate
        ((Source.ofString text).partsAbove s.tokens s.behindOpener m ++
          [((Source.ofString text).readFrom s.tokens s.behindOpener m).take i]) ∧
      ¬ "*/".toList <:+: token.value.toList ∧
      s.ReportsOn (.ofString text) settings .nestedComment
        ((Source.ofString text).nestedAbove s.behindOpener m ++
          ((Source.ofString text).nestedOnLast? s.behindOpener m i).toList)

section

variable {source : Source} {s v : State} {p : Position} {parts : List String} {i : Nat}

/-- No text stands behind the last line. -/
theorem Source.textFrom_of_beyond {n : Nat} (h : source.lastIndex < n) :
    source.textFrom p n = [] := by
  have hlength : source.lengthAt n = 0 := by
    by_contra hpos
    exact absurd (Source.inside_of_lengthAt_pos (Nat.pos_of_ne_zero hpos)).2 (Nat.not_le.mpr h)
  refine List.drop_eq_nil_of_le (Nat.le_trans (Nat.le_of_eq ?_) (Nat.zero_le _))
  rw [← hlength]
  exact String.length_toList

namespace State.Seeks

/-- Where the source ends no line closes the comment. -/
theorem none_of_end (h : Seeks source s p v parts)
    (hnone : firstAt "*/".toList (source.textFrom p v.line) = none) (hbelow : v.below = []) :
    v.line = source.lastIndex ∧
      ∀ n, p.line ≤ n → firstAt "*/".toList (source.textFrom p n) = none := by
  have hlast : v.line = source.lastIndex := by
    have hdrop : source.lines.toList.drop v.line = [] := h.placed.below.symm.trans hbelow
    rw [List.drop_eq_nil_iff, Array.length_toList] at hdrop
    exact Nat.le_antisymm h.placed.line_le hdrop
  refine ⟨hlast, fun n hfrom => ?_⟩
  rcases Nat.lt_trichotomy n v.line with hlt | rfl | hlt
  · exact firstAt_eq_none.mpr (h.unclosed n hfrom hlt)
  · exact hnone
  · rw [Source.textFrom_of_beyond (hlast ▸ hlt)]
    decide

/-- The line where the search stops is the first that closes the comment. -/
theorem eq_of_first (h : Seeks source s p v parts)
    (hi : firstAt "*/".toList (source.textFrom p v.line) = some i) {m j : Nat} (hfrom : p.line ≤ m)
    (hj : firstAt "*/".toList (source.textFrom p m) = some j)
    (habove : ∀ n, p.line ≤ n → n < m → ¬ "*/".toList <:+: source.textFrom p n) :
    v.line = m ∧ i = j := by
  have hline : v.line = m := by
    rcases Nat.lt_trichotomy v.line m with hlt | heq | hlt
    · rw [firstAt_eq_none.mpr (habove _ h.line_le hlt)] at hi
      cases hi
    · exact heq
    · rw [firstAt_eq_none.mpr (h.unclosed m hfrom hlt)] at hj
      cases hj
  rw [hline, hj] at hi
  exact ⟨hline, (Option.some.inj hi).symm⟩

/-- The value of a comment is made of its parts. -/
theorem value_eq (h : Seeks source s p v parts) :
    (" ".intercalate (String.ofList (v.rest.take i) :: parts).reverse).toList =
      [' '].intercalate (source.partsAbove s.tokens p v.line ++
        [(source.readFrom s.tokens p v.line).take i]) := by
  have hparts : ((String.ofList (v.rest.take i) :: parts).reverse).map String.toList =
      source.partsAbove s.tokens p v.line ++ [(source.readFrom s.tokens p v.line).take i] := by
    rw [List.reverse_cons, List.map_append, h.parts, List.map_map, h.rest]
    simp [Function.comp_def]
  rw [String.toList_intercalate, hparts]
  rfl

/-- The parts of a comment do not close it, so neither does its value. -/
theorem not_infix_value (h : Seeks source s p v parts)
    (hi : firstAt "*/".toList (source.textFrom p v.line) = some i) :
    ¬ "*/".toList <:+: [' '].intercalate (source.partsAbove s.tokens p v.line ++
      [(source.readFrom s.tokens p v.line).take i]) := by
  have hread (n : Nat) : firstAt "*/".toList (source.readFrom s.tokens p n) =
      firstAt "*/".toList (source.textFrom p n) := by
    rcases source.readFrom_eq s.tokens p n with heq | heq
    · rw [heq]
    · rw [heq, firstAt_untabbed (by simp)]
  refine not_infix_intercalate (by decide) (by decide) fun part hpart => ?_
  rcases List.mem_append.mp hpart with habove | hlast
  · obtain ⟨n, hn, rfl⟩ := List.mem_map.mp habove
    have hrange := List.mem_range'_1.mp hn
    have hle := h.line_le
    refine firstAt_eq_none.mp ((hread n).trans (firstAt_eq_none.mpr ?_))
    exact h.unclosed n hrange.1 (by omega)
  · obtain rfl := List.mem_singleton.mp hlast
    exact not_infix_take_firstAt (by decide) ((hread v.line).trans hi)

/-- What the step reports if the source ends. -/
theorem reports_of_end (h : Seeks source s p v parts) (settings : Settings)
    (hlast : v.line = source.lastIndex)
    (hstep : s.step = (v.noteNested v.rest).fail .unclosedComment s.line (s.column + 1)) :
    s.ReportsOn source settings .nestedComment (source.nestedAbove p (source.lastIndex + 1)) := by
  have hstate : s.step.state = (v.noteNested v.rest).leaveLine := by rw [hstep]; rfl
  refine State.reportsOn_of_found (by decide) (by decide) s.grows_step List.suffix_rfl ?_ ?_ rfl
  · rw [hstate, State.ledger_leaveLine, State.ledger_noteNested, h.ledger]
  · rw [hstate, State.found_leaveLine, h.found_noteNested, ← hlast,
      Source.nestedAbove_succ _ h.line_le, List.reverse_append, reverse_toList, List.append_assoc]

/-- The token that is pushed behind the closing mark ends there. -/
theorem token_of_close (h : Seeks source s p v parts) (value : String) (start : Position)
    {u : State} (hu : u = (v.noteNestedLast (v.rest.take i)).advance (i + 2)) {token : Token}
    (htoken : token = u.token .comment value start) :
    ((u.push token).inspectComment value.toList start).tokens = token :: s.tokens ∧
      token.stop = ⟨v.line, Source.columnFrom p v.line + i + 2⟩ := by
  have htrack : u.track = v.track.advance (i + 2) := by
    rw [hu, ← v.track_noteNestedLast (v.rest.take i)]
    rfl
  constructor
  · rw [← h.tokens, ← show u.tokens = v.tokens from congrArg Track.tokens htrack,
      ← u.tokens_push token]
    exact congrArg Track.tokens (State.track_inspectComment _ _ _)
  · have hline : u.line = v.line := congrArg Track.line htrack
    have hcolumn : u.column = v.column + (i + 2) := congrArg Track.column htrack
    rw [htoken]
    show Position.mk u.line u.column = _
    rw [hline, hcolumn, h.column, Nat.add_assoc]

/-- What the step reports if the comment closes. What the comment says as a directive is found on
other rules. -/
theorem reports_of_close (h : Seeks source s p v parts) (settings : Settings) {u : State}
    (hu : u = (v.noteNestedLast (v.rest.take i)).advance (i + 2)) {token : Token}
    {value : List Char} {start : Position}
    (hstep : s.step = .next ((u.push token).inspectComment value start)) :
    s.ReportsOn source settings .nestedComment
      (source.nestedAbove p v.line ++ (source.nestedOnLast? p v.line i).toList) := by
  have hpush : v.Grows (u.push token) := by
    rw [hu]
    exact (((v.records_noteNestedLast _).trans (State.records_advance _ _)).trans
      (State.records_push _ token)).grows
  have hstate : s.step.state = (u.push token).inspectComment value start := by rw [hstep]; rfl
  refine State.reportsOn_of_found (by decide) (by decide) (h.grows.trans hpush)
    (hstate ▸ (u.push token).grows_inspectComment _ _) ?_ ?_ ?_
  · rw [State.ledger_push, ← h.ledger, ← v.ledger_noteNestedLast (v.rest.take i), hu]
    rfl
  · rw [u.found_push (by decide), hu, State.found_advance, h.found_noteNestedLast,
      List.reverse_append, reverse_toList, List.append_assoc]
  · rw [hstate, State.found_inspectComment _ (by decide)]

end State.Seeks

end

/-- **Block comments are read to their first closing mark**, under any settings and on every
text. -/
theorem blockComment_read (settings : Settings) {text : String} {s : State}
    (hreach : State.Reaches (.initial (Source.ofString text).lines.toList) s)
    (hmode : ∀ opening, s.mode ≠ .template opening) {tail : List Char}
    (hrest : s.rest = '/' :: '*' :: tail) : ReadsBlockComment settings text s := by
  have hplaced := placed_of_reaches hreach
  rcases State.step_of_opener hplaced hmode hrest with
    ⟨v, parts, hseeks, hnone, hbelow, hstep⟩ | ⟨v, parts, i, _, t, hseeks, hi, rfl, rfl, hstep⟩
  · obtain ⟨hlast, hall⟩ := hseeks.none_of_end hnone hbelow
    constructor
    case unclosed =>
      exact fun _ => ⟨abort_of_failed_inside settings hreach hstep rfl (Nat.lt_succ_self _)
        (by simp [hrest]), hseeks.reports_of_end settings hlast hstep⟩
    case closed =>
      intro m i hfrom hi _
      rw [hall m hfrom] at hi
      cases hi
  · constructor
    case unclosed =>
      intro hall
      have hopen := hall v.line hseeks.line_le hseeks.placed.line_le
      rw [firstAt_eq_none.mpr hopen] at hi
      cases hi
    case closed =>
      intro m j hfrom hj habove
      obtain ⟨rfl, rfl⟩ := hseeks.eq_of_first hi hfrom hj habove
      have hvalue := hseeks.value_eq (i := i)
      obtain ⟨htokens, hstop⟩ := hseeks.token_of_close _ s.position rfl rfl
      exact ⟨_, _, hstep, htokens, rfl, rfl, hstop, hvalue, hvalue ▸ hseeks.not_infix_value hi,
        hseeks.reports_of_close settings rfl hstep⟩

/-- A comment of two lines whose second part ends in a slash, which makes an opener with the star
of the closing mark. -/
theorem blockComment_read_slash :
    ∃ (t : State) (token : Token),
      ({ line := 1, rest := "/* a".toList, below := [{ text := "b /*/;" }] } : State).step =
        .next t ∧
      t.tokens = [token] ∧ token.stop = ⟨2, 5⟩ ∧ token.value.toList = " a b /".toList := by
  let source := Source.ofString "/* a\nb /*/;"
  let s : State := { line := 1, rest := "/* a".toList, below := [{ text := "b /*/;" }] }
  have hreach : State.Reaches (.initial source.lines.toList) s := .single rfl
  have hread : ReadsBlockComment {} "/* a\nb /*/;" s :=
    @blockComment_read {} _ s hreach (by simp [s]) " a".toList rfl
  obtain ⟨t, token, hstep, htokens, -, -, hstop, hvalue, -, -⟩ :=
    hread.closed 2 3 (by decide) (by decide +kernel) (by decide +kernel)
  exact ⟨t, token, hstep, htokens, hstop, hvalue.trans (by decide +kernel)⟩

end ScriptLint
