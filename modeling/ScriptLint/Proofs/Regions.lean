import Mathlib.Data.List.Induction
import Mathlib.Data.List.Sort
import Mathlib.Order.Bounds.Basic
import ScriptLint.Lexer
import ScriptLint.Proofs.Places

/-!
# Disabled regions

A source is read line by line, with the line of the open disable marker as the only
memory.  What comes out is told by the markers alone: a line is **blanked** if a disable
marker stands on it or before it with no enable marker in between, and a disable marker
**stays open** if no enable marker stands after it.  The two descriptions are kept equal
by each line that is read.

So the lines strictly inside a closed region do not matter, as long as none of them is
made an enable marker.

## Main definitions

* `Disables`, `Enables` — the markers, by the numbers of their lines
* `Blanked`, `StaysOpen` — the lines of a region, and a region without an end
* `Region.Follows` — what has been read goes by the markers
* `DifferInside` — texts that differ inside closed regions alone
* `RegionsRead` — what the regions of a text are to its source

## Main statements

* `follows_foldl_read` — reading keeps to the markers
* `ofString_eq_of_differInside` — what stands inside a closed region is not read
* `regions_read` — the regions of every text
-/

namespace ScriptLint

/-! ### Markers -/

/-- Line `n`, from 1, is a marker but for outer blanks. -/
def Marked (marker : String) (lines : List (List Char)) (n : Nat) : Prop :=
  0 < n ∧ lines[n - 1]?.map trimBlank = some marker.toList

/-- Line `n` is a disable marker. -/
abbrev Disables (lines : List (List Char)) (n : Nat) : Prop := Marked Line.disableMarker lines n

/-- Line `n` is an enable marker. -/
abbrev Enables (lines : List (List Char)) (n : Nat) : Prop := Marked Line.enableMarker lines n

/-- **Blanked**: line `n` belongs to a region. -/
def Blanked (lines : List (List Char)) (n : Nat) : Prop :=
  ∃ d ≤ n, Disables lines d ∧ ∀ j < n, d < j → ¬ Enables lines j

/-- **Staying open**: the disable marker of line `d` has no enable marker after it. -/
def StaysOpen (lines : List (List Char)) (d : Nat) : Prop :=
  Disables lines d ∧ ∀ j, d < j → ¬ Enables lines j

instance (marker : String) (lines : List (List Char)) (n : Nat) :
    Decidable (Marked marker lines n) :=
  inferInstanceAs (Decidable (_ ∧ _))

instance (lines : List (List Char)) (n : Nat) : Decidable (Blanked lines n) :=
  inferInstanceAs (Decidable (∃ d ≤ n, Disables lines d ∧ ∀ j < n, d < j → ¬ Enables lines j))

section

variable {lines : List (List Char)} {marker : String} {line : List Char} {n d : Nat}

theorem Marked.le_length (h : Marked marker lines n) : n ≤ lines.length := by
  obtain ⟨hpos, htrim⟩ := h
  obtain ⟨text, htext, -⟩ := Option.map_eq_some_iff.mp htrim
  have hlt := (List.getElem?_eq_some_iff.mp htext).1
  omega

/-- Lines that are the same are marked the same. -/
theorem marked_congr {lines' : List (List Char)} (h : lines[n - 1]? = lines'[n - 1]?) :
    Marked marker lines n ↔ Marked marker lines' n := by
  rw [Marked, Marked, h]

theorem not_enables_of_disables (h : Disables lines n) : ¬ Enables lines n := by
  intro h'
  have hsame := h.2.symm.trans h'.2
  exact absurd hsame (by decide)

/-- The line that is added last is a marker, or one before it is. -/
theorem marked_concat :
    Marked marker (lines ++ [line]) n ↔
      Marked marker lines n ∨ n = lines.length + 1 ∧ trimBlank line = marker.toList := by
  rcases Nat.lt_trichotomy (n - 1) lines.length with hlt | heq | hgt
  · have hbefore : (lines ++ [line])[n - 1]? = lines[n - 1]? := List.getElem?_append_left hlt
    rw [marked_congr hbefore, or_iff_left]
    rintro ⟨rfl, -⟩
    exact absurd hlt (by simp)
  · have hlast : (lines ++ [line])[n - 1]? = some line := by
      rw [heq, List.getElem?_concat_length]
    have hnone : ¬ Marked marker lines n := fun h => by
      have hle := h.le_length
      have hpos := h.1
      omega
    rw [or_iff_right hnone, Marked, hlast]
    constructor
    · rintro ⟨hpos, htrim⟩
      exact ⟨by omega, Option.some.inj htrim⟩
    · rintro ⟨rfl, htrim⟩
      exact ⟨Nat.succ_pos _, congrArg some htrim⟩
  · have hnone {lines : List (List Char)} (hlen : lines.length < n) : ¬ Marked marker lines n :=
      fun h => absurd h.le_length (Nat.not_le.mpr hlen)
    refine iff_of_false (hnone (by simp; omega)) ?_
    rintro (h | ⟨rfl, -⟩)
    · exact hnone (by omega) h
    · exact absurd hgt (by simp)

theorem StaysOpen.le_length (h : StaysOpen lines d) : d ≤ lines.length := h.1.le_length

/-- A line that is added does not blank a line before it, nor save it. -/
theorem blanked_concat_of_le (hn : n ≤ lines.length) :
    Blanked (lines ++ [line]) n ↔ Blanked lines n := by
  have hsame {m : Nat} (marker : String) (hm : m ≤ n) :
      Marked marker (lines ++ [line]) m ↔ Marked marker lines m := by
    rw [marked_concat, or_iff_left]
    rintro ⟨rfl, -⟩
    omega
  refine exists_congr fun d => and_congr_right fun hd => and_congr (hsame _ hd) ?_
  exact forall₂_congr fun j hj => imp_congr_right fun _ => not_congr (hsame _ hj.le)

/-- The line that is added is blanked if it is a disable marker or one stays open before it. -/
theorem blanked_concat :
    Blanked (lines ++ [line]) (lines.length + 1) ↔
      trimBlank line = Line.disableMarker.toList ∨ ∃ d, StaysOpen lines d := by
  constructor
  · rintro ⟨d, -, hd, hnone⟩
    rcases marked_concat.mp hd with hd | ⟨-, hline⟩
    · refine .inr ⟨d, hd, fun j hj hen => ?_⟩
      exact hnone j (Nat.lt_succ_of_le hen.le_length) hj (marked_concat.mpr (.inl hen))
    · exact .inl hline
  · rintro (hline | ⟨d, hd, hnone⟩)
    · exact ⟨_, Nat.le_refl _, marked_concat.mpr (.inr ⟨rfl, hline⟩), by omega⟩
    · refine ⟨d, Nat.le_succ_of_le hd.le_length, marked_concat.mpr (.inl hd), ?_⟩
      intro j hj hlt hen
      rcases marked_concat.mp hen with hen | ⟨rfl, -⟩
      · exact hnone j hlt hen
      · exact Nat.lt_irrefl _ hj

/-- An enable marker that is added leaves no marker open; any other line leaves those open that
are, and opens one if it is a disable marker. -/
theorem staysOpen_concat :
    StaysOpen (lines ++ [line]) d ↔
      trimBlank line ≠ Line.enableMarker.toList ∧
        (StaysOpen lines d ∨ d = lines.length + 1 ∧
          trimBlank line = Line.disableMarker.toList) := by
  constructor
  · rintro ⟨hd, hnone⟩
    have hline : d ≤ lines.length → trimBlank line ≠ Line.enableMarker.toList := fun hle hen =>
      hnone _ (Nat.lt_succ_of_le hle) (marked_concat.mpr (.inr ⟨rfl, hen⟩))
    rcases marked_concat.mp hd with hold | ⟨rfl, hdis⟩
    · exact ⟨hline hold.le_length, .inl ⟨hold, fun j hj hen =>
        hnone j hj (marked_concat.mpr (.inl hen))⟩⟩
    · exact ⟨by rw [hdis]; decide, .inr ⟨rfl, hdis⟩⟩
  · rintro ⟨hne, ⟨hd, hnone⟩ | ⟨rfl, hdis⟩⟩
    · refine ⟨marked_concat.mpr (.inl hd), fun j hj hen => ?_⟩
      rcases marked_concat.mp hen with hen | ⟨-, hen⟩
      · exact hnone j hj hen
      · exact hne hen
    · refine ⟨marked_concat.mpr (.inr ⟨rfl, hdis⟩), fun j hj hen => ?_⟩
      rcases marked_concat.mp hen with hen | ⟨rfl, -⟩
      · exact absurd hen.le_length (by omega)
      · exact Nat.lt_irrefl _ hj

end

/-! ### Reading keeps to the markers -/

/-- **Following the markers**: what has been read of some lines. -/
structure Region.Follows (lines : List (List Char)) (r : Region) : Prop where
  size : r.lines.size = lines.length
  /-- Each line is blanked or kept. -/
  line : ∀ n text, lines[n]? = some text →
    r.lines[n]? = some (if Blanked lines (n + 1) then {} else .ofText text)
  /-- The marker remembered is the first of those that stay open. -/
  opened : ∀ d, r.opened = some d ↔ IsLeast {d | StaysOpen lines d} d
  /-- The issues are the enable markers that close nothing. -/
  issue : ∀ i, i ∈ r.issues ↔
    i.rule = .unopenedEnable ∧ Enables lines i.line ∧ ¬ Blanked lines i.line
  /-- Newer issues stand below. -/
  sorted : r.issues.Pairwise fun newer older => older.line < newer.line

namespace Region.Follows

variable {lines : List (List Char)} {r : Region}

/-- Nothing is remembered if no marker stays open. -/
theorem opened_eq_none_iff (h : r.Follows lines) :
    r.opened = none ↔ ∀ d, ¬ StaysOpen lines d := by
  constructor
  · intro hnone d hd
    -- Of the markers that stay open one would be the first.
    classical
    have hex : ∃ d, StaysOpen lines d := ⟨d, hd⟩
    have hleast : IsLeast {d | StaysOpen lines d} (Nat.find hex) :=
      ⟨Nat.find_spec hex, fun _ => Nat.find_min' hex⟩
    rw [(h.opened _).mpr hleast] at hnone
    cases hnone
  · intro hall
    cases hopened : r.opened with
    | none => rfl
    | some d => exact absurd ((h.opened d).mp hopened).1 (hall d)

/-- What is read next is blanked if it is a disable marker or one is open. -/
theorem blanked_iff (h : r.Follows lines) (line : List Char) :
    Blanked (lines ++ [line]) (lines.length + 1) ↔
      trimBlank line = Line.disableMarker.toList ∨ r.opened.isSome = true := by
  rw [blanked_concat]
  refine or_congr_right ?_
  rw [← not_iff_not, Bool.not_eq_true, Option.isSome_eq_false_iff, Option.isNone_iff_eq_none,
    h.opened_eq_none_iff, not_exists]

/-- The lines of a source grow by one that is blanked or kept. -/
theorem line_push (h : r.Follows lines) {line : List Char} {next : Line}
    (hnext : next =
      if Blanked (lines ++ [line]) (lines.length + 1) then {} else .ofText line) :
    ∀ n text, (lines ++ [line])[n]? = some text →
      (r.lines.push next)[n]? =
        some (if Blanked (lines ++ [line]) (n + 1) then {} else .ofText text) := by
  intro n text htext
  rcases Nat.lt_or_ge n lines.length with hlt | hge
  · rw [List.getElem?_append_left hlt] at htext
    rw [Array.getElem?_push_lt (h.size ▸ hlt), ← Array.getElem?_eq_getElem, h.line n text htext]
    simp only [blanked_concat_of_le (Nat.succ_le_of_lt hlt)]
  · have hlast : n = lines.length := by
      have hbound := (List.getElem?_eq_some_iff.mp htext).1
      rw [List.length_append, List.length_singleton] at hbound
      omega
    subst hlast
    rw [List.getElem?_concat_length] at htext
    rw [← h.size, Array.getElem?_push_size, h.size, hnext, Option.some.inj htext]

/-- The enable markers that close nothing are those before, and the line read if it is one. -/
theorem issue_concat (line : List Char) (i : Nat) :
    Enables (lines ++ [line]) i ∧ ¬ Blanked (lines ++ [line]) i ↔
      (Enables lines i ∧ ¬ Blanked lines i) ∨
        i = lines.length + 1 ∧ trimBlank line = Line.enableMarker.toList ∧
          ¬ Blanked (lines ++ [line]) (lines.length + 1) := by
  have hmarked : Enables (lines ++ [line]) i ↔ _ := marked_concat
  rw [hmarked, or_and_right]
  refine or_congr ?_ ?_
  · refine and_congr_right fun hen => ?_
    rw [blanked_concat_of_le hen.le_length]
  · constructor
    · rintro ⟨⟨rfl, hline⟩, hkept⟩
      exact ⟨rfl, hline, hkept⟩
    · rintro ⟨rfl, hline, hkept⟩
      exact ⟨⟨rfl, hline⟩, hkept⟩

/-- The first of the markers that stay open after a line that is no enable marker. -/
theorem isLeast_concat (h : r.Follows lines) {line : List Char}
    (hne : trimBlank line ≠ Line.enableMarker.toList) (d : Nat) :
    IsLeast {d | StaysOpen (lines ++ [line]) d} d ↔
      (if trimBlank line = Line.disableMarker.toList then r.opened.or (some (lines.length + 1))
        else r.opened) = some d := by
  have hset : {d | StaysOpen (lines ++ [line]) d} =
      {d | StaysOpen lines d} ∪
        {d | d = lines.length + 1 ∧ trimBlank line = Line.disableMarker.toList} := by
    ext d
    exact staysOpen_concat.trans (and_iff_right hne)
  rw [hset]
  split
  · next hdis =>
    simp only [hdis, and_true]
    cases hopened : r.opened with
    | none =>
      have hempty : {d | StaysOpen lines d} = ∅ :=
        Set.eq_empty_of_forall_notMem (h.opened_eq_none_iff.mp hopened)
      rw [hempty, Set.empty_union, Option.none_or, Option.some.injEq]
      exact ⟨fun hd => hd.1.symm, by rintro rfl; exact isLeast_singleton⟩
    | some e =>
      -- An open marker stands before the one that is added.
      have he := (h.opened e).mp hopened
      have hle : e ≤ lines.length := he.1.le_length
      have hleast : IsLeast ({d | StaysOpen lines d} ∪ {d | d = lines.length + 1}) e := by
        refine ⟨.inl he.1, ?_⟩
        rintro d (hd | rfl)
        · exact he.2 hd
        · exact Nat.le_succ_of_le hle
      rw [Option.some_or, Option.some.injEq]
      exact ⟨fun hd => hleast.unique hd, by rintro rfl; exact hleast⟩
  · next hdis =>
    simp only [hdis, and_false, Set.ofPred_false, Set.union_empty]
    exact (h.opened d).symm

/-- **Reading a line** keeps to the markers. -/
theorem read (h : r.Follows lines) (line : List Char) :
    (r.read line).Follows (lines ++ [line]) := by
  have hsize (next : Line) : (r.lines.push next).size = (lines ++ [line]).length := by
    rw [Array.size_push, h.size, List.length_append, List.length_singleton]
  have hblanked := h.blanked_iff line
  -- Unless it is an enable marker that closes nothing, the line adds no issue.
  have hissue (hold : trimBlank line = Line.enableMarker.toList →
      Blanked (lines ++ [line]) (lines.length + 1)) (i : LineIssue) : i ∈ r.issues ↔
        i.rule = .unopenedEnable ∧ Enables (lines ++ [line]) i.line ∧
          ¬ Blanked (lines ++ [line]) i.line := by
    rw [issue_concat, or_iff_left fun hnew => hnew.2.2 (hold hnew.2.1)]
    exact h.issue i
  have hopened (hne : trimBlank line ≠ Line.enableMarker.toList) (d : Nat) :=
    (h.isLeast_concat hne d).symm
  have hclosed (hen : trimBlank line = Line.enableMarker.toList) (d : Nat) :
      none = some d ↔ IsLeast {d | StaysOpen (lines ++ [line]) d} d := by
    refine iff_of_false (by simp) fun hd => ?_
    exact (staysOpen_concat.mp hd.1).1 hen
  unfold Region.read
  extract_lets index trimmed
  have hindex : index = lines.length + 1 := congrArg (· + 1) h.size
  split
  · next hdis =>
    have hne : trimBlank line ≠ Line.enableMarker.toList := by
      rw [show trimBlank line = _ from hdis]
      decide
    have hnext := hblanked.mpr (.inl hdis)
    refine ⟨hsize _, h.line_push (by rw [if_pos hnext]), ?_, hissue fun _ => hnext, h.sorted⟩
    intro d
    rw [← hopened hne, if_pos hdis, hindex]
  · next hdis =>
    split
    · next hen =>
      split
      · next hsome =>
        have hnext := hblanked.mpr (.inr hsome)
        exact ⟨hsize _, h.line_push (by rw [if_pos hnext]), hclosed hen, hissue fun _ => hnext,
          h.sorted⟩
      · next hnone =>
        have hnext : ¬ Blanked (lines ++ [line]) (lines.length + 1) := fun hb =>
          (hblanked.mp hb).elim hdis hnone
        refine ⟨hsize _, h.line_push (by rw [if_neg hnext]), ?_, fun i => ?_, ?_⟩
        · intro d
          rw [Bool.not_eq_true, Option.isSome_eq_false_iff, Option.isNone_iff_eq_none] at hnone
          rw [← hclosed hen, ← hnone]
        · rw [issue_concat, List.mem_cons, h.issue, hindex, and_or_left]
          refine or_comm.trans (or_congr_right ?_)
          constructor
          · rintro rfl
            exact ⟨rfl, rfl, hen, hnext⟩
          · rintro ⟨hrule, hline, -, -⟩
            cases i
            simp_all
        · refine List.pairwise_cons.mpr ⟨fun i hi => ?_, h.sorted⟩
          have hle := ((h.issue i).mp hi).2.1.le_length
          rw [hindex]
          exact Nat.lt_succ_of_le hle
    · next hen =>
      have hopen (d : Nat) : r.opened = some d ↔ IsLeast {d | StaysOpen (lines ++ [line]) d} d := by
        rw [← hopened hen, if_neg hdis]
      split
      · next hsome =>
        have hnext := hblanked.mpr (.inr hsome)
        exact ⟨hsize _, h.line_push (by rw [if_pos hnext]), hopen,
          hissue fun hen' => absurd hen' hen, h.sorted⟩
      · next hnone =>
        have hnext : ¬ Blanked (lines ++ [line]) (lines.length + 1) := fun hb =>
          (hblanked.mp hb).elim hdis hnone
        exact ⟨hsize _, h.line_push (by rw [if_neg hnext]), hopen,
          hissue fun hen' => absurd hen' hen, h.sorted⟩

/-- Before the first line there are no markers. -/
theorem empty : Region.Follows [] {} := by
  have hnone (marker : String) (n : Nat) : ¬ Marked marker [] n := fun h => by
    simpa using h.2
  refine ⟨rfl, by simp, fun d => iff_of_false (by simp) fun hd => hnone _ d hd.1.1, fun i => ?_,
    .nil⟩
  exact iff_of_false (by simp) fun hi => hnone _ i.line hi.2.1

end Region.Follows

/-- **Reading keeps to the markers**, over any number of lines. -/
theorem follows_foldl_read (lines : List (List Char)) :
    (lines.foldl Region.read {}).Follows lines := by
  induction lines using List.reverseRec with
  | nil => exact .empty
  | append_singleton lines line ih =>
    rw [List.foldl_concat]
    exact ih.read line

/-! ### Quiet lines -/

/-- **Ending quietly**: the quiet marker is the last of a line but for blanks. -/
def EndsQuiet (line : List Char) : Prop :=
  ∃ front blanks, line = front ++ Line.quietMarker.toList ++ blanks ∧
    ∀ c ∈ blanks, isBlank c = true

theorem quiet_ofText_iff (line : List Char) : (Line.ofText line).quiet = true ↔ EndsQuiet line := by
  rw [show (Line.ofText line).quiet =
      Line.quietMarker.toList.isSuffixOf (trimBlankEnd line) from rfl, List.isSuffixOf_iff_suffix]
  constructor
  · rintro ⟨front, hfront⟩
    refine ⟨front, (line.reverse.takeWhile isBlank).reverse, ?_, fun c hc => ?_⟩
    · rw [hfront, trimBlankEnd, ← List.reverse_append, List.takeWhile_append_dropWhile,
        List.reverse_reverse]
    · exact List.all_eq_true.mp List.all_takeWhile c (List.mem_reverse.mp hc)
  · rintro ⟨front, blanks, rfl, hblanks⟩
    refine ⟨front, ?_⟩
    -- The marker ends in a letter, so trimming stops there.
    have hdrop : (blanks.reverse ++ (Line.quietMarker.toList.reverse ++ front.reverse)).dropWhile
        isBlank = Line.quietMarker.toList.reverse ++ front.reverse := by
      rw [List.dropWhile_append_of_pos fun c hc => hblanks c (List.mem_reverse.mp hc)]
      exact List.dropWhile_cons_of_neg (by decide)
    rw [trimBlankEnd, List.reverse_append, List.reverse_append, hdrop]
    simp

/-! ### Sources -/

/-- The physical lines of a text, as they are written. -/
def rawLines (text : String) : List (List Char) := physicalLines text.toList

section

variable (text : String)

/-- The lines of a source are the physical lines, blanked or kept. -/
theorem line?_ofString {n : Nat} {line : List Char} (h : (rawLines text)[n]? = some line) :
    (Source.ofString text).line? (n + 1) =
      some (if Blanked (rawLines text) (n + 1) then {} else .ofText line) :=
  (follows_foldl_read (rawLines text)).line n line h

theorem lastIndex_ofString : (Source.ofString text).lastIndex = (rawLines text).length :=
  (follows_foldl_read (rawLines text)).size

/-- The issues of a source are the enable markers that close nothing and the first disable marker
that stays open. -/
theorem mem_issues_ofString (i : LineIssue) :
    i ∈ (Source.ofString text).issues ↔
      (i.rule = .unopenedEnable ∧ Enables (rawLines text) i.line ∧
        ¬ Blanked (rawLines text) i.line) ∨
      i.rule = .unclosedDisable ∧ IsLeast {d | StaysOpen (rawLines text) d} i.line := by
  have hfollows := follows_foldl_read (rawLines text)
  rw [Source.ofString, ← rawLines]
  show i ∈ (Region.issues _).reverse ++ _ ↔ _
  rw [List.mem_append, List.mem_reverse, hfollows.issue, Option.mem_toList, Option.map_eq_some_iff]
  refine or_congr_right ?_
  constructor
  · rintro ⟨d, hd, rfl⟩
    exact ⟨rfl, (hfollows.opened d).mp hd⟩
  · rintro ⟨hrule, hline⟩
    refine ⟨i.line, (hfollows.opened _).mpr hline, ?_⟩
    rw [← hrule]

/-- An issue breaks the rule of one of the markers. -/
theorem rule_of_mem_issues {i : LineIssue} (h : i ∈ (Source.ofString text).issues) :
    i.rule = .unopenedEnable ∨ i.rule = .unclosedDisable :=
  ((mem_issues_ofString text i).mp h).imp (·.1) (·.1)

/-- Issues stand in the order of their lines, one on a line at most. -/
theorem sorted_issues_ofString :
    (Source.ofString text).issues.Pairwise fun a b => a.line < b.line := by
  have hfollows := follows_foldl_read (rawLines text)
  refine List.pairwise_append.mpr ⟨List.pairwise_reverse.mpr hfollows.sorted, ?_, ?_⟩
  · rcases Option.map _ _ with _ | issue
    · exact .nil
    · exact List.pairwise_singleton _ _
  · intro a ha b hb
    obtain ⟨-, hen, -⟩ := (hfollows.issue a).mp (List.mem_reverse.mp ha)
    obtain ⟨d, hd, rfl⟩ := Option.map_eq_some_iff.mp (Option.mem_toList.mp hb)
    -- No enable marker stands after the one that stays open, nor on its line.
    obtain ⟨hdis, hnone⟩ := ((hfollows.opened d).mp hd).1
    rcases Nat.lt_trichotomy a.line d with hlt | heq | hgt
    · exact hlt
    · exact absurd (heq ▸ hen) (not_enables_of_disables hdis)
    · exact absurd hen (hnone _ hgt)

end

/-! ### What stands inside a region -/

/-- **Strictly inside a closed region**: between a disable marker and the first enable marker after
it. -/
def InsideClosed (lines : List (List Char)) (n : Nat) : Prop :=
  ∃ d e, d < n ∧ n < e ∧ Disables lines d ∧ Enables lines e ∧
    ∀ j, d < j → j < e → ¬ Enables lines j

/-- **Differing inside regions**: two lists of lines that differ strictly inside the closed regions
of the first alone, and where they do have no enable marker. -/
structure DifferInside (lines lines' : List (List Char)) : Prop where
  length : lines.length = lines'.length
  inside : ∀ n, lines[n]? ≠ lines'[n]? →
    InsideClosed lines (n + 1) ∧ ¬ Enables lines (n + 1) ∧ ¬ Enables lines' (n + 1)

theorem InsideClosed.blanked {lines : List (List Char)} {n : Nat} (h : InsideClosed lines n) :
    Blanked lines n := by
  obtain ⟨d, e, hdn, hne, hd, -, hnone⟩ := h
  exact ⟨d, hdn.le, hd, fun j hj hlt => hnone j hlt (hj.trans hne)⟩

namespace DifferInside

variable {lines lines' : List (List Char)} {n d : Nat}

/-- Where the lists do not differ, they have the same markers. -/
theorem marked_iff (h : DifferInside lines lines') (hn : ¬ InsideClosed lines n)
    (marker : String) : Marked marker lines n ↔ Marked marker lines' n := by
  by_cases hpos : 0 < n
  · refine marked_congr ?_
    by_contra hne
    obtain ⟨hin, -⟩ := h.inside (n - 1) hne
    rw [Nat.sub_add_cancel hpos] at hin
    exact hn hin
  · exact iff_of_false (fun h => hpos h.1) fun h => hpos h.1

/-- The lists have the same enable markers. -/
theorem enables_iff (h : DifferInside lines lines') : Enables lines n ↔ Enables lines' n := by
  by_cases hpos : 0 < n
  · by_cases hsame : lines[n - 1]? = lines'[n - 1]?
    · exact marked_congr hsame
    · obtain ⟨-, hen, hen'⟩ := h.inside (n - 1) hsame
      rw [Nat.sub_add_cancel hpos] at hen hen'
      exact iff_of_false hen hen'
  · exact iff_of_false (fun h => hpos h.1) fun h => hpos h.1

/-- The first disable marker of a region is not inside of one, so it is in both lists. -/
theorem exists_opening (h : DifferInside lines lines') (hd : Disables lines d)
    (hnone : ∀ j < n, d < j → ¬ Enables lines j) (hdn : d ≤ n) :
    ∃ o ≤ d, Disables lines o ∧ Disables lines' o ∧ ∀ j < n, o < j → ¬ Enables lines j := by
  induction d using Nat.strongRecOn with
  | ind d ih =>
    by_cases hin : InsideClosed lines d
    · obtain ⟨o, e, hod, hde, ho, he, hbetween⟩ := hin
      -- The marker is one of an outer region, which goes on at least as far.
      have houter : ∀ j < n, o < j → ¬ Enables lines j := by
        intro j hj hoj hen
        rcases Nat.lt_trichotomy j d with hlt | rfl | hgt
        · exact hbetween j hoj (hlt.trans hde) hen
        · exact not_enables_of_disables hd hen
        · exact hnone j hj hgt hen
      obtain ⟨p, hpo, hp⟩ := ih o hod ho houter (hod.le.trans hdn)
      exact ⟨p, hpo.trans hod.le, hp⟩
    · exact ⟨d, Nat.le_refl d, hd, (h.marked_iff hin _).mp hd, hnone⟩

theorem blanked_of_blanked (h : DifferInside lines lines') (hn : Blanked lines n) :
    Blanked lines' n := by
  obtain ⟨d, hdn, hd, hnone⟩ := hn
  obtain ⟨o, hod, -, ho, houter⟩ := h.exists_opening hd hnone hdn
  exact ⟨o, hod.trans hdn, ho, fun j hj hoj hen => houter j hj hoj (h.enables_iff.mpr hen)⟩

theorem insideClosed_of_insideClosed (h : DifferInside lines lines') (hn : InsideClosed lines n) :
    InsideClosed lines' n := by
  obtain ⟨d, e, hdn, hne, hd, he, hnone⟩ := hn
  obtain ⟨o, hod, -, ho, houter⟩ := h.exists_opening hd (fun j hj hlt => hnone j hlt hj)
    (hdn.trans hne).le
  refine ⟨o, e, hod.trans_lt hdn, hne, ho, h.enables_iff.mp he, fun j hoj hj hen => ?_⟩
  exact houter j hj hoj (h.enables_iff.mpr hen)

theorem symm (h : DifferInside lines lines') : DifferInside lines' lines where
  length := h.length.symm
  inside := by
    intro n hne
    obtain ⟨hin, hen, hen'⟩ := h.inside n hne.symm
    exact ⟨h.insideClosed_of_insideClosed hin, hen', hen⟩

theorem blanked_iff (h : DifferInside lines lines') : Blanked lines n ↔ Blanked lines' n :=
  ⟨h.blanked_of_blanked, h.symm.blanked_of_blanked⟩

/-- A disable marker that stays open is not inside of a closed region, so it is in both lists. -/
theorem staysOpen_of_staysOpen (h : DifferInside lines lines') (hd : StaysOpen lines d) :
    StaysOpen lines' d := by
  have hin : ¬ InsideClosed lines d := by
    rintro ⟨o, e, -, hde, -, he, -⟩
    exact hd.2 e hde he
  exact ⟨(h.marked_iff hin _).mp hd.1, fun j hj hen => hd.2 j hj (h.enables_iff.mpr hen)⟩

theorem staysOpen_iff (h : DifferInside lines lines') :
    StaysOpen lines d ↔ StaysOpen lines' d :=
  ⟨h.staysOpen_of_staysOpen, h.symm.staysOpen_of_staysOpen⟩

end DifferInside

/-- **What stands strictly inside a closed region is not read.** -/
theorem ofString_eq_of_differInside {text text' : String}
    (h : DifferInside (rawLines text) (rawLines text')) :
    Source.ofString text = Source.ofString text' := by
  have hlines : (Source.ofString text).lines = (Source.ofString text').lines := by
    refine Array.ext_getElem? fun n => ?_
    cases hline : (rawLines text)[n]? with
    | none =>
      have hle := List.getElem?_eq_none_iff.mp hline
      rw [Array.getElem?_eq_none, Array.getElem?_eq_none]
      · exact (lastIndex_ofString text').le.trans (h.length ▸ hle)
      · exact (lastIndex_ofString text).le.trans hle
    | some line =>
      obtain ⟨line', hline'⟩ : ∃ line', (rawLines text')[n]? = some line' := by
        have hlt := (List.getElem?_eq_some_iff.mp hline).1
        exact ⟨_, List.getElem?_eq_getElem (h.length ▸ hlt)⟩
      have hread := line?_ofString text hline
      have hread' := line?_ofString text' hline'
      refine Eq.trans hread (Eq.trans ?_ hread'.symm)
      simp only [← h.blanked_iff]
      split
      · rfl
      · next hkept =>
        -- A line that is kept is not inside of a region, so it is the same.
        have hsame : (rawLines text)[n]? = (rawLines text')[n]? := by
          by_contra hne
          exact hkept (h.inside n hne).1.blanked
        rw [hline, hline'] at hsame
        rw [Option.some.inj hsame]
  have hissues : (Source.ofString text).issues = (Source.ofString text').issues := by
    have hirrefl : Std.Irrefl fun a b : LineIssue => a.line < b.line := ⟨fun a => Nat.lt_irrefl _⟩
    have hantisymm : Std.Antisymm fun a b : LineIssue => a.line < b.line :=
      ⟨fun a b hab hba => absurd hab (Nat.lt_asymm hba)⟩
    refine (sorted_issues_ofString text).eq_of_mem_iff (sorted_issues_ofString text') fun i => ?_
    rw [mem_issues_ofString, mem_issues_ofString, h.enables_iff, h.blanked_iff]
    have hset : {d | StaysOpen (rawLines text) d} = {d | StaysOpen (rawLines text') d} :=
      Set.ext fun d => h.staysOpen_iff
    rw [hset]
  cases hsource : Source.ofString text
  cases hsource' : Source.ofString text'
  simp_all

/-- **Regions**: what the markers of a text are to its source and to the passes over it. -/
structure RegionsRead (text : String) : Prop where
  /-- Each physical line is a line of the source. -/
  lastIndex : (Source.ofString text).lastIndex = (rawLines text).length
  /-- A line of a region is empty and not quiet. -/
  blanked : ∀ n line, (rawLines text)[n]? = some line → Blanked (rawLines text) (n + 1) →
    (Source.ofString text).line? (n + 1) = some { text := "", quiet := false }
  /-- Any other line is kept; it is quiet if it ends quietly. -/
  kept : ∀ n line, (rawLines text)[n]? = some line → ¬ Blanked (rawLines text) (n + 1) →
    ∃ kept, (Source.ofString text).line? (n + 1) = some kept ∧ kept.text = String.ofList line ∧
      (kept.quiet = true ↔ EndsQuiet line)
  /-- Every enable marker that is kept is an issue, and the first disable marker that stays open is
  one. -/
  issues : ∀ i, i ∈ (Source.ofString text).issues ↔
    (i.rule = .unopenedEnable ∧ Enables (rawLines text) i.line ∧
      ¬ Blanked (rawLines text) i.line) ∨
    i.rule = .unclosedDisable ∧ IsLeast {d | StaysOpen (rawLines text) d} i.line
  /-- Issues stand in strict order of their lines. -/
  sorted : (Source.ofString text).issues.Pairwise fun a b => a.line < b.line
  /-- A disable marker is the last issue. -/
  last : ∀ front i back, (Source.ofString text).issues = front ++ i :: back →
    i.rule = .unclosedDisable → back = []
  /-- A text that differs strictly inside closed regions alone gives the same passes. -/
  unread : ∀ text', DifferInside (rawLines text) (rawLines text') → ∀ settings,
    Pass.run settings text = Pass.run settings text' ∧
      verify settings text = verify settings text'

/-- **The regions of every text** are read as its markers say. -/
theorem regions_read (text : String) : RegionsRead text where
  lastIndex := lastIndex_ofString text
  blanked := by
    intro n line hline hblanked
    rw [line?_ofString text hline, if_pos hblanked]
  kept := by
    intro n line hline hkept
    refine ⟨.ofText line, ?_, rfl, quiet_ofText_iff line⟩
    rw [line?_ofString text hline, if_neg hkept]
  issues := mem_issues_ofString text
  sorted := sorted_issues_ofString text
  last := by
    intro front i back hsplit hrule
    have hmem (j : LineIssue) (hj : j ∈ i :: back) : j ∈ (Source.ofString text).issues := by
      rw [hsplit]
      exact List.mem_append_right _ hj
    have hsorted := sorted_issues_ofString text
    rw [hsplit, List.pairwise_append, List.pairwise_cons] at hsorted
    refine List.eq_nil_iff_forall_not_mem.mpr fun j hj => ?_
    -- Behind the marker there is no enable marker, and it is the only one of its kind.
    have hlt := hsorted.2.1.1 j hj
    have hopen : IsLeast {d | StaysOpen (rawLines text) d} i.line := by
      rcases (mem_issues_ofString text i).mp (hmem i List.mem_cons_self) with ⟨hopened, -⟩ | ⟨-, hi⟩
      · rw [hrule] at hopened
        cases hopened
      · exact hi
    rcases (mem_issues_ofString text j).mp (hmem j (List.mem_cons_of_mem i hj)) with
      ⟨-, hen, -⟩ | ⟨-, hleast⟩
    · exact hopen.1.2 _ hlt hen
    · exact absurd (hopen.unique hleast) hlt.ne
  unread := by
    intro text' h settings
    have hsource := ofString_eq_of_differInside h
    have hpass : Pass.run settings text = Pass.run settings text' := by
      rw [Pass.run, Pass.run, hsource]
    refine ⟨hpass, ?_⟩
    rw [verify_eq_run, verify_eq_run, hpass]

/-- A region that holds a number and one that holds an unclosed template literal. -/
theorem unread_of_region :
    Pass.run {} "/*jslint-disable*/\n1\n/*jslint-enable*/\n2" =
      Pass.run {} "/*jslint-disable*/\n\x60\n/*jslint-enable*/\n2" := by
  refine ((regions_read _).unread _ ⟨by decide +kernel, fun n hne => ?_⟩ {}).1
  have hinside : InsideClosed (rawLines "/*jslint-disable*/\n1\n/*jslint-enable*/\n2") 2 := by
    refine ⟨1, 3, by omega, by omega, by decide +kernel, by decide +kernel, fun j hlt hgt => ?_⟩
    obtain rfl : j = 2 := by omega
    decide +kernel
  rcases n with _ | _ | _ | _ | n
  · exact absurd (by decide +kernel) hne
  · exact ⟨hinside, by decide +kernel, by decide +kernel⟩
  · exact absurd (by decide +kernel) hne
  · exact absurd (by decide +kernel) hne
  · have hnone (lines : List (List Char)) (h : lines.length = 4) : lines[n + 4]? = none :=
      List.getElem?_eq_none (by omega)
    rw [hnone _ (by decide +kernel), hnone _ (by decide +kernel)] at hne
    exact absurd rfl hne

end ScriptLint
