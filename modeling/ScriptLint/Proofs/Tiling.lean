import Mathlib.Data.List.Pairwise
import ScriptLint.Proofs.Places
import ScriptLint.Proofs.Scan.Placement

/-!
# Tokens tile the source

A completed scan loses nothing and repeats nothing: its tokens stand in order, do not
overlap, and cover every character that is no blank.  The proof is one invariant of the
legs, `Tiled`: the tokens so far tile the source up to the place reached.  A move either
goes over blanks or adds a token that starts exactly where the scan stands, so the tiled
part grows without a seam, also where a template or a comment crosses lines.

## Main definitions

* `Tiling` — what the tokens of a completed scan are to their source
* `Tiled` — the invariant

## Main statements

* `tiling_of_completed` — the tokens of a completed pass are a tiling
-/

namespace ScriptLint

open Track

/-! ### Tilings -/

/-- **Tiling**: the tokens of a source, in order. -/
structure Tiling (source : Source) (tokens : List Token) : Prop where
  /-- Tokens are numbered from 0. -/
  nr : ∀ (i : Nat) (t : Token), tokens[i]? = some t → t.nr = i
  /-- No token stops before it starts. -/
  start_le_stop : ∀ t ∈ tokens, t.start ≤ t.stop
  /-- Of two neighbours the first stops before the second starts. -/
  ordered : ∀ (i : Nat) (a b : Token), tokens[i]? = some a → tokens[i + 1]? = some b →
    a.stop ≤ b.start
  /-- Tokens start and stop inside the source. -/
  inside : ∀ t ∈ tokens, source.Contains t.start ∧ source.Contains t.stop
  /-- Every character that is no blank is covered by exactly one token; a first line that
  starts with `#!` is left out. -/
  covered : ∀ (p : Position) (c : Char), source.charAt? p = some c → isBlank c = false →
    ¬ (p.line = 1 ∧ source.hasInterpreterLine = true) → ∃! t, t ∈ tokens ∧ t.Covers p
  /-- Between neighbours there are only blanks and line ends. -/
  gaps : ∀ (i : Nat) (a b : Token), tokens[i]? = some a → tokens[i + 1]? = some b →
    ∀ (p : Position) (c : Char), a.stop ≤ p → p < b.start → source.charAt? p = some c →
      isBlank c = true
  /-- Only the text of a template and the end of the source may be empty. -/
  empty : ∀ t ∈ tokens, t.start = t.stop →
    t.kind = .eof ∨ t.kind = .string ∧ t.quote = some '\x60'
  /-- The last token is the end of the source, and no other is. -/
  last : ∃ front e, tokens = front ++ [e] ∧ e.kind = .eof ∧ (∀ t ∈ front, t.kind ≠ .eof) ∧
    e.start = ⟨source.lastIndex, source.lengthAt source.lastIndex⟩ ∧ e.stop = e.start

/-! ### Blanks as they are read -/

/-- Spaces for tabs leave blanks blank. -/
theorem Source.isBlank_readAt (source : Source) (tokens : List Token) (n k : Nat) :
    (source.readAt tokens n)[k]?.map isBlank = (source.textAt n).toList[k]?.map isBlank := by
  have htab : ∀ c : Char, isBlank (if c = '\t' then ' ' else c) = isBlank c := by
    intro c
    split
    · next h =>
      rw [h]
      rfl
    · rfl
  unfold readAt
  split
  · rfl
  · rw [State.untabbed, List.getElem?_map, Option.map_map]
    exact congrArg (fun f => Option.map f _) (funext htab)

/-- A character of the source that is left on the line is blank where the rest is. -/
theorem Placed.isBlank_of_mem_rest {source : Source} {s : Track} (h : Placed source s)
    {p : Position} {c : Char} {n : Nat} (hline : p.line = s.line) (hle : s.column ≤ p.column)
    (hlt : p.column < s.column + n) (hc : source.charAt? p = some c)
    (hblank : ∀ d ∈ s.rest.take n, isBlank d = true) : isBlank c = true := by
  have hread := source.isBlank_readAt s.tokens s.line p.column
  rw [Source.charAt?, hline] at hc
  rw [hc] at hread
  cases hd : (source.readAt s.tokens s.line)[p.column]? with
  | none => simp [hd] at hread
  | some d =>
    have hmem : d ∈ s.rest.take n := by
      refine List.mem_of_getElem? (i := p.column - s.column) ?_
      rw [List.getElem?_take_of_lt (by omega), h.rest, List.getElem?_drop,
        Nat.add_sub_cancel' hle, hd]
    simp only [hd, Option.map_some, Option.some.injEq] at hread
    rw [← hread]
    exact hblank d hmem

/-! ### The invariant -/

/-- **Tiled**: the tokens so far tile the source from the place `origin` where the scan began
up to the place it has reached. -/
structure Tiled (source : Source) (origin : Position) (s : Track) : Prop where
  placed : Placed source s
  /-- The scan has gone on from where it began. -/
  origin_le : origin ≤ s.position
  /-- The next token has the number of tokens as its own. -/
  nextNr : s.nextNr = s.tokens.length
  /-- Each token has the number of those before it. -/
  nr : ∀ (i : Nat) (t : Token), s.tokens.reverse[i]? = some t → t.nr = i
  /-- Each token starts behind the ones before it. -/
  ordered : s.tokens.Pairwise fun later earlier => earlier.stop ≤ later.start
  bounds : ∀ t ∈ s.tokens, origin ≤ t.start ∧ t.start ≤ t.stop ∧ t.stop ≤ s.position
  inside : ∀ t ∈ s.tokens, source.Contains t.start ∧ source.Contains t.stop
  kind : ∀ t ∈ s.tokens, t.kind ≠ .eof
  empty : ∀ t ∈ s.tokens, t.start = t.stop → t.kind = .string ∧ t.quote = some '\x60'
  /-- Every character up to the place reached that is no blank is covered. -/
  covered : ∀ p c, origin ≤ p → p < s.position → source.charAt? p = some c →
    isBlank c = false → ∃ t ∈ s.tokens, t.Covers p

/-- Numbers stay those of the places when the next token is put last. -/
theorem nr_of_reverse_cons {t : Token} {tokens : List Token} (hnr : t.nr = tokens.length)
    (h : ∀ (i : Nat) (x : Token), tokens.reverse[i]? = some x → x.nr = i) (i : Nat) (x : Token)
    (hx : (t :: tokens).reverse[i]? = some x) : x.nr = i := by
  rw [List.reverse_cons] at hx
  rcases Nat.lt_or_ge i tokens.length with hlt | hge
  · rw [List.getElem?_append_left (by simpa using hlt)] at hx
    exact h i x hx
  · rw [List.getElem?_append_right (by simpa using hge), List.length_reverse] at hx
    have hi : i = tokens.length := by
      have hlast := (List.getElem?_eq_some_iff.mp hx).1
      rw [List.length_singleton] at hlast
      omega
    rw [hi, Nat.sub_self] at hx
    obtain rfl := Option.some.inj hx
    rw [hnr, hi]

namespace Tiled

variable {source : Source} {origin : Position} {s u : Track}

/-- Going over blanks keeps the tiling. -/
theorem skip (h : Tiled source origin s) (hu : Placed source u) (htokens : u.tokens = s.tokens)
    (hle : s.position ≤ u.position)
    (hblank : ∀ p c, s.position ≤ p → p < u.position → source.charAt? p = some c →
      isBlank c = true) : Tiled source origin u := by
  have hnext : u.nextNr = s.nextNr := by
    unfold Track.nextNr
    rw [htokens]
  refine ⟨hu, h.origin_le.trans hle, ?_, ?_, ?_, ?_, ?_, ?_, ?_, ?_⟩
  · rw [hnext, htokens]
    exact h.nextNr
  · rw [htokens]
    exact h.nr
  · rw [htokens]
    exact h.ordered
  · rw [htokens]
    intro t ht
    obtain ⟨hfrom, hextent, hstop⟩ := h.bounds t ht
    exact ⟨hfrom, hextent, hstop.trans hle⟩
  · rw [htokens]
    exact h.inside
  · rw [htokens]
    exact h.kind
  · rw [htokens]
    exact h.empty
  · rw [htokens]
    intro p c hfrom hp hc hne
    rcases lt_or_ge p s.position with hlt | hge
    · exact h.covered p c hfrom hlt hc hne
    · rw [hblank p c hge hp hc] at hne
      cases hne

/-- A token from the place reached to a place further on extends the tiling. -/
theorem extend (h : Tiled source origin s) {t : Token} (hu : Placed source u)
    (hadd : Placed source (u.add t)) (htokens : u.tokens = s.tokens) (hspans : Spans s u t)
    (hle : s.position ≤ u.position) (hline : 1 ≤ s.line) (hkind : t.kind ≠ .eof)
    (hempty : t.start = t.stop → t.kind = .string ∧ t.quote = some '\x60') :
    Tiled source origin (u.add t) := by
  have hadded : (u.add t).tokens = t :: s.tokens := by
    show t :: u.tokens = _
    rw [htokens]
  have hnr : t.nr = s.tokens.length := hspans.nr.trans h.nextNr
  have hmem : ∀ {P : Token → Prop}, P t → (∀ x ∈ s.tokens, P x) → ∀ x ∈ (u.add t).tokens, P x := by
    intro P ht hs x hx
    rw [hadded] at hx
    rcases List.mem_cons.mp hx with rfl | hx
    · exact ht
    · exact hs x hx
  have hfrom : source.Contains t.start := by
    rw [hspans.start]
    exact ⟨hline, h.placed.line_le, h.placed.column_le⟩
  have hto : source.Contains t.stop := by
    rw [hspans.stop]
    refine ⟨?_, hu.line_le, hu.column_le⟩
    rcases Position.le_iff.mp hle with hlt | ⟨heq, -⟩
    · exact hline.trans (Nat.le_of_lt hlt)
    · exact heq ▸ hline
  refine ⟨hadd, h.origin_le.trans hle, ?_, ?_, ?_, ?_, hmem ⟨hfrom, hto⟩ h.inside,
    hmem hkind h.kind, hmem hempty h.empty, ?_⟩
  · rw [hadded]
    show t.nr + 1 = _
    rw [hnr]
    rfl
  · rw [hadded]
    exact nr_of_reverse_cons hnr h.nr
  · rw [hadded]
    refine List.pairwise_cons.mpr ⟨?_, h.ordered⟩
    intro x hx
    rw [hspans.start]
    exact (h.bounds x hx).2.2
  · refine hmem ⟨?_, ?_, ?_⟩ fun x hx => ?_
    · rw [hspans.start]
      exact h.origin_le
    · rw [hspans.start, hspans.stop]
      exact hle
    · rw [hspans.stop]
      exact le_refl _
    · obtain ⟨hbegin, hextent, hstop⟩ := h.bounds x hx
      exact ⟨hbegin, hextent, hstop.trans hle⟩
  · rw [hadded]
    intro p c hbegin hp hc hne
    -- Before the place reached the earlier tokens cover, behind it the new one does.
    rcases lt_or_ge p s.position with hlt | hge
    · obtain ⟨x, hx, hcovers⟩ := h.covered p c hbegin hlt hc hne
      exact ⟨x, List.mem_cons_of_mem t hx, hcovers⟩
    · refine ⟨t, List.mem_cons_self, ?_, ?_⟩
      · rw [hspans.start]
        exact hge
      · rw [hspans.stop]
        exact hp

/-- Inside a template a line has been entered: the backtick that opened it stands on one. -/
theorem one_le_line_of_inTemplate (h : Tiled source origin s) (hin : s.inTemplate = true) :
    1 ≤ s.line := by
  have hodd : backticksBefore s.tokens (s.line + 1) % 2 = 1 := by
    simpa [hin] using h.placed.mode.symm
  have hpos : 0 < backticksBefore s.tokens (s.line + 1) := by omega
  obtain ⟨t, ht, -⟩ := List.countP_pos_iff.mp hpos
  exact (h.inside t ht).1.one_le_line.trans (h.placed.start_le t ht)

theorem of_part (h : Tiled source origin s) (hpart : Part s u) : Tiled source origin u := by
  have hu := h.placed.of_part hpart
  have hle := position_le_of_part hpart
  obtain @⟨v, n, t, opening, hmode, hcross, hlt, hspans, hkind, hquote⟩ := hpart
  have hin : s.inTemplate = true := by simp [Track.inTemplate, hmode, Mode.opening?]
  have htokens : (v.advance n).tokens = s.tokens := crosses_tokens (s := s) (t := v) hcross
  exact h.extend ((h.placed.crosses hcross).advance hlt.le) hu htokens hspans hle
    (h.one_le_line_of_inTemplate hin) (by simp [hkind]) fun _ => ⟨hkind, hquote⟩

theorem of_lexeme (h : Tiled source origin s) (hlex : Lexeme s u) : Tiled source origin u := by
  have hu := h.placed.of_lexeme hlex
  have hlt := position_lt_of_lexeme hlex
  obtain @⟨n, t, hpos, hle, hspans, hspelled, hnest⟩ := hlex
  have hline : 1 ≤ s.line := h.placed.one_le_line (List.length_pos_iff.mp (hpos.trans_le hle))
  refine h.extend (h.placed.advance hle) hu rfl hspans hlt.le hline ?_
    fun heq => absurd heq (hspans.start_ne_stop hlt)
  cases hspelled with
  | verbatim hkind _ =>
    intro heof
    rw [heof] at hkind
    cases hkind
  | quoted quote _ hkind _ _ => simp [hkind]

theorem of_move (h : Tiled source origin s) (hmove : Move s u) : Tiled source origin u := by
  have hu := h.placed.of_move hmove
  have hlt := position_lt_of_move hmove
  cases hmove with
  | line hrest hbelow =>
    have hend : source.lengthAt s.line ≤ s.column := by
      have hlength := h.placed.length_rest
      rw [hrest, List.length_nil] at hlength
      omega
    refine h.skip hu rfl hlt.le ?_
    -- Between the end of a line and the start of the next there is no character.
    intro p c hfrom hto hc
    have hcolumn := (Source.contains_of_charAt? hc).2
    rcases Position.lt_iff.mp hto with hbefore | ⟨-, hneg⟩
    · have hline : p.line = s.line := by
        rcases Position.le_iff.mp hfrom with hgt | ⟨heq, -⟩
        · exact absurd (Nat.lt_succ_iff.mp hbefore) (Nat.not_le.mpr hgt)
        · exact heq.symm
      rw [hline] at hcolumn
      rcases Position.le_iff.mp hfrom with hgt | ⟨-, hge⟩
      · exact absurd (hline ▸ hgt) (Nat.lt_irrefl _)
      · exact absurd (hend.trans hge) (Nat.not_le.mpr hcolumn)
    · exact absurd hneg (Nat.not_lt_zero _)
  | blanks hpos hle hblank =>
    refine h.skip hu rfl hlt.le ?_
    intro p c hfrom hto hc
    obtain ⟨hline, hge, hwithin⟩ := of_mem_advance hfrom hto
    exact h.placed.isBlank_of_mem_rest hline hge hwithin hc hblank
  | lexeme hlex => exact h.of_lexeme hlex
  | lineComment hrest hspans hkind _ =>
    have hline := h.placed.one_le_line (hrest ▸ List.cons_ne_nil _ _)
    exact h.extend (h.placed.advance (Nat.le_refl _)) hu rfl hspans hlt.le hline
      (by simp [hkind]) fun heq => absurd heq (hspans.start_ne_stop hlt)
  | @blockComment text v n t hrest hcross hle hspans hkind =>
    have htwo : 2 ≤ s.rest.length := by
      rw [hrest]
      simp
    have hline := h.placed.one_le_line (hrest ▸ List.cons_ne_nil _ _)
    have htokens : (v.advance n).tokens = s.tokens :=
      crosses_tokens (s := s.advance 2) (t := v) hcross
    exact h.extend (((h.placed.advance htwo).crosses hcross).advance hle) hu htokens hspans hlt.le
      hline (by simp [hkind]) fun heq => absurd heq (hspans.start_ne_stop hlt)

theorem of_leg (h : Tiled source origin s) (hleg : Leg s u) : Tiled source origin u := by
  cases hleg with
  | move _ hmove => exact h.of_move hmove
  | template hpart hstop => exact (h.of_part hpart).of_lexeme hstop

/-- At the beginning nothing is to be covered. -/
theorem initial (source : Source) :
    Tiled source (State.initial source.lines.toList).position
      (State.initial source.lines.toList).track := by
  have htokens := State.tokens_initial source.lines.toList
  refine ⟨.initial source, le_refl _, ?_, ?_, ?_, ?_, ?_, ?_, ?_, ?_⟩
  · simp [Track.nextNr, htokens]
  · simp [htokens]
  · simp [htokens]
  · simp [htokens]
  · simp [htokens]
  · simp [htokens]
  · simp [htokens]
  · intro p c hfrom hto
    exact absurd hto (not_lt.mpr hfrom)

/-! ### The end of the source -/

/-- What holds of the tokens so far and of the last one holds of all in order. -/
theorem forall_mem_reverse_append {P : Token → Prop} {tokens : List Token} {e : Token}
    (htokens : ∀ t ∈ tokens, P t) (he : P e) : ∀ t ∈ tokens.reverse ++ [e], P t := by
  intro t ht
  rcases List.mem_append.mp ht with ht | ht
  · exact htokens t (List.mem_reverse.mp ht)
  · rw [List.mem_singleton.mp ht]
    exact he

/-- With the end of the source each token still starts behind the ones before it. -/
theorem ordered_end (h : Tiled source origin s) {e : Token} (hspans : Spans s s e) :
    (s.tokens.reverse ++ [e]).Pairwise fun a b => a.stop ≤ b.start := by
  refine List.pairwise_append.mpr
    ⟨List.pairwise_reverse.mpr h.ordered, List.pairwise_singleton _ _, ?_⟩
  intro a ha b hb
  rw [List.mem_singleton.mp hb, hspans.start]
  exact (h.bounds a (List.mem_reverse.mp ha)).2.2

/-- With the end of the source no token stops before it starts, nor starts before the scan. -/
theorem bounds_end (h : Tiled source origin s) {e : Token} (hspans : Spans s s e) :
    ∀ t ∈ s.tokens.reverse ++ [e], origin ≤ t.start ∧ t.start ≤ t.stop := by
  refine forall_mem_reverse_append (fun t ht => ⟨(h.bounds t ht).1, (h.bounds t ht).2.1⟩) ?_
  rw [hspans.start, hspans.stop]
  exact ⟨h.origin_le, le_refl _⟩

/-- At the end of the source every character has been gone over, so the tokens cover it unless it
is blank. -/
theorem covered_end (h : Tiled source origin s) (hrest : s.rest = []) (hbelow : s.below = [])
    {p : Position} {c : Char} (hfrom : origin ≤ p) (hc : source.charAt? p = some c)
    (hne : isBlank c = false) : ∃ t ∈ s.tokens, t.Covers p := by
  obtain ⟨hcontains, hcolumn⟩ := Source.contains_of_charAt? hc
  obtain ⟨hline, hend⟩ := h.placed.at_end hrest hbelow
  have hp := hcontains.line_le
  rw [← hline] at hp
  refine h.covered p c hfrom ?_ hc hne
  rcases Nat.lt_or_eq_of_le hp with hlt | heq
  · exact Position.lt_iff.mpr (.inl hlt)
  · refine Position.lt_iff.mpr (.inr ⟨heq, ?_⟩)
    rw [heq] at hcolumn
    exact hcolumn.trans_eq hend.symm

end Tiled

/-- Tokens of which each starts behind the ones before it do not share a place. -/
theorem eq_of_covers {tokens : List Token} (hordered : tokens.Pairwise fun a b => a.stop ≤ b.start)
    {a b : Token} (ha : a ∈ tokens) (hb : b ∈ tokens) {p : Position} (hap : a.Covers p)
    (hbp : b.Covers p) : a = b := by
  have hsymm : Std.Symm fun a b : Token => ¬ (a.Covers p ∧ b.Covers p) :=
    ⟨fun _ _ h hboth => h hboth.symm⟩
  have hdisjoint : tokens.Pairwise fun a b => ¬ (a.Covers p ∧ b.Covers p) := by
    refine hordered.imp ?_
    rintro a b hle ⟨ha, hb⟩
    exact absurd (ha.2.trans_le (hle.trans hb.1)) (lt_irrefl p)
  by_contra hne
  exact hdisjoint.forall ha hb hne ⟨hap, hbp⟩

/-- No token covers a place between two neighbours. -/
theorem not_covers_of_between {tokens : List Token}
    (hordered : tokens.Pairwise fun a b => a.stop ≤ b.start)
    (hextent : ∀ t ∈ tokens, t.start ≤ t.stop) {i : Nat} {a b x : Token}
    (ha : tokens[i]? = some a) (hb : tokens[i + 1]? = some b) (hx : x ∈ tokens) {p : Position}
    (hfrom : a.stop ≤ p) (hto : p < b.start) : ¬ x.Covers p := by
  rintro ⟨hstart, hstop⟩
  obtain ⟨hi, rfl⟩ := List.getElem?_eq_some_iff.mp ha
  obtain ⟨hi', rfl⟩ := List.getElem?_eq_some_iff.mp hb
  obtain ⟨j, hj, rfl⟩ := List.getElem_of_mem hx
  rw [List.pairwise_iff_getElem] at hordered
  rcases Nat.lt_trichotomy j i with hlt | rfl | hgt
  · have hle := (hordered j i hj hi hlt).trans (hextent _ (List.getElem_mem hi))
    exact absurd (hstop.trans_le (hle.trans hfrom)) (lt_irrefl p)
  · exact absurd (hstop.trans_le hfrom) (lt_irrefl p)
  · rcases Nat.lt_or_eq_of_le (Nat.succ_le_of_lt hgt) with hbehind | rfl
    · have hle := (hextent _ (List.getElem_mem hi')).trans (hordered (i + 1) j hi' hj hbehind)
      exact absurd (hto.trans_le (hle.trans hstart)) (lt_irrefl p)
    · exact absurd (hto.trans_le hstart) (lt_irrefl p)

/-- Only a first line that starts with `#!` lies before the beginning of a scan. -/
theorem initial_position_le {source : Source} {p : Position} (hline : 1 ≤ p.line)
    (hskip : ¬ (p.line = 1 ∧ source.hasInterpreterLine = true)) :
    (State.initial source.lines.toList).position ≤ p := by
  rw [← State.track_position]
  rcases State.track_initial source.lines.toList with htrack | ⟨line, below, hlines, hmark, htrack⟩
  · rw [htrack]
    exact Position.le_iff.mpr (.inl hline)
  · -- The scan begins behind the first line, which is left out.
    have hinterpreter : source.hasInterpreterLine = true := by
      rw [Source.hasInterpreterLine, Source.textAt_one hlines, hmark]
    have hne : p.line ≠ 1 := fun h => hskip ⟨h, hinterpreter⟩
    rw [htrack]
    refine Position.le_iff.mpr (.inl ?_)
    show 0 + 1 < p.line
    omega

/-- Every reached state is tiled. -/
theorem tiled_of_reaches {source : Source} {s : State}
    (h : State.Reaches (.initial source.lines.toList) s) :
    Tiled source (State.initial source.lines.toList).position s.track :=
  h.invariant (fun _ _ hs hleg => hs.of_leg hleg) (.initial source)

/-- The tokens of a completed scan are a tiling of its source. -/
theorem tiling_of_scan {source : Source} (hlines : 1 ≤ source.lastIndex)
    (h : (scan source).fault = none) : Tiling source (scan source).tokens := by
  obtain ⟨s, hreach, -, hrest, hbelow, e, hkind, hspans, htokens⟩ := reached_of_completed h .refl
  have hs := tiled_of_reaches hreach
  have hposition : s.track.position = ⟨source.lastIndex, source.lengthAt source.lastIndex⟩ := by
    obtain ⟨hline, hend⟩ := hs.placed.at_end hrest hbelow
    rw [← hline, ← hend]
    rfl
  have hordered := hs.ordered_end hspans
  have hbounds := hs.bounds_end hspans
  have hextent : ∀ t ∈ s.tokens.reverse ++ [e], t.start ≤ t.stop := fun t ht => (hbounds t ht).2
  have hmem : ∀ {t}, t ∈ s.tokens → t ∈ s.tokens.reverse ++ [e] := fun ht =>
    List.mem_append_left _ (List.mem_reverse.mpr ht)
  rw [htokens, List.reverse_cons]
  constructor
  case nr =>
    rw [← List.reverse_cons]
    exact nr_of_reverse_cons (hspans.nr.trans hs.nextNr) hs.nr
  case start_le_stop => exact hextent
  case ordered =>
    intro i a b ha hb
    obtain ⟨hi, rfl⟩ := List.getElem?_eq_some_iff.mp ha
    obtain ⟨hi', rfl⟩ := List.getElem?_eq_some_iff.mp hb
    exact List.pairwise_iff_getElem.mp hordered i (i + 1) hi hi' (Nat.lt_succ_self i)
  case inside =>
    have hcontains : source.Contains s.track.position := by
      rw [hposition]
      exact ⟨hlines, le_refl _, le_refl _⟩
    exact Tiled.forall_mem_reverse_append hs.inside
      ⟨hspans.start ▸ hcontains, hspans.stop ▸ hcontains⟩
  case covered =>
    intro p c hc hne hskip
    have hfrom := initial_position_le (Source.contains_of_charAt? hc).1.one_le_line hskip
    obtain ⟨t, ht, hcovers⟩ := hs.covered_end hrest hbelow hfrom hc hne
    exact ⟨t, ⟨hmem ht, hcovers⟩, fun x hx => eq_of_covers hordered hx.1 (hmem ht) hx.2 hcovers⟩
  case gaps =>
    intro i a b ha hb p c hfrom hto hc
    obtain ⟨hbegin, hle⟩ := hbounds a (List.mem_of_getElem? ha)
    -- What is no blank would be covered, by a token in between.
    by_contra hne
    obtain ⟨t, ht, hcovers⟩ := hs.covered_end hrest hbelow ((hbegin.trans hle).trans hfrom) hc
      (Bool.not_eq_true _ ▸ hne)
    exact not_covers_of_between hordered hextent ha hb (hmem ht) hfrom hto hcovers
  case empty =>
    exact Tiled.forall_mem_reverse_append (fun t ht heq => .inr (hs.empty t ht heq))
      fun _ => .inl hkind
  case last =>
    refine ⟨s.tokens.reverse, e, rfl, hkind, ?_, ?_, ?_⟩
    · exact fun t ht => hs.kind t (List.mem_reverse.mp ht)
    · exact hspans.start.trans hposition
    · rw [hspans.start, hspans.stop]

/-- The tokens of a completed scan stand one behind the other. -/
theorem ordered_of_scan {source : Source} (h : (scan source).fault = none) :
    (scan source).tokens.Pairwise fun a b => a.stop ≤ b.start := by
  obtain ⟨s, hreach, -, -, -, e, -, hspans, htokens⟩ := reached_of_completed h .refl
  rw [htokens, List.reverse_cons]
  exact (tiled_of_reaches hreach).ordered_end hspans

/-- **Lossless tiling.**  Under any settings, the tokens of a pass that completes are a tiling
of its source. -/
theorem tiling_of_completed (settings : Settings) (text : String)
    (h : (Pass.run settings text).abort = none) :
    Tiling (.ofString text) (Pass.run settings text).tokens :=
  tiling_of_scan (Source.one_le_lastIndex text) (fault_eq_none_of_abort h)

/-- A source with an interpreter line, a template over two lines and a comment over two. -/
theorem tiling_of_template :
    Tiling (.ofString "#! node\nlet a = \x60x\t$\x7bb\x7d\ny\x60; /* c\n*/")
      (Pass.run {} "#! node\nlet a = \x60x\t$\x7bb\x7d\ny\x60; /* c\n*/").tokens :=
  tiling_of_completed {} _ (by decide +kernel)

end ScriptLint
