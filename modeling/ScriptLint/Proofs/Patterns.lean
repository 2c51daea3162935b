import ScriptLint.Proofs.Literal.Delimiting
import ScriptLint.Proofs.Scan.Additions
import ScriptLint.Proofs.Slices

/-!
# Where regular expressions begin and end

A token of a regular expression is a pattern between slashes and its flags: the closing
slash is the first one in no escape and no class, outside of both the parentheses of the
pattern are balanced, and the flags are the whole run of letters behind the slash.

The reader sees its line with spaces for tabs.  That is no matter: neither belongs to any
structure, so the text of the source has a pattern where the line as read has one.

## Main definitions

* `untab` — a space for a tab
* `Token.RegexOf` — what the text of a regular expression is to the lines

## Main statements

* `RegexAhead.of_untab` — a regular expression with tabs
* `regex_of_completed` — the regular expressions of a completed pass
-/

namespace ScriptLint

/-! ### Tabs -/

/-- A space for a tab. -/
def untab (c : Char) : Char := if c = '\t' then ' ' else c

theorem untabbed_eq (text : List Char) : State.untabbed text = text.map untab := rfl

/-- What does not tell a tab from a space sees no difference. -/
theorem apply_untab {α : Type} {g : Char → α} (hg : g ' ' = g '\t') (c : Char) :
    g (untab c) = g c := by
  unfold untab
  split
  · next htab => rw [hg, htab]
  · rfl

/-- Any other character stands for itself alone. -/
theorem untab_eq_iff {c d : Char} (hd : d ≠ ' ' ∧ d ≠ '\t') : untab c = d ↔ c = d := by
  refine iff_of_eq (apply_untab (g := (· = d)) ?_ c)
  exact propext ⟨fun h => absurd h.symm hd.1, fun h => absurd h.symm hd.2⟩

theorem mem_map_untab {c : Char} (hc : c ≠ ' ' ∧ c ≠ '\t') {text : List Char} :
    c ∈ text.map untab ↔ c ∈ text := by
  simp [List.mem_map, untab_eq_iff hc]

theorem count_map_untab {c : Char} (hc : c ≠ ' ' ∧ c ≠ '\t') (text : List Char) :
    (text.map untab).count c = text.count c := by
  rw [List.count, List.countP_map]
  refine List.countP_congr fun d _ => ?_
  simp [untab_eq_iff hc]

/-- Where a character stands in a text with spaces for tabs, it stands in the text. -/
theorem exists_of_map_untab {text front back : List Char} {c : Char} (hc : c ≠ ' ' ∧ c ≠ '\t')
    (h : text.map untab = front ++ c :: back) :
    ∃ front' back', text = front' ++ c :: back' ∧ front = front'.map untab ∧
      back = back'.map untab := by
  obtain ⟨front', tail, rfl, rfl, htail⟩ := List.map_eq_append_iff.mp h
  obtain ⟨d, back', rfl, hd, rfl⟩ := List.map_eq_cons_iff.mp htail
  obtain rfl := (untab_eq_iff hc).mp hd
  exact ⟨front', back', rfl, rfl, rfl⟩

/-- An automaton that does not tell a tab from a space picks the same characters. -/
theorem picked_map_untab {σ : Type} {after : σ → Char → σ} {picks : σ → Char → Bool}
    (hafter : ∀ s, after s ' ' = after s '\t') (hpicks : ∀ s, picks s ' ' = picks s '\t')
    (s : σ) (text : List Char) :
    picked after picks s (text.map untab) = (picked after picks s text).map untab := by
  induction text generalizing s with
  | nil => rfl
  | cons c text ih =>
    rw [List.map_cons, picked, picked, apply_untab (hafter s), apply_untab (hpicks s), ih]
    split
    · rfl
    · rfl

theorem foldl_map_untab {σ : Type} {after : σ → Char → σ}
    (hafter : ∀ s, after s ' ' = after s '\t') (s : σ) (text : List Char) :
    (text.map untab).foldl after s = text.foldl after s := by
  rw [List.foldl_map]
  exact List.foldl_ext _ _ _ fun s c _ => apply_untab (hafter s) c

/-! ### Patterns with tabs -/

namespace Stage

theorem after_blank (stage : Stage) : stage.after ' ' = stage.after '\t' := by
  cases stage <;> decide

theorem takes_blank (stage : Stage) : stage.takes ' ' = stage.takes '\t' := by
  cases stage <;> rfl

theorem behind_map_untab (stage : Stage) (text : List Char) :
    stage.behind (text.map untab) = stage.behind text :=
  foldl_map_untab after_blank stage text

theorem loose_map_untab (stage : Stage) (text : List Char) :
    stage.loose (text.map untab) = (stage.loose text).map untab :=
  picked_map_untab after_blank (fun s => congrArg (! ·) (takes_blank s)) stage text

end Stage

namespace Zone

theorem after_blank (zone : Zone) : zone.after ' ' = zone.after '\t' := by
  rw [after, after, zone.stage.after_blank, zone.stage.takes_blank]
  rfl

theorem bares_blank (zone : Zone) : zone.bares ' ' = zone.bares '\t' := by
  rw [bares, bares, zone.stage.takes_blank]

theorem behind_map_untab (zone : Zone) (text : List Char) :
    zone.behind (text.map untab) = zone.behind text :=
  foldl_map_untab after_blank zone text

theorem outline_map_untab (zone : Zone) (text : List Char) :
    zone.outline (text.map untab) = (zone.outline text).map untab :=
  picked_map_untab after_blank bares_blank zone text

end Zone

theorem Nested.of_untab {depth : Nat} {word : List Char} (h : Nested depth (word.map untab)) :
    Nested depth word := by
  obtain ⟨hcount, hfront⟩ := h
  rw [count_map_untab (by decide), count_map_untab (by decide)] at hcount
  refine ⟨hcount, fun front hpre => ?_⟩
  have hle := hfront _ (hpre.map untab)
  rwa [count_map_untab (by decide), count_map_untab (by decide)] at hle

/-- A text is a pattern if it is one with spaces for its tabs. -/
theorem Patterned.of_untab {body : List Char} (h : Patterned (body.map untab)) :
    Patterned body := by
  obtain ⟨hslash, hfirst, hbalanced, hclasses, hbracket, hprefixes⟩ := h
  rw [Zone.behind_map_untab] at hslash
  rw [Zone.outline_map_untab, mem_map_untab (by decide)] at hfirst hbracket
  rw [Zone.outline_map_untab] at hbalanced
  refine ⟨hslash, hfirst, hbalanced.of_untab, ?_, hbracket, ?_⟩
  · intro front back hsplit hbares
    obtain ⟨members, rest, hback, hnone, htakes⟩ := hclasses (front.map untab) (back.map untab)
      (by rw [hsplit]; simp [untab]) (by rwa [Zone.behind_map_untab])
    obtain ⟨members', rest', rfl, rfl, rfl⟩ := exists_of_map_untab (by decide) hback
    rw [Stage.loose_map_untab, mem_map_untab (by decide)] at hnone
    rw [Stage.behind_map_untab] at htakes
    exact ⟨members', rest', rfl, hnone, htakes⟩
  · intro front back hsplit hbares
    obtain ⟨c, hc, hhead⟩ := hprefixes (front.map untab) (back.map untab)
      (by rw [hsplit]; simp [untab]) (by rwa [Zone.behind_map_untab])
    refine ⟨c, hc, ?_⟩
    rw [List.head?_map, Option.map_eq_some_iff] at hhead
    obtain ⟨d, hd, heq⟩ := hhead
    have hplain : c ≠ ' ' ∧ c ≠ '\t' := by
      refine ⟨?_, ?_⟩
      · rintro rfl
        exact absurd hc (by decide)
      · rintro rfl
        exact absurd hc (by decide)
    rwa [(untab_eq_iff hplain).mp heq] at hd

/-- **Tabs do not matter**: a text begins with a regular expression as it does with spaces for its
tabs. -/
theorem RegexAhead.of_untab {text body flags back : List Char}
    (h : RegexAhead (text.map untab) body flags back) :
    ∃ body' flags' back', RegexAhead text body' flags' back' ∧ body = body'.map untab ∧
      flags = flags'.map untab := by
  obtain ⟨htext, hpattern, hletters, hnext⟩ := h
  obtain ⟨c, tail, rfl, hc, htail⟩ := List.map_eq_cons_iff.mp htext
  obtain rfl := (untab_eq_iff (by decide)).mp hc
  obtain ⟨body', behind, rfl, rfl, hbehind⟩ := exists_of_map_untab (by decide) htail
  obtain ⟨flags', back', rfl, rfl, rfl⟩ := List.map_eq_append_iff.mp hbehind.symm
  refine ⟨body', flags', back', ⟨rfl, hpattern.of_untab, ?_, ?_⟩, rfl, rfl⟩
  · intro c hc
    rw [← apply_untab (g := Char.isAlpha) rfl c]
    exact hletters _ (List.mem_map_of_mem hc)
  · intro c hc
    obtain ⟨hletter, hslash, hstar⟩ := hnext (untab c) (by
      rw [List.head?_map, hc]
      exact rfl)
    rw [apply_untab (g := Char.isAlpha) rfl] at hletter
    rw [Ne, untab_eq_iff (by decide)] at hslash hstar
    exact ⟨hletter, hslash, hstar⟩

/-! ### Completed passes -/

/-- **A regular expression of the lines**: its token goes from the slash that opens it to the end of
its flags. -/
def Token.RegexOf (line : Nat → List Char) (t : Token) : Prop :=
  ∃ body flags back, RegexAhead ((line t.start.line).drop t.start.column) body flags back ∧
    t.stop = ⟨t.start.line, t.start.column + (body.length + flags.length + 2)⟩

/-- Only the line on which it starts matters, and there no tabs. -/
theorem Token.RegexOf.of_untab {line line' : Nat → List Char} {t : Token} (h : t.RegexOf line)
    (hline : line t.start.line = (line' t.start.line).map untab) : t.RegexOf line' := by
  obtain ⟨body, flags, back, hahead, hstop⟩ := h
  rw [hline, ← List.map_drop] at hahead
  obtain ⟨body', flags', back', hahead', rfl, rfl⟩ := hahead.of_untab
  rw [List.length_map, List.length_map] at hstop
  exact ⟨body', flags', back', hahead', hstop⟩

/-- A regular expression that a state reads is one of the line ahead. -/
theorem State.ReadsRegex.regexAhead {s : State} {t : Token} (h : s.ReadsRegex t) :
    ∃ body flags back, RegexAhead s.rest body flags back ∧
      t.stop = ⟨s.line, s.column + (body.length + flags.length + 2)⟩ := by
  obtain ⟨tail, read, missesFlag, hrest, hread, -, hstop⟩ := h
  obtain ⟨body, flags, back, hahead, htaken, -⟩ := Strand.regexAhead_of_regex _ hread
  refine ⟨body, flags, back, hrest ▸ hahead, hstop.trans ?_⟩
  have hlength : read.taken.length = body.length + flags.length + 1 := by
    rw [← List.length_reverse, htaken, List.length_append, List.length_cons]
    omega
  rw [hlength]

/-- A step that adds a regular expression reads it where it stands. -/
theorem State.Adds.readsRegex {s u : State} (h : Adds s u) {t : Token} (hkind : t.kind = .regex)
    (hbefore : t ∉ s.tokens) (hadded : t ∈ u.tokens) : t.start = s.position ∧ s.ReadsRegex t := by
  cases h with
  | none htokens => exact absurd (htokens ▸ hadded) hbefore
  | read _ hstart hread htokens =>
    rw [htokens] at hadded
    obtain rfl := (List.mem_cons.mp hadded).resolve_right hbefore
    refine ⟨hstart, ?_⟩
    cases hread with
    | regex _ _ _ hread => exact hread
    | word hother _ _ => simp [hkind] at hother
    | literal hother _ _ => simp [hkind] at hother
    | division hother _ _ _ => simp [hkind] at hother
    | punctuation hother _ _ _ _ _ => simp [hkind] at hother
  | part _ hpart _ _ hstop htokens =>
    rw [htokens] at hadded
    rcases List.mem_cons.mp hadded with rfl | hadded
    · simp [Token.isOperator, hkind] at hstop
    · obtain rfl := (List.mem_cons.mp hadded).resolve_right hbefore
      exact absurd (hkind.symm.trans hpart.1) (by decide)

/-- In a scan that completes, regular expressions are those of the lines as read. -/
theorem regexOf_lineRead {source : Source} (h : (scan source).fault = none) {t : Token}
    (ht : t ∈ (scan source).tokens) (hkind : t.kind = .regex) :
    t.RegexOf (source.lineRead (scan source).tokens) := by
  obtain ⟨u, v, hreach, hstep, hbefore, hadded⟩ := exists_step_of_completed h ht (by simp [hkind])
  obtain ⟨hstart, hregex⟩ := (State.adds_of_step hstep).readsRegex hkind hbefore hadded
  obtain ⟨body, flags, back, hahead, hstop⟩ := hregex.regexAhead
  rw [rest_of_reaches_completed h hreach] at hahead
  rw [Token.RegexOf, hstart]
  exact ⟨body, flags, back, hahead, hstop⟩

/-- In a scan that completes, regular expressions are those of the lines of the source. -/
theorem regexOf_textAt {source : Source} (h : (scan source).fault = none) {t : Token}
    (ht : t ∈ (scan source).tokens) (hkind : t.kind = .regex) :
    t.RegexOf fun n => (source.textAt n).toList := by
  have hread := regexOf_lineRead h ht hkind
  by_cases hinside : startsInTemplate (scan source).tokens t.start.line
  · obtain ⟨body, flags, back, hahead, hstop⟩ := hread
    rw [Source.lineRead, if_pos hinside] at hahead
    exact ⟨body, flags, back, hahead, hstop⟩
  · refine hread.of_untab ?_
    rw [Source.lineRead, if_neg hinside, untabbed_eq]

/-- **Regular expressions are delimited by their text.**  In a pass that completes, the token of a
regular expression is, in the text of its source, a pattern between slashes and its flags.  Here an
escape without its closing brace takes what stands in the place of it. -/
theorem regex_of_completed (settings : Settings) (text : String)
    (h : (Pass.run settings text).abort = none) {t : Token}
    (ht : t ∈ (Pass.run settings text).tokens) (hkind : t.kind = .regex) :
    t.RegexOf fun n => ((Source.ofString text).textAt n).toList :=
  regexOf_textAt (fault_eq_none_of_abort h) ht hkind

/-- A pattern with groups, an escaped slash, a tab, and a class that holds a slash and a bracket. -/
theorem regex_of_groups :
    ∃ t ∈ (Pass.run {} "a = /(?:[/\\]]|\\/)\t(b)/gi;").tokens, t.kind = .regex ∧ t.start = ⟨1, 4⟩ ∧
      t.stop = ⟨1, 24⟩ ∧
      t.RegexOf fun n => ((Source.ofString "a = /(?:[/\\]]|\\/)\t(b)/gi;").textAt n).toList := by
  obtain ⟨t, ht, hkind, hstart, hstop⟩ :
      ∃ t ∈ (Pass.run {} "a = /(?:[/\\]]|\\/)\t(b)/gi;").tokens, t.kind = .regex ∧
        t.start = ⟨1, 4⟩ ∧ t.stop = ⟨1, 24⟩ := by decide +kernel
  exact ⟨t, ht, hkind, hstart, hstop, regex_of_completed {} _ (by decide +kernel) ht hkind⟩

end ScriptLint
