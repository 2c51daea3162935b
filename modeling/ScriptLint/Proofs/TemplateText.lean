import ScriptLint.Proofs.Scan.Additions
import ScriptLint.Proofs.Slices

/-!
# The text of templates

The text of a template is the text of its lines, with a newline for every line end in it,
up to the first backtick or `${` that no backslash takes.  The lines meant are the lines
**as read**.  Those that start inside the template are read verbatim, but a template may
open in the middle of a line, and that line has spaces for its tabs.

## Main definitions

* `endsInPair` — a text ends between a backslash and what it takes
* `FirstDelimiter`, `NoDelimiter` — where a delimiter stops a line of a template, and lines
  without one
* `chunk`, `stretch`, `textBetween` — the text between two places, line by line
* `Token.TextOf` — what the text of a template is to the lines

## Main statements

* `templateText_of_completed` — the text of templates in a completed pass
* `spaces_behind_backtick` — a tab behind an opening backtick is no tab in the text
-/

namespace ScriptLint

/-! ### Delimiters -/

/-- A text ends between a backslash and the character it takes, when backslashes take characters
in pairs from its beginning. -/
def endsInPair : List Char → Bool
  | [] => false
  | ['\\'] => true
  | '\\' :: _ :: rest => endsInPair rest
  | _ :: rest => endsInPair rest

/-- A delimiter of the text of a template is next: a backtick or `${`. -/
def Delimits (text : List Char) : Prop := ['\x60'] <+: text ∨ ['$', '{'] <+: text

/-- **The first delimiter** of a line of a template stands between `front` and `back`. -/
structure FirstDelimiter (front back : List Char) : Prop where
  delimiter : Delimits back
  unpaired : endsInPair front = false
  first : ∀ front' back', front ++ back = front' ++ back' → Delimits back' →
    endsInPair front' = false → front.length ≤ front'.length

/-- **No delimiter** on a line of a template: a backslash takes every one. -/
def NoDelimiter (text : List Char) : Prop :=
  ∀ front back, text = front ++ back → Delimits back → endsInPair front = true

theorem endsInPair_pair (c : Char) (text : List Char) :
    endsInPair ('\\' :: c :: text) = endsInPair text := rfl

theorem endsInPair_cons {c : Char} (hc : c ≠ '\\') (text : List Char) :
    endsInPair (c :: text) = endsInPair text := by
  rw [endsInPair]
  · exact fun hslash => absurd hslash hc
  · exact fun _ _ hslash => absurd hslash hc

/-- A backslash is no delimiter. -/
theorem not_delimits_backslash (text : List Char) : ¬Delimits ('\\' :: text) := by
  rintro (h | h)
  · exact absurd (List.cons_prefix_cons.mp h).1 (by decide)
  · exact absurd (List.cons_prefix_cons.mp h).1 (by decide)

/-- Where a text splits into one that ends in no pair and a delimiter, a pair at its beginning is in
the first part. -/
theorem exists_eq_pair {c : Char} {text front back : List Char}
    (h : '\\' :: c :: text = front ++ back) (hback : Delimits back)
    (hfront : endsInPair front = false) :
    ∃ tail, front = '\\' :: c :: tail ∧ text = tail ++ back := by
  rcases List.cons_eq_append_iff.mp h with ⟨rfl, rfl⟩ | ⟨tail, rfl, htail⟩
  · exact absurd hback (not_delimits_backslash _)
  · rcases List.cons_eq_append_iff.mp htail with ⟨rfl, rfl⟩ | ⟨tail, rfl, htext⟩
    · cases hfront
    · exact ⟨tail, rfl, htext⟩

/-- The same of a single character that opens no delimiter. -/
theorem exists_eq_cons {c : Char} {text front back : List Char} (h : c :: text = front ++ back)
    (hback : Delimits back) (hnot : ¬Delimits (c :: text)) :
    ∃ tail, front = c :: tail ∧ text = tail ++ back := by
  rcases List.cons_eq_append_iff.mp h with ⟨rfl, rfl⟩ | ⟨tail, rfl, htail⟩
  · exact absurd hback hnot
  · exact ⟨tail, rfl, htail⟩

/-! ### The text on a line -/

theorem NoDelimiter.nil : NoDelimiter [] := by
  intro front back heq hback
  obtain ⟨rfl, rfl⟩ := List.append_eq_nil_iff.mp heq.symm
  exact absurd hback (by simp [Delimits])

theorem NoDelimiter.pair {text : List Char} (h : NoDelimiter text) (c : Char) :
    NoDelimiter ('\\' :: c :: text) := by
  intro front back heq hback
  rw [← Bool.not_eq_false]
  intro hfront
  obtain ⟨tail, rfl, htail⟩ := exists_eq_pair heq hback hfront
  rw [endsInPair_pair, h tail back htail hback] at hfront
  cases hfront

theorem NoDelimiter.cons {text : List Char} {c : Char} (h : NoDelimiter text) (hc : c ≠ '\\')
    (hnot : ¬Delimits (c :: text)) : NoDelimiter (c :: text) := by
  intro front back heq hback
  obtain ⟨tail, rfl, htail⟩ := exists_eq_cons heq hback hnot
  rw [endsInPair_cons hc]
  exact h tail back htail hback

/-- A backslash at the end of a line takes nothing. -/
theorem NoDelimiter.backslash : NoDelimiter ['\\'] := by
  intro front back heq hback
  obtain ⟨tail, rfl, htail⟩ := exists_eq_cons heq hback (not_delimits_backslash [])
  obtain ⟨rfl, rfl⟩ := List.append_eq_nil_iff.mp htail.symm
  exact absurd hback (by simp [Delimits])

theorem FirstDelimiter.nil {text : List Char} (h : Delimits text) : FirstDelimiter [] text :=
  ⟨h, rfl, fun _ _ _ _ _ => Nat.zero_le _⟩

theorem FirstDelimiter.pair {front back : List Char} (h : FirstDelimiter front back) (c : Char) :
    FirstDelimiter ('\\' :: c :: front) back := by
  refine ⟨h.delimiter, h.unpaired, ?_⟩
  intro front' back' heq hback hfront
  obtain ⟨tail, rfl, htail⟩ := exists_eq_pair heq hback hfront
  have hle := h.first tail back' htail hback hfront
  simp only [List.length_cons]
  omega

theorem FirstDelimiter.cons {front back : List Char} {c : Char} (h : FirstDelimiter front back)
    (hc : c ≠ '\\') (hnot : ¬Delimits (c :: (front ++ back))) :
    FirstDelimiter (c :: front) back := by
  refine ⟨h.delimiter, (endsInPair_cons hc front).trans h.unpaired, ?_⟩
  intro front' back' heq hback hfront
  obtain ⟨tail, rfl, htail⟩ := exists_eq_cons heq hback hnot
  rw [endsInPair_cons hc] at hfront
  have hle := h.first tail back' htail hback hfront
  simp only [List.length_cons]
  omega

/-- **The text of a template on a line** goes up to its first delimiter, or to the end of a line
without one. -/
theorem first_of_templateChunk (taken text : List Char) :
    ∃ front back, text = front ++ back ∧ (templateChunk taken text).1 = front.reverse ++ taken ∧
      ((templateChunk taken text).2 = .lineEnd ∧ back = [] ∧ NoDelimiter front ∨
        (templateChunk taken text).2 ≠ .lineEnd ∧ FirstDelimiter front back) := by
  fun_induction templateChunk taken text with
  | case1 => exact ⟨[], [], rfl, rfl, .inl ⟨rfl, rfl, .nil⟩⟩
  | case2 taken back => exact ⟨[], _, rfl, rfl, .inr ⟨by simp, .nil (.inl (by simp))⟩⟩
  | case3 taken back => exact ⟨[], _, rfl, rfl, .inr ⟨by simp, .nil (.inr (by simp))⟩⟩
  | case4 taken c rest ih =>
    obtain ⟨front, back, rfl, hread, hstop⟩ := ih
    refine ⟨'\\' :: c :: front, back, rfl, by rw [hread]; simp, ?_⟩
    exact hstop.imp (fun h => ⟨h.1, h.2.1, h.2.2.pair c⟩) fun h => ⟨h.1, h.2.pair c⟩
  | case5 taken c rest htick hdollar hslash ih =>
    obtain ⟨front, back, rfl, hread, hstop⟩ := ih
    refine ⟨c :: front, back, rfl, by rw [hread]; simp, ?_⟩
    by_cases hc : c = '\\'
    · -- The backslash is the last character of its line.
      have hnil : front ++ back = [] := by
        cases hrest : front ++ back with
        | nil => rfl
        | cons d tail => exact absurd hrest (hslash d tail hc)
      obtain ⟨rfl, rfl⟩ := List.append_eq_nil_iff.mp hnil
      rw [hc]
      exact .inl ⟨rfl, rfl, .backslash⟩
    · have hnot : ¬Delimits (c :: (front ++ back)) := by
        rintro (h | h)
        · exact htick (List.cons_prefix_cons.mp h).1.symm
        · obtain ⟨hd, tail, htail⟩ := List.cons_prefix_cons.mp h
          exact hdollar tail hd.symm htail.symm
      rcases hstop with ⟨hend, rfl, hnone⟩ | ⟨hend, hfirst⟩
      · rw [List.append_nil] at hnot
        exact .inl ⟨hend, rfl, hnone.cons hc hnot⟩
      · exact .inr ⟨hend, hfirst.cons hc hnot⟩

/-! ### The text between two places -/

/-- The column at which the text from a place on begins, on a line. -/
def Position.columnOn (p : Position) (n : Nat) : Nat := if n = p.line then p.column else 0

/-- What stands on a line from a place on. -/
def chunk (line : Nat → List Char) (p : Position) (n : Nat) : List Char :=
  (line n).drop (p.columnOn n)

/-- What stands on a line between two places. -/
def stretch (line : Nat → List Char) (p q : Position) (n : Nat) : List Char :=
  if n = q.line then (line n).extract (p.columnOn n) q.column else chunk line p n

/-- **The text between two places**, with one newline for every line end between them. -/
def textBetween (line : Nat → List Char) (p q : Position) : List Char :=
  ['\n'].intercalate ((List.range' p.line (q.line + 1 - p.line)).map (stretch line p q))

/-- **The extent of text of a template**: no line between two places has a delimiter before the
second one, and the first delimiter stands there. -/
structure RunsTo (line : Nat → List Char) (p q : Position) : Prop where
  line_le : p.line ≤ q.line
  passed : ∀ n, p.line ≤ n → n < q.line → NoDelimiter (chunk line p n)
  stop : FirstDelimiter (stretch line p q q.line) ((line q.line).drop q.column)

variable {line : Nat → List Char} {p q : Position}

/-- Below the line of a place its column does not matter. -/
theorem chunk_of_lt {n : Nat} (h : p.line < n) : chunk line p n = line n := by
  rw [chunk, Position.columnOn, if_neg h.ne', List.drop_zero]

theorem chunk_line : chunk line p p.line = (line p.line).drop p.column := by
  rw [chunk, Position.columnOn, if_pos rfl]

/-- Below the line of a place the text from there on is that from the beginning of the next line. -/
theorem chunk_next {n : Nat} (h : p.line < n) :
    chunk line ⟨p.line + 1, 0⟩ n = chunk line p n := by
  rw [chunk_of_lt h, chunk, Position.columnOn, ite_self, List.drop_zero]

theorem stretch_next {n : Nat} (h : p.line < n) :
    stretch line ⟨p.line + 1, 0⟩ q n = stretch line p q n := by
  have hcolumn : Position.columnOn ⟨p.line + 1, 0⟩ n = p.columnOn n := by
    rw [Position.columnOn, Position.columnOn, ite_self, if_neg h.ne']
  rw [stretch, stretch, hcolumn, chunk_next h]

/-- The text that ends on its first line. -/
theorem textBetween_same (h : p.line = q.line) :
    textBetween line p q = (line p.line).extract p.column q.column := by
  rw [textBetween, ← h, Nat.add_sub_cancel_left]
  simp [stretch, h, Position.columnOn]

/-- The text that goes on on the next line. -/
theorem textBetween_next (h : p.line < q.line) :
    textBetween line p q =
      (line p.line).drop p.column ++ '\n' :: textBetween line ⟨p.line + 1, 0⟩ q := by
  obtain ⟨k, hk⟩ : ∃ k, q.line = p.line + 1 + k := ⟨q.line - (p.line + 1), by omega⟩
  have hstretch : (List.range' (p.line + 1) (k + 1)).map (stretch line p q) =
      (List.range' (p.line + 1) (k + 1)).map (stretch line ⟨p.line + 1, 0⟩ q) := by
    refine List.map_congr_left fun n hn => (stretch_next ?_).symm
    have hfrom := (List.mem_range'_1.mp hn).1
    omega
  have hfirst : stretch line p q p.line = (line p.line).drop p.column := by
    rw [stretch, if_neg h.ne, chunk_line]
  have hcount : q.line + 1 - p.line = k + 1 + 1 ∧ q.line + 1 - (p.line + 1) = k + 1 := by
    omega
  rw [textBetween, textBetween, hcount.1, hcount.2, List.range'_succ, List.map_cons, hfirst,
    hstretch, List.range'_succ, List.map_cons]
  rfl

theorem RunsTo.next (hp : p.line < q.line) (hnone : NoDelimiter ((line p.line).drop p.column))
    (h : RunsTo line ⟨p.line + 1, 0⟩ q) : RunsTo line p q := by
  refine ⟨hp.le, ?_, ?_⟩
  · intro n hfrom hto
    rcases Nat.eq_or_lt_of_le hfrom with rfl | hlt
    · rwa [chunk_line]
    · rw [← chunk_next hlt]
      exact h.passed n hlt hto
  · rw [← stretch_next hp]
    exact h.stop

/-- Only the lines up to the second place matter. -/
theorem stretch_congr {line' : Nat → List Char} {n : Nat} (h : line' n = line n) :
    stretch line' p q n = stretch line p q n := by
  rw [stretch, stretch, chunk, chunk, h]

theorem textBetween_congr {line' : Nat → List Char} (h : ∀ n ≤ q.line, line' n = line n) :
    textBetween line' p q = textBetween line p q := by
  refine congrArg _ (List.map_congr_left fun n hn => stretch_congr (h n ?_))
  obtain ⟨hfrom, hto⟩ := List.mem_range'_1.mp hn
  omega

theorem RunsTo.congr {line' : Nat → List Char} (hruns : RunsTo line p q)
    (h : ∀ n ≤ q.line, line' n = line n) : RunsTo line' p q := by
  refine ⟨hruns.line_le, ?_, ?_⟩
  · intro n hfrom hto
    rw [chunk, h n hto.le]
    exact hruns.passed n hfrom hto
  · rw [stretch_congr (h _ (Nat.le_refl _)), h _ (Nat.le_refl _)]
    exact hruns.stop

/-- The text up to a delimiter on its first line. -/
theorem RunsTo.same {front back : List Char} (hp : (line p.line).drop p.column = front ++ back)
    (hfirst : FirstDelimiter front back) :
    RunsTo line p ⟨p.line, p.column + front.length⟩ ∧
      textBetween line p ⟨p.line, p.column + front.length⟩ = front := by
  have hextract : (line p.line).extract p.column (p.column + front.length) = front := by
    rw [List.extract_eq_take_drop, Nat.add_sub_cancel_left, hp, List.take_left]
  refine ⟨⟨Nat.le_refl _, fun n hfrom hto => absurd hto (Nat.not_lt.mpr hfrom), ?_⟩, ?_⟩
  · have hback : (line p.line).drop (p.column + front.length) = back := by
      rw [← List.drop_drop, hp, List.drop_left]
    rwa [stretch, if_pos rfl, Position.columnOn, if_pos rfl, hextract, hback]
  · exact (textBetween_same (p := p) (q := ⟨p.line, p.column + front.length⟩) rfl).trans hextract

/-! ### The text of a part -/

namespace State

variable {source : Source} {s t : State}

/-- **What the text of a template runs over**: the lines as read, from where the scan stands up to
the first delimiter. -/
theorem runsTo_of_templateText {text text' : List Char} {stop : TemplateStop}
    (hs : Placed source s.track) (h : s.templateText text = .ok (text', stop, t)) :
    t.tokens = s.tokens ∧ RunsTo (source.readAt s.tokens) s.position t.position ∧
      text' = (textBetween (source.readAt s.tokens) s.position t.position).reverse ++ text := by
  fun_induction templateText text s with
  | case1 text s read hread u hu ih =>
    obtain ⟨line, below, hbelow, htrack⟩ := track_of_nextLine? hu
    have hplaced : Placed source u.track := by
      rw [htrack]
      exact hs.enter hbelow
    have hposition : u.position = ⟨s.line + 1, 0⟩ := congrArg Track.position htrack
    have htokens : u.tokens = s.tokens := congrArg Track.tokens htrack
    obtain ⟨hsame, hruns, htext⟩ := ih hplaced h
    rw [htokens, hposition] at hruns htext
    obtain ⟨front, back, hrest, htaken, ⟨-, rfl, hnone⟩ | ⟨hstop, -⟩⟩ :=
      first_of_templateChunk [] s.rest
    · rw [List.append_nil] at hrest htaken
      rw [← hrest] at hnone htaken
      have hline : (source.readAt s.tokens s.line).drop s.column = s.rest := hs.rest.symm
      have hnext : s.position.line < t.position.line := hruns.line_le
      refine ⟨hsame.trans htokens, hruns.next hnext ?_, ?_⟩
      · show NoDelimiter ((source.readAt s.tokens s.line).drop s.column)
        rwa [hline]
      · rw [htext, textBetween_next hnext]
        show _ = ((source.readAt s.tokens s.line).drop s.column ++ _).reverse ++ text
        rw [hline, show read.1 = _ from htaken]
        simp [position]
    · exact absurd hread hstop
  | case2 => cases h
  | case3 text s read hread =>
    simp only [Except.ok.injEq, Prod.mk.injEq] at h
    obtain ⟨rfl, rfl, rfl⟩ := h
    obtain ⟨front, back, hrest, htaken, ⟨hend, -⟩ | ⟨-, hfirst⟩⟩ :=
      first_of_templateChunk [] s.rest
    · exact absurd hend hread
    · rw [List.append_nil] at htaken
      have hline : (source.readAt s.tokens s.line).drop s.column = front ++ back :=
        hs.rest.symm.trans hrest
      have hlength : read.1.length = front.length := by
        rw [show read.1 = _ from htaken, List.length_reverse]
      obtain ⟨hruns, htext⟩ := RunsTo.same (p := s.position) hline hfirst
      have hposition : (s.advance read.1.length).position =
          ⟨s.position.line, s.position.column + front.length⟩ := by
        rw [hlength]
        rfl
      rw [hposition]
      refine ⟨rfl, hruns, ?_⟩
      rw [htext, show read.1 = _ from htaken]

/-- The text of a template is added inside one. -/
theorem templatePart_of_adding (h : s.step = .next t) {part : Token} (htext : part.IsText)
    (hbefore : part ∉ s.tokens) (hadded : part ∈ t.tokens) :
    ∃ opening, s.mode = .template opening ∧ s.templatePart opening = .next t := by
  have hother (hread : ∃ new, s.Reads new ∧ t.tokens = new :: s.tokens) : False := by
    obtain ⟨new, hread, htokens⟩ := hread
    rw [htokens] at hadded
    obtain rfl := (List.mem_cons.mp hadded).resolve_right hbefore
    obtain ⟨hkind, hquote⟩ := htext
    cases hread with
    | word hword _ _ => rcases hword with hword | hword <;> simp [hword] at hkind
    | literal _ _ hnot => exact hnot hquote
    | regex hregex _ _ _ => simp [hregex] at hkind
    | division hop _ _ _ => simp [hop] at hkind
    | punctuation hop _ _ _ _ _ => simp [hop] at hkind
  cases adds_of_step h with
  | none htokens => exact absurd (htokens ▸ hadded) hbefore
  | read _ _ hread htokens => exact (hother ⟨_, hread, htokens⟩).elim
  | @part opening hmode _ _ _ _ _ _ _ =>
    refine ⟨opening, hmode, ?_⟩
    rw [← h, step, hmode]

/-- The text of a template is what its step reads, up to its delimiter; how the lines up to there
were read neither token changes. -/
theorem text_of_templatePart (hs : Placed source s.track) {opening : Position}
    (h : s.templatePart opening = .next t) {part : Token} (htext : part.IsText)
    (hbefore : part ∉ s.tokens) (hadded : part ∈ t.tokens) :
    ∃ text stop u, s.templateText [] = .ok (text, stop, u) ∧
      part.value = String.ofList text.reverse ∧ part.start = s.position ∧
      part.stop = u.position ∧ t.line = u.line ∧
      ∀ n ≤ u.line, source.readAt t.tokens n = source.readAt s.tokens n := by
  unfold templatePart at h
  split at h
  · cases h
  · next text stop u hu =>
    extract_lets base v at h
    let part' : Token := { base with quote := some '\x60' }
    have hv : v.track = { u.track with tokens := part' :: u.tokens } := u.track_push part'
    have hutokens : u.tokens = s.tokens := (runsTo_of_templateText hs hu).1
    -- Whatever the delimiter, it is an operator where the text ends.
    obtain ⟨stop', hkind, hstart, htokens, hline⟩ : ∃ stop' : Token, stop'.kind = .operator ∧
        stop'.start.line = u.line ∧ t.tokens = stop' :: part' :: s.tokens ∧ t.line = u.line := by
      have hpush (n : Nat) (value : String) :
          (v.pushNext n .operator value).tokens =
            (v.advance n).token .operator value v.position :: part' :: s.tokens ∧
          (v.pushNext n .operator value).line = u.line := by
        refine ⟨?_, ?_⟩
        · rw [tokens_pushNext, ← hutokens]
          exact congrArg (_ :: ·) (congrArg Track.tokens hv)
        · have hline : (v.pushNext n .operator value).line = v.line :=
            congrArg Track.line (track_push (v.advance n) _)
          exact hline.trans (congrArg Track.line hv)
      have hplace : v.position.line = u.line := congrArg Track.line hv
      split at h
      · obtain rfl := Step.next.inj h
        exact ⟨_, rfl, hplace, (hpush 2 "$\x7b").1, (hpush 2 "$\x7b").2⟩
      · obtain rfl := Step.next.inj h
        exact ⟨_, rfl, hplace, (hpush 1 "\x60").1, (hpush 1 "\x60").2⟩
    obtain rfl : part = part' := by
      rw [htokens] at hadded
      rcases List.mem_cons.mp hadded with rfl | hadded
      · exact absurd (htext.1.symm.trans hkind) (by decide)
      · exact (List.mem_cons.mp hadded).resolve_right hbefore
    refine ⟨text, stop, u, hu, rfl, rfl, rfl, hline, fun n hn => ?_⟩
    rw [htokens, source.readAt_cons_of_le _ fun _ => hn.trans_eq hstart.symm]
    exact source.readAt_cons_of_le _ fun htick => by simp [Token.isOperator, htext.1] at htick

end State

/-! ### Completed passes -/

/-- **The text of a template** is what stands between its start and its stop. -/
structure Token.TextOf (line : Nat → List Char) (t : Token) : Prop where
  value : t.value.toList = textBetween line t.start t.stop
  extent : RunsTo line t.start t.stop

/-- **Template text is kept as read.**  In a pass that completes, the text of a template is that of
its extent in the lines as read, up to its first delimiter; and every line of it but the first is
read verbatim. -/
theorem templateText_of_completed (settings : Settings) (text : String)
    (h : (Pass.run settings text).abort = none) {t : Token}
    (ht : t ∈ (Pass.run settings text).tokens) (htext : t.IsText) :
    t.TextOf ((Source.ofString text).lineRead (Pass.run settings text).tokens) ∧
      ∀ n, t.start.line < n → n ≤ t.stop.line →
        (Source.ofString text).lineRead (Pass.run settings text).tokens n =
          ((Source.ofString text).textAt n).toList := by
  have hfault := fault_eq_none_of_abort h
  have hkind : t.kind ≠ .eof := by
    rw [htext.1]
    decide
  obtain ⟨u, v, hreach, hstep, hbefore, hadded⟩ := exists_step_of_completed hfault ht hkind
  have hplaced := placed_of_reaches hreach
  obtain ⟨opening, hmode, hpart⟩ := State.templatePart_of_adding hstep htext hbefore hadded
  obtain ⟨text', stop, w, hread, hvalue, hstart, hstop, hline, hkeep⟩ :=
    State.text_of_templatePart hplaced hpart htext hbefore hadded
  obtain ⟨-, hruns, htaken⟩ := State.runsTo_of_templateText hplaced hread
  have hlines : ∀ n ≤ w.position.line,
      (Source.ofString text).lineRead (Pass.run settings text).tokens n =
        (Source.ofString text).readAt u.tokens n := fun n hn =>
    (lineRead_of_reaches_completed hfault (hreach.tail hstep) (hn.trans_eq hline.symm)).trans
      (hkeep n hn)
  rw [hstart, hstop]
  refine ⟨⟨?_, ?_⟩, ?_⟩
  · rw [hvalue, String.toList_ofList, htaken, hstart, hstop, List.append_nil, List.reverse_reverse,
      textBetween_congr hlines]
  · rw [hstart, hstop]
    exact hruns.congr hlines
  · intro n hfrom hto
    have hopen : u.track.inTemplate = true := by
      show u.mode.opening?.isSome = true
      rw [hmode]
      rfl
    have hodd := hopen.symm.trans hplaced.inTemplate_eq
    have habove : ∀ x ∈ u.tokens, x.start.line < n := fun x hx =>
      (hplaced.start_le x hx).trans_lt hfrom
    rw [hlines n hto, Source.readAt, if_pos]
    rw [backticksBefore_eq_countP habove]
    exact of_decide_eq_true hodd.symm

/-- Text over three lines, with a tab behind the backtick, one at the beginning of a line and a
backtick that a backslash takes, and text behind an interpolation. -/
theorem templateText_of_lines :
    ∃ t ∈ (Pass.run {} "\x60a\tb\n\tc\\\x60\n$\x7b1\x7dd\x60").tokens, t.IsText ∧ t.start = ⟨1, 1⟩ ∧
      t.TextOf ((Source.ofString "\x60a\tb\n\tc\\\x60\n$\x7b1\x7dd\x60").lineRead
        (Pass.run {} "\x60a\tb\n\tc\\\x60\n$\x7b1\x7dd\x60").tokens) := by
  obtain ⟨t, ht, htext, hstart⟩ : ∃ t ∈ (Pass.run {} "\x60a\tb\n\tc\\\x60\n$\x7b1\x7dd\x60").tokens,
      t.IsText ∧ t.start = ⟨1, 1⟩ := by decide +kernel
  exact ⟨t, ht, htext, hstart, (templateText_of_completed {} _ (by decide +kernel) ht htext).1⟩

/-- **A tab behind an opening backtick** is a space in the text of the template. -/
theorem spaces_behind_backtick :
    (Pass.run {} "\x60\t\x60").abort = none ∧
      ∃ t ∈ (Pass.run {} "\x60\t\x60").tokens, t.IsText ∧
        t.value.toList ≠ textBetween (fun n => ((Source.ofString "\x60\t\x60").textAt n).toList)
          t.start t.stop := by
  exact ⟨by decide +kernel, by decide +kernel⟩

end ScriptLint
