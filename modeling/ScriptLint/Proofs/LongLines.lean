import Mathlib.Data.List.Nodup
import ScriptLint.Proofs.Defaults
import ScriptLint.Proofs.Regions
import ScriptLint.Proofs.Scan.Gauged
import ScriptLint.Proofs.Slices
import ScriptLint.Proofs.Tiling

/-!
# Which lines are too long

A line is reported as too long if it has more characters than the limit and the limit concerns
it when it is left.  The lines that the limit concerns are told by the tokens, so of a pass that
completes its tokens and its lines tell which are reported: not one that starts inside a
template, unless a token behind the template starts on it, nor one with a regular expression, nor
a first line that is not scanned.  In a JSON text none is, even if the pass is aborted.

## Main definitions

* `InOrder` — tokens in the order of their extents
* `StartsBehind`, `Exposed` — what the tokens of a completed pass tell of a line
* `longLine`, `longLinesAt` — the diagnostic of a line that is too long, and those of a line
* `LongLines` — which lines are reported as too long

## Main statements

* `InOrder.freed_iff` — a line is freed by a token behind the template it starts in
* `limited_iff_exposed` — the limit concerns the exposed lines
* `onLongLines_verify` — the diagnostics on long lines are those of the lines left
* `longLines_reported` — which lines a pass reports
-/

namespace ScriptLint

/-! ### Tokens in order -/

/-- **In order**: tokens one behind the other, of which no backtick is empty and only the last may
be the end of the source. -/
structure InOrder (tokens : List Token) : Prop where
  ordered : tokens.Pairwise fun a b => a.stop ≤ b.start
  extent : ∀ t ∈ tokens, t.start ≤ t.stop
  tick : ∀ t ∈ tokens, t.isOperator "\x60" = true → t.start < t.stop
  kind_ne : tokens.Pairwise fun a _ => a.kind ≠ .eof

/-- The tokens of a completed scan are in order. -/
theorem inOrder_of_scan {source : Source} (hlines : 1 ≤ source.lastIndex)
    (h : (scan source).fault = none) : InOrder (scan source).tokens := by
  have htiling := tiling_of_scan hlines h
  refine ⟨ordered_of_scan h, htiling.start_le_stop, fun t ht htick => ?_, ?_⟩
  · refine lt_of_le_of_ne (htiling.start_le_stop t ht) fun hempty => ?_
    rcases htiling.empty t ht hempty with heof | ⟨hstring, -⟩
    · simp [Token.isOperator, heof] at htick
    · simp [Token.isOperator, hstring] at htick
  · obtain ⟨front, last, hfront, -, hne, -⟩ := htiling.last
    rw [hfront, List.pairwise_append]
    refine ⟨List.pairwise_of_forall_mem_list fun a ha _ _ => hne a ha, List.pairwise_singleton _ _,
      fun a ha _ _ => hne a ha⟩

/-- A token starts on no line above those before it. -/
theorem InOrder.sorted {tokens : List Token} (h : InOrder tokens) :
    tokens.Pairwise fun a b => a.start.line ≤ b.start.line := by
  refine h.ordered.imp_of_mem fun {a b} ha _ hle => ?_
  exact Position.line_le_of_le ((h.extent a ha).trans hle)

/-! ### Lines freed behind a template -/

/-- A line is freed by a token on it with whole templates before it. -/
theorem freed_reverse_iff {tokens : List Token} {n : Nat} :
    freed n tokens.reverse = true ↔ ∃ front t back, tokens = front ++ t :: back ∧
      t.kind ≠ .eof ∧ t.start.line = n ∧ front.countP (·.isOperator "\x60") % 2 = 0 := by
  induction tokens using List.reverseRecOn with
  | nil => simp [freed]
  | append_singleton front t ih =>
    rw [List.reverse_append, List.reverse_singleton, List.singleton_append, freed, Bool.or_eq_true,
      ih, List.countP_reverse]
    constructor
    · rintro (hfree | ⟨older, u, newer, rfl, hu⟩)
      · simp only [Bool.and_eq_true, bne_iff_ne, beq_iff_eq] at hfree
        exact ⟨front, t, [], rfl, hfree.1.1, hfree.1.2, hfree.2⟩
      · exact ⟨older, u, newer ++ [t], by simp, hu⟩
    · rintro ⟨older, u, newer, hsplit, hkind, hline, heven⟩
      rcases List.eq_nil_or_concat newer with rfl | ⟨newer, v, rfl⟩
      · obtain ⟨rfl, hlast⟩ := List.append_inj' hsplit rfl
        obtain rfl := (List.cons.inj hlast).1
        exact .inl (by simp [hkind, hline, heven])
      · rw [List.concat_eq_append, ← List.cons_append, ← List.append_assoc] at hsplit
        obtain ⟨rfl, -⟩ := List.append_inj' hsplit rfl
        exact .inr ⟨older, u, newer, rfl, hkind, hline, heven⟩

/-- **Behind a template**: a token that is not the end of the source starts on line `n`, behind
every template that is open where the line starts. -/
def StartsBehind (tokens : List Token) (n : Nat) : Prop :=
  ∃ t ∈ tokens, t.kind ≠ .eof ∧ t.start.line = n ∧
    ∀ template ∈ templates (tokens.filter (·.isOperator "\x60")),
      template.1.start.line < n → n ≤ template.2.start.line → template.2.stop ≤ t.start

instance (tokens : List Token) (n : Nat) : Decidable (StartsBehind tokens n) :=
  inferInstanceAs (Decidable (∃ t ∈ tokens, _ ∧ _ ∧ _))

section

variable {tokens : List Token} {n : Nat}

/-- A token with whole templates before it starts behind those open where its line starts. -/
theorem InOrder.startsBehind_of_freed (h : InOrder tokens)
    (hfreed : freed n tokens.reverse = true) : StartsBehind tokens n := by
  obtain ⟨front, t, back, rfl, hkind, hline, heven⟩ := freed_reverse_iff.mp hfreed
  refine ⟨t, by simp, hkind, hline, fun template htemplate hopen _ => ?_⟩
  rw [List.countP_eq_length_filter] at heven
  rw [List.filter_append, templates_append heven, List.mem_append] at htemplate
  rcases htemplate with htemplate | htemplate
  · -- The template is closed before the token.
    have hclosing := (mem_of_mem_templates htemplate).2
    exact (List.pairwise_append.mp h.ordered).2.2 _ (List.mem_filter.mp hclosing).1 t
      List.mem_cons_self
  · -- A template opened behind the token is not open where its line starts.
    have hopening := (List.mem_filter.mp (mem_of_mem_templates htemplate).1).1
    have hle : t.start.line ≤ template.1.start.line := by
      rcases List.mem_cons.mp hopening with heq | hbehind
      · rw [heq]
      · exact (List.pairwise_cons.mp (List.pairwise_append.mp h.sorted).2.1).1 _ hbehind
    omega

/-- Up to the closing backtick of a template the tokens hold whole templates. -/
theorem exists_split_of_mem_templates {template : Token × Token}
    (h : template ∈ templates (tokens.filter (·.isOperator "\x60"))) :
    ∃ before after, tokens = before ++ template.2 :: after ∧
      template.2.isOperator "\x60" = true ∧
      (before ++ [template.2]).countP (·.isOperator "\x60") % 2 = 0 := by
  obtain ⟨ticks, later, hticks, heven⟩ := exists_of_mem_templates h
  rw [← List.singleton_append, ← List.append_assoc] at hticks
  obtain ⟨left, right, rfl, hleft, hright⟩ := List.filter_eq_append_iff.mp hticks
  obtain ⟨gap, rest, rfl, hgap, hclosing, -⟩ := List.filter_eq_cons_iff.mp hright
  refine ⟨left ++ gap, rest, by simp, hclosing, ?_⟩
  have hnone : gap.countP (·.isOperator "\x60") = 0 := List.countP_eq_zero.mpr hgap
  have hone : left.countP (·.isOperator "\x60") = ticks.length + 1 := by
    rw [List.countP_eq_length_filter, hleft, List.length_append, List.length_singleton]
  rw [List.countP_append, List.countP_append, hnone, hone, List.countP_singleton, if_pos hclosing]
  omega

/-- Behind the template in which a line starts, the first token on the line has whole templates
before it. -/
theorem InOrder.freed_of_startsBehind (h : InOrder tokens) (hin : startsInTemplate tokens n = true)
    (hbehind : StartsBehind tokens n) : freed n tokens.reverse = true := by
  obtain ⟨t, ht, hkind, hline, hclosed⟩ := hbehind
  obtain ⟨template, htemplate, hopen⟩ := List.any_eq_true.mp hin
  simp only [Bool.and_eq_true, decide_eq_true_eq] at hopen
  have hstop := hclosed template htemplate hopen.1 hopen.2
  obtain ⟨before, after, rfl, htick, heven⟩ := exists_split_of_mem_templates htemplate
  obtain ⟨-, hordered, hbefore⟩ := List.pairwise_append.mp h.ordered
  obtain ⟨hclosing, hordered⟩ := List.pairwise_cons.mp hordered
  have hlong : template.2.start < template.2.stop := h.tick _ (by simp) htick
  -- The token is behind the closing backtick, so there is a first one.
  have hafter : t ∈ after := by
    rcases List.mem_append.mp ht with hold | hnew
    · have hle := (h.extent t ht).trans (hbefore t hold template.2 List.mem_cons_self)
      exact absurd (hlong.trans_le (hstop.trans hle)) (lt_irrefl _)
    · rcases List.mem_cons.mp hnew with rfl | hnew
      · exact absurd (hlong.trans_le hstop) (lt_irrefl _)
      · exact hnew
  obtain ⟨u, back, rfl⟩ := List.exists_cons_of_ne_nil (List.ne_nil_of_mem hafter)
  have hkinds := (List.pairwise_cons.mp (List.pairwise_append.mp h.kind_ne).2.1).2
  have hfirst : u.start ≤ t.start ∧ u.kind ≠ .eof := by
    rcases List.mem_cons.mp hafter with rfl | hback
    · exact ⟨le_refl _, hkind⟩
    · have hle := (List.pairwise_cons.mp hordered).1 t hback
      exact ⟨(h.extent u (by simp)).trans hle, (List.pairwise_cons.mp hkinds).1 t hback⟩
  have hfrom := Position.line_le_of_le (hlong.le.trans (hclosing u List.mem_cons_self))
  have hto := Position.line_le_of_le hfirst.1
  exact freed_reverse_iff.mpr
    ⟨before ++ [template.2], u, back, by simp, hfirst.2, by omega, heven⟩

/-- A line that starts inside a template is freed exactly by a token behind the template. -/
theorem InOrder.freed_iff (h : InOrder tokens) (hin : startsInTemplate tokens n = true) :
    freed n tokens.reverse = true ↔ StartsBehind tokens n :=
  ⟨h.startsBehind_of_freed, h.freed_of_startsBehind hin⟩

end

/-! ### Exposed lines -/

/-- **Exposed**: a line that the length limit concerns in a completed pass, unless it belongs to a
JSON text. -/
structure Exposed (source : Source) (tokens : List Token) (n : Nat) : Prop where
  /-- It is not a first line that starts with `#!`. -/
  head : ¬ (source.hasInterpreterLine = true ∧ n = 1)
  /-- No regular expression starts on it. -/
  regex : ∀ t ∈ tokens, t.kind = .regex → t.start.line ≠ n
  /-- It does not start inside a template, or a token behind the template starts on it. -/
  template : startsInTemplate tokens n = false ∨ StartsBehind tokens n

instance (source : Source) (tokens : List Token) (n : Nat) : Decidable (Exposed source tokens n) :=
  decidable_of_iff (¬ (source.hasInterpreterLine = true ∧ n = 1) ∧
      (∀ t ∈ tokens, t.kind = .regex → t.start.line ≠ n) ∧
      (startsInTemplate tokens n = false ∨ StartsBehind tokens n))
    ⟨fun ⟨head, regex, template⟩ => ⟨head, regex, template⟩,
      fun h => ⟨h.head, h.regex, h.template⟩⟩

/-- A line is sheltered if it is a first line that is not scanned, or starts inside a template and
no token behind that starts on it. -/
theorem sheltered_eq_false_iff {source : Source} {tokens : List Token} {n : Nat}
    (h : InOrder tokens) (heven : tokens.countP (·.isOperator "\x60") % 2 = 0) :
    sheltered source tokens.reverse n = false ↔
      ¬ (source.hasInterpreterLine = true ∧ n = 1) ∧
        (startsInTemplate tokens n = false ∨ StartsBehind tokens n) := by
  have hticks : (backticksBefore tokens.reverse n % 2 == 1) = startsInTemplate tokens n := by
    rw [startsInTemplate_eq h.sorted heven, backticksBefore, List.countP_reverse, ← backticksBefore,
      beq_eq_decide]
  rw [sheltered, hticks, Bool.or_eq_false_iff]
  refine and_congr (by simp) ?_
  cases hin : startsInTemplate tokens n with
  | false => simp
  | true => simpa using h.freed_iff hin

/-- The lines that the tokens of a completed scan limit are the exposed ones, unless they open a
JSON text. -/
theorem limited_iff_exposed {source : Source} {tokens : List Token} {n : Nat}
    (h : InOrder tokens) (heven : tokens.countP (·.isOperator "\x60") % 2 = 0)
    (hjson : tokens.head?.any Token.opensJson = false) :
    limited source tokens.reverse n = true ↔ Exposed source tokens n := by
  have hplain : inJson n tokens.reverse = false := by
    rw [inJson, List.getLast?_reverse]
    cases hfirst : tokens.head? with
    | none => rfl
    | some t =>
      have ht : t.opensJson = false := by simpa [hfirst] using hjson
      simp [ht]
  have hregex : regexOn n tokens.reverse = false ↔
      ∀ t ∈ tokens, t.kind = .regex → t.start.line ≠ n := by
    simp [regexOn]
  rw [limited, hplain, Bool.and_eq_true, Bool.and_eq_true, Bool.not_eq_true', Bool.not_eq_true',
    sheltered_eq_false_iff h heven, hregex]
  constructor
  · rintro ⟨⟨⟨hhead, htemplate⟩, hnone⟩, -⟩
    exact ⟨hhead, hnone, htemplate⟩
  · rintro ⟨hhead, hnone, htemplate⟩
    exact ⟨⟨⟨hhead, htemplate⟩, hnone⟩, rfl⟩

/-! ### The report on the lines left -/

/-- The diagnostic of a line that is too long. -/
def longLine (source : Source) (settings : Settings) (severity : Severity) (n : Nat) : Diagnostic :=
  let limit := settings.maxLineLength.toNat
  Account.diagnostic source
    { rule := .noLongLines, line := n, column := limit, args := [toString limit] } severity

/-- **Too long**: a line of more characters than the limit, unless it is quiet. -/
def Source.isTooLong (source : Source) (settings : Settings) (n : Nat) : Bool :=
  decide (settings.maxLineLength.toNat < source.lengthAt n) && !source.isQuiet n

/-- The diagnostics on long lines among others. -/
def onLongLines (diagnostics : List Diagnostic) : List Diagnostic :=
  diagnostics.filter (·.rule == .noLongLines)

namespace Account

variable {source : Source} {settings : Settings} {level : Level} {severity : Severity}

/-- Of all events only one of a line left makes a diagnostic on long lines, if the line is too
long. -/
theorem onLongLines_diagnosticOf? (hset : settings.level? .noLongLines = some level)
    (hlevel : level.severity? = some severity) {a : Account}
    (ha : a.level? .noLongLines = none) {event : Event}
    (hfound : ∀ finding, event = .found finding → finding.rule ≠ .noLongLines)
    (hline : ∀ n, event = .lineLeft n → source.clampLine n = n) :
    onLongLines (a.diagnosticOf? source settings event).toList =
      (event.lineLeft?.toList.filter (source.isTooLong settings)).map
        (longLine source settings severity) := by
  have hother (hrule : event.rule? ≠ some .noLongLines) :
      onLongLines (a.diagnosticOf? source settings event).toList = [] := by
    refine List.filter_eq_nil_iff.mpr fun d hd => ?_
    obtain ⟨hd, -⟩ := rule_of_diagnosticOf? (Option.mem_toList.mp hd)
    rw [hd] at hrule
    simpa using hrule
  cases event with
  | lineLeft n =>
    have hunset (unset : Level) : a.level settings .noLongLines unset = level := by
      simp [Account.level, ha, hset]
    simp only [diagnosticOf?, reported?, hunset, hlevel, hline n rfl, Event.lineLeft?,
      Option.toList_some, List.filter_singleton]
    by_cases hlong : settings.maxLineLength.toNat < source.lengthAt n
    · by_cases hquiet : source.isQuiet n = true
      · simp [onLongLines, Source.isTooLong, hlong, hquiet]
      · simp [onLongLines, Source.isTooLong, longLine, diagnostic, hlong, hquiet]
    · simp [onLongLines, Source.isTooLong, hlong]
  | found finding => exact hother (by simpa [Event.rule?] using hfound finding rfl)
  | todo line column => exact hother (by simp [Event.rule?])
  | levelSet rule level => rfl
  | flagSet flag on => rfl
  | globalDeclared name => rfl
  | propertyNamed name => rfl

/-- **The diagnostics on long lines** of events are those of the lines left that are too long, in
order. -/
theorem onLongLines_recordAll (hset : settings.level? .noLongLines = some level)
    (hlevel : level.severity? = some severity) {events : List Event}
    (hevents : ∀ level, .levelSet .noLongLines level ∉ events)
    (hfound : ∀ finding, .found finding ∈ events → finding.rule ≠ .noLongLines)
    (hlines : ∀ n, .lineLeft n ∈ events → source.clampLine n = n) {a : Account}
    (ha : a.level? .noLongLines = none) :
    onLongLines (a.recordAll source settings events).diagnostics.reverse =
      onLongLines a.diagnostics.reverse ++
        ((events.filterMap Event.lineLeft?).filter (source.isTooLong settings)).map
          (longLine source settings severity) := by
  induction events generalizing a with
  | nil => simp [recordAll]
  | cons event events ih =>
    have hcons : (event :: events).filterMap Event.lineLeft? =
        event.lineLeft?.toList ++ events.filterMap Event.lineLeft? := by
      cases hleft : event.lineLeft? <;> simp [hleft]
    have hrecord : onLongLines (a.diagnosticOf? source settings event).toList = _ :=
      onLongLines_diagnosticOf? hset hlevel ha
        (fun finding h => hfound finding (h ▸ List.mem_cons_self))
        fun n h => hlines n (h ▸ List.mem_cons_self)
    have hunset : (a.record source settings event).level? .noLongLines = none := by
      rw [level?_record fun level h => hevents level (h ▸ List.mem_cons_self)]
      exact ha
    have hrest := ih (fun level h => hevents level (List.mem_cons_of_mem _ h))
      (fun finding h => hfound finding (List.mem_cons_of_mem _ h))
      (fun n h => hlines n (List.mem_cons_of_mem _ h)) hunset
    refine hrest.trans ?_
    rw [diagnostics_record, List.reverse_append, reverse_toList, hcons, List.filter_append,
      List.map_append, ← hrecord, ← List.append_assoc]
    simp only [onLongLines, List.filter_append]

end Account

/-! ### The lines a pass reports -/

/-- The lines left are lines of the source, each once. -/
theorem nodup_linesLeft (source : Source) :
    (scan source).linesLeft.Nodup ∧
      ∀ n ∈ (scan source).linesLeft, 1 ≤ n ∧ n ≤ source.lastIndex := by
  obtain ⟨tokens, last, -, hlast, hleft⟩ := linesLeft_of_scan source
  rw [hleft]
  refine ⟨(List.nodup_range' 1).filter _, fun n hn => ?_⟩
  have hrange := List.mem_range'_1.mp (List.mem_filter.mp hn).1
  omega

theorem clampLine_of_mem_linesLeft {source : Source} {n : Nat} (h : n ∈ (scan source).linesLeft) :
    source.clampLine n = n :=
  Source.clampLine_of_inside ((nodup_linesLeft source).2 n h)

/-- The diagnostic of a line left that is too long stands behind what the limit allows. -/
theorem column_longLine {source : Source} {settings : Settings} {n : Nat}
    (hleft : n ∈ (scan source).linesLeft) (hlong : source.isTooLong settings n = true)
    (severity : Severity) :
    (longLine source settings severity n).column = max 1 settings.maxLineLength.toNat := by
  have hlength : settings.maxLineLength.toNat < source.lengthAt n :=
    of_decide_eq_true (Bool.and_eq_true_iff.mp hlong).1
  show source.clampColumn (source.clampLine n) settings.maxLineLength.toNat = _
  rw [clampLine_of_mem_linesLeft hleft, Source.clampColumn]
  omega

/-- Of the lines that a completed scan leaves the exposed ones count, unless its first token opens
a JSON text. -/
theorem mem_linesLeft_of_completed {source : Source} (hlines : 1 ≤ source.lastIndex)
    (h : (scan source).fault = none)
    (hplain : (scan source).tokens.head?.any Token.opensJson = false) {n : Nat} :
    n ∈ (scan source).linesLeft ↔
      (1 ≤ n ∧ n ≤ source.lastIndex) ∧ Exposed source (scan source).tokens n := by
  rw [linesLeft_of_completed h, List.mem_filter, List.mem_range'_1,
    limited_iff_exposed (inOrder_of_scan hlines h) (even_backticks_of_scan h) hplain]
  refine and_congr_left fun _ => and_congr_right fun _ => ?_
  omega

/-- A first token that opens a JSON text lets no line count from its own on. -/
theorem not_mem_linesLeft_of_json {source : Source} {first : Token}
    (hfirst : (scan source).tokens.head? = some first) (hopens : first.opensJson = true) {n : Nat}
    (hn : first.start.line ≤ n) : n ∉ (scan source).linesLeft := by
  obtain ⟨tokens, last, ⟨newer, rfl⟩, -, hleft⟩ := linesLeft_of_scan source
  have hlast : (newer ++ (scan source).tokens.reverse).getLast? = some first := by
    rw [List.getLast?_append, List.getLast?_reverse, hfirst]
    rfl
  have hjson : inJson n (newer ++ (scan source).tokens.reverse) = true := by
    rw [inJson, hlast]
    simp [hopens, hn]
  rw [hleft, List.mem_filter]
  simp [limited, hjson]

/-- **The diagnostics on long lines** of a pass are those of the lines left that are too long, in
order. -/
theorem onLongLines_verify {settings : Settings} {text : String} {level : Level}
    {severity : Severity} (hset : settings.level? .noLongLines = some level)
    (hlevel : level.severity? = some severity)
    (hunnamed : ∀ t ∈ (Pass.run settings text).tokens, ¬ t.NamesRule .noLongLines) :
    onLongLines (verify settings text) =
      ((scan (.ofString text)).linesLeft.filter ((Source.ofString text).isTooLong settings)).map
        (longLine (.ofString text) settings severity) := by
  have hevents := levelSet_not_mem_events hunnamed
  have hlines : ∀ n, .lineLeft n ∈ (scan (.ofString text)).events →
      (Source.ofString text).clampLine n = n := fun n h =>
    clampLine_of_mem_linesLeft (List.mem_filterMap.mpr ⟨_, h, rfl⟩)
  have hfault : onLongLines ((Account.atEnd settings text).faultDiagnostic? (.ofString text)
      settings (scan (.ofString text)).fault).toList = [] := by
    refine List.filter_eq_nil_iff.mpr fun d hd => ?_
    obtain ⟨fault, hfault, rfl, -⟩ := Account.of_faultDiagnostic? (Option.mem_toList.mp hd)
    have hne : fault.rule ≠ .noLongLines := fun hrule =>
      absurd (hrule ▸ State.fatal_of_run hfault) (by decide)
    simpa [Account.diagnostic] using hne
  have hstart : ({ globals := settings.globals } : Account).level? .noLongLines = none := rfl
  have hatEnd := Account.onLongLines_recordAll hset hlevel hevents
    (fun _ h => (regular_of_found text h).1) hlines hstart
  rw [verify_eq, onLongLines, List.filter_append, ← onLongLines, ← onLongLines, hfault,
    List.append_nil]
  exact hatEnd

/-- The diagnostics on long lines that stand on line `n`. -/
def longLinesAt (settings : Settings) (text : String) (n : Nat) : List Diagnostic :=
  (verify settings text).filter fun d => d.rule == .noLongLines && d.line == n

/-- **Long lines**: which lines a pass reports as too long. -/
structure LongLines (settings : Settings) (text : String) : Prop where
  /-- A line has at most one diagnostic, whether the pass is aborted or not. -/
  once : ∀ n, (longLinesAt settings text n).length ≤ 1
  /-- It stands behind the last character that the limit allows. -/
  column : ∀ n, ∀ d ∈ longLinesAt settings text n, d.column = max 1 settings.maxLineLength.toNat
  /-- Unless the first token of a pass that completes opens a JSON text, a line has a diagnostic
  exactly if it has more characters than the limit, is not quiet and is exposed. -/
  exact : (Pass.run settings text).abort = none →
    (Pass.run settings text).tokens.head?.any Token.opensJson = false →
    ∀ n, (longLinesAt settings text n).length = 1 ↔
      settings.maxLineLength.toNat < (Source.ofString text).lengthAt n ∧
        (Source.ofString text).isQuiet n = false ∧
        Exposed (.ofString text) (Pass.run settings text).tokens n
  /-- If it does, no line from its own on has a diagnostic, whether the pass is aborted or not. -/
  json : ∀ first, (Pass.run settings text).tokens.head? = some first → first.opensJson = true →
    ∀ n, first.start.line ≤ n → longLinesAt settings text n = []

section

variable {settings : Settings} {text : String} {level : Level} {severity : Severity}
  (hset : settings.level? .noLongLines = some level) (hlevel : level.severity? = some severity)
  (hunnamed : ∀ t ∈ (Pass.run settings text).tokens, ¬ t.NamesRule .noLongLines)

include hset hlevel hunnamed

/-- A line has its diagnostic as often as it is left, if it is too long. -/
theorem longLinesAt_eq (n : Nat) :
    longLinesAt settings text n =
      List.replicate
        (((scan (.ofString text)).linesLeft.filter
          ((Source.ofString text).isTooLong settings)).count n)
        (longLine (.ofString text) settings severity n) := by
  have hsplit : longLinesAt settings text n =
      (onLongLines (verify settings text)).filter fun d => d.line == n := by
    rw [onLongLines, List.filter_filter, longLinesAt]
    simp only [Bool.and_comm]
  have hline : ∀ m ∈ (scan (.ofString text)).linesLeft.filter
      ((Source.ofString text).isTooLong settings),
      (longLine (.ofString text) settings severity m).line = m := fun m hm =>
    clampLine_of_mem_linesLeft (List.mem_filter.mp hm).1
  rw [hsplit, onLongLines_verify hset hlevel hunnamed, List.filter_map,
    List.filter_congr fun m hm => by rw [Function.comp_apply, hline m hm], List.filter_beq,
    List.map_replicate]

theorem length_longLinesAt_eq_one_iff (n : Nat) :
    (longLinesAt settings text n).length = 1 ↔
      n ∈ (scan (.ofString text)).linesLeft ∧ (Source.ofString text).isTooLong settings n := by
  have hnodup := (nodup_linesLeft (.ofString text)).1.filter
    ((Source.ofString text).isTooLong settings)
  rw [longLinesAt_eq hset hlevel hunnamed, List.length_replicate, ← List.mem_filter]
  exact ⟨fun h => List.count_pos_iff.mp (by omega), List.count_eq_one_of_mem hnodup⟩

end

/-- **Which lines are reported as too long.**  If the rule is set to a warning or an error and no
directive names it, a pass reports each line once at most, and of a pass that completes the lines
and the tokens tell which. -/
theorem longLines_reported {settings : Settings} {text : String} {level : Level}
    (hset : settings.level? .noLongLines = some level) (hon : level ≠ .off)
    (hunnamed : ∀ t ∈ (Pass.run settings text).tokens, ¬ t.NamesRule .noLongLines) :
    LongLines settings text := by
  obtain ⟨severity, hlevel⟩ : ∃ severity, level.severity? = some severity := by
    cases level with
    | off => exact absurd rfl hon
    | warn => exact ⟨_, rfl⟩
    | error => exact ⟨_, rfl⟩
  have hat := longLinesAt_eq hset hlevel hunnamed
  constructor
  case once =>
    intro n
    rw [hat, List.length_replicate]
    exact List.nodup_iff_count_le_one.mp ((nodup_linesLeft _).1.filter _) n
  case column =>
    intro n d hd
    rw [hat, List.mem_replicate] at hd
    obtain ⟨hcount, rfl⟩ := hd
    have hmem := List.mem_filter.mp (List.count_pos_iff.mp (Nat.pos_of_ne_zero hcount))
    exact column_longLine hmem.1 hmem.2 severity
  case exact =>
    intro habort hplain n
    have hfault := fault_eq_none_of_abort habort
    rw [length_longLinesAt_eq_one_iff hset hlevel hunnamed,
      mem_linesLeft_of_completed (Source.one_le_lastIndex text) hfault hplain,
      Source.isTooLong, Bool.and_eq_true, decide_eq_true_eq, Bool.not_eq_true']
    constructor
    · rintro ⟨⟨-, hexposed⟩, hlong, hquiet⟩
      exact ⟨hlong, hquiet, hexposed⟩
    · rintro ⟨hlong, hquiet, hexposed⟩
      exact ⟨⟨Source.inside_of_lengthAt_pos (Nat.zero_lt_of_lt hlong), hexposed⟩, hlong, hquiet⟩
  case json =>
    intro first hfirst hopens n hn
    have hleft := not_mem_linesLeft_of_json hfirst hopens hn
    rw [hat, List.count_eq_zero.mpr fun hmem => hleft (List.mem_filter.mp hmem).1,
      List.replicate_zero]

/-- Of three long lines the one that ends the template is reported for what stands behind it, the
one inside is not. -/
theorem longLines_behind_template :
    let settings := Settings.setLevel { maxLineLength := 8 } .noLongLines .warn
    let text := "run(`one\n two three four\nfive`, six);"
    (longLinesAt settings text 3).length = 1 ∧ (longLinesAt settings text 2).length ≠ 1 := by
  intro settings text
  have h : LongLines settings text :=
    @longLines_reported settings text .warn rfl (by decide) (by decide +kernel)
  have hexact := h.exact (by decide +kernel) (by decide +kernel)
  exact ⟨(hexact 3).mpr (by decide +kernel),
    fun hone => absurd ((hexact 2).mp hone) (by decide +kernel)⟩

end ScriptLint
