import Mathlib.Data.List.TakeWhile
import ScriptLint.Proofs.Accounts
import ScriptLint.Proofs.Regions
import ScriptLint.Proofs.Reports
import ScriptLint.Proofs.Scan.Embedding
import ScriptLint.Proofs.Totality

/-!
# A line on top

A first line that is not scanned, because it is empty or starts with `#!`, moves everything
below it down by one line and changes nothing else.  The source below is read as before, the
scan of it is embedded in the scan of the whole from its first line on, and the report moves a
place into the source as it did before.

## Main definitions

* `Diagnostic.down`, `Abort.down`, `Pass.down` — a pass with its lines moved down
* `Source.under` — a source with a line on top
* `HeadLine` — a first line that is not scanned

## Main statements

* `ofString_under` — the source of a text with a line on top
* `Account.recordAll_under` — events further down are reported further down
* `State.run_under_head` — the scan below a head line is embedded in that of the whole
* `run_under_headLine` — a head line moves the pass down
-/

namespace ScriptLint

/-! ### Moving down -/

/-- A diagnostic some lines further down. -/
def Diagnostic.down (k : Nat) (d : Diagnostic) : Diagnostic := { d with line := d.line + k }

/-- An abort some lines further down. -/
def Abort.down (k : Nat) (a : Abort) : Abort := { a with line := a.line + k }

/-- **A pass further down**: its tokens, its diagnostics and its abort are. -/
def Pass.down (k : Nat) (p : Pass) : Pass :=
  { p with
    tokens := p.tokens.map (·.down k)
    diagnostics := p.diagnostics.map (·.down k)
    abort := p.abort.map (·.down k) }

/-- An account whose diagnostics are further down. -/
def Account.down (k : Nat) (a : Account) : Account :=
  { a with diagnostics := a.diagnostics.map (·.down k) }

/-! ### Sources -/

/-- Lines that are finished come before the others. -/
theorem physicalLines_go_append (before done : List (List Char)) (line text : List Char) :
    physicalLines.go (done ++ before) line text =
      before.reverse ++ physicalLines.go done line text := by
  fun_induction physicalLines.go done line text with
  | case1 done line => simp [physicalLines.go]
  | case2 done line rest ih => rwa [physicalLines.go]
  | case3 done line c rest hnext hc ih =>
    rw [physicalLines.go, if_pos hc]
    · exact ih
    · exact hnext
  | case4 done line c rest hnext hc ih =>
    rw [physicalLines.go, if_neg hc]
    · exact ih
    · exact hnext

/-- The characters before a line terminator belong to the line. -/
theorem physicalLines_go_line {first : List Char} (h : ∀ c ∈ first, c ≠ '\n' ∧ c ≠ '\r')
    (line rest : List Char) : physicalLines.go [] line (first ++ rest) =
      physicalLines.go [] (first.reverse ++ line) rest := by
  induction first generalizing line with
  | nil => rfl
  | cons c first ih =>
    obtain ⟨hc, hfirst⟩ := List.forall_mem_cons.mp h
    have hterm : ¬ (c = '\n' ∨ c = '\r') := fun hor => hor.elim hc.1 hc.2
    rw [List.cons_append, physicalLines.go, if_neg hterm, ih hfirst]
    · simp
    · exact fun _ hreturn => absurd hreturn hc.2

/-- The text up to a line terminator is a line. -/
theorem physicalLines_cons {first : List Char} (h : ∀ c ∈ first, c ≠ '\n' ∧ c ≠ '\r')
    (rest : List Char) : physicalLines (first ++ '\n' :: rest) = first :: physicalLines rest := by
  unfold physicalLines
  rw [physicalLines_go_line h, List.append_nil]
  refine (physicalLines_go_append [first.reverse.reverse] [] [] rest).trans ?_
  rw [List.reverse_reverse]
  rfl

/-- An issue some lines further down. -/
def LineIssue.down (k : Nat) (issue : LineIssue) : LineIssue :=
  { issue with line := issue.line + k }

/-- A region that was read with a line on top. -/
def Region.under (first : Line) (r : Region) : Region where
  lines := #[first] ++ r.lines
  issues := r.issues.map (·.down 1)
  opened := r.opened.map (· + 1)

/-- A source with a line on top. -/
def Source.under (first : Line) (source : Source) : Source where
  lines := #[first] ++ source.lines
  issues := source.issues.map (·.down 1)

theorem Region.read_under (first : Line) (r : Region) (text : List Char) :
    (r.under first).read text = (r.read text).under first := by
  have hsize : (r.under first).lines.size = r.lines.size + 1 := by
    simp [under, Nat.add_comm]
  unfold read
  extract_lets index trimmed index'
  have hindex : index = index' + 1 := congrArg (· + 1) hsize
  rw [hindex, show (r.under first).opened.isSome = r.opened.isSome by simp [under]]
  split
  · cases hopened : r.opened <;> simp [under, hopened]
  · split
    · split
      · simp [under]
      · simp [under, LineIssue.down]
    · split
      · simp [under]
      · simp [under]

/-- **A line on top of a text** that is no marker is a line on top of its source. -/
theorem ofString_under {first : String} (rest : String)
    (hterm : ∀ c ∈ first.toList, c ≠ '\n' ∧ c ≠ '\r')
    (hdisable : trimBlank first.toList ≠ Line.disableMarker.toList)
    (henable : trimBlank first.toList ≠ Line.enableMarker.toList) :
    Source.ofString (first ++ "\n" ++ rest) =
      (Source.ofString rest).under (.ofText first.toList) := by
  have hlines : physicalLines (first ++ "\n" ++ rest).toList =
      first.toList :: physicalLines rest.toList := by
    rw [← physicalLines_cons hterm]
    simp
  have hfirst : Region.read {} first.toList = Region.under (.ofText first.toList) {} := by
    simp [Region.read, Region.under, hdisable, henable]
  have hfold (texts : List (List Char)) (r : Region) :
      texts.foldl Region.read (r.under (.ofText first.toList)) =
        (texts.foldl Region.read r).under (.ofText first.toList) := by
    induction texts generalizing r with
    | nil => rfl
    | cons text texts ih => rw [List.foldl_cons, List.foldl_cons, Region.read_under, ih]
  unfold Source.ofString
  rw [hlines, List.foldl_cons, hfirst, hfold]
  generalize (physicalLines rest.toList).foldl Region.read {} = r
  cases hopened : r.opened <;>
    simp [Region.close, Region.under, Source.under, LineIssue.down, hopened]

section

variable (first : Line) (source : Source)

theorem Source.lastIndex_under : (source.under first).lastIndex = source.lastIndex + 1 := by
  simp [lastIndex, under, Nat.add_comm]

/-- A line of the source below is the next one with a line on top. -/
theorem Source.line?_under {n : Nat} (hn : 1 ≤ n) :
    (source.under first).line? (n + 1) = source.line? n := by
  obtain ⟨k, rfl⟩ := Nat.exists_eq_add_of_le' hn
  show (#[first] ++ source.lines)[k + 1]? = source.lines[k]?
  rw [Array.getElem?_append_right (by simp)]
  simp

theorem Source.clampLine_under (hlines : 1 ≤ source.lastIndex) {n : Nat} (hn : 1 ≤ n) :
    (source.under first).clampLine (n + 1) = source.clampLine n + 1 := by
  unfold clampLine
  rw [lastIndex_under]
  omega

theorem Source.one_le_clampLine (n : Nat) : 1 ≤ source.clampLine n := Nat.le_max_left _ _

theorem Source.clampColumn_under {n : Nat} (hn : 1 ≤ n) (column : Nat) :
    (source.under first).clampColumn (n + 1) column = source.clampColumn n column := by
  unfold clampColumn lengthAt
  rw [line?_under first source hn]

end

/-! ### Reports -/

namespace Account

variable {first : Line} {source : Source} {settings : Settings} (a : Account)

/-- The diagnostic of a finding further down is further down. -/
theorem diagnostic_under (hlines : 1 ≤ source.lastIndex) {finding : Finding}
    (hline : 1 ≤ finding.line) (severity : Severity) :
    diagnostic (source.under first) (finding.down 1) severity =
      (diagnostic source finding severity).down 1 := by
  have hclamp := source.one_le_clampLine finding.line
  unfold diagnostic
  dsimp only
  rw [show (finding.down 1).line = finding.line + 1 from rfl,
    Source.clampLine_under first source hlines hline, Source.clampColumn_under first source hclamp,
    Source.textAt, Source.line?_under first source hclamp]
  rfl

/-- A finding further down is reported further down. -/
theorem report_under (hlines : 1 ≤ source.lastIndex) (finding : Finding)
    (hline : 1 ≤ finding.line) :
    (a.down 1).report (source.under first) settings (finding.down 1) =
      (a.report source settings finding).down 1 := by
  have hclamp := source.one_le_clampLine finding.line
  unfold report
  rw [show (a.down 1).level settings (finding.down 1).rule (finding.down 1).unset =
      a.level settings finding.rule finding.unset from rfl,
    show (finding.down 1).line = finding.line + 1 from rfl,
    Source.clampLine_under first source hlines hline, Source.isQuiet,
    Source.line?_under first source hclamp]
  cases (a.level settings finding.rule finding.unset).severity? with
  | none => rfl
  | some severity =>
    dsimp only
    rw [diagnostic_under hlines hline, ← Source.isQuiet]
    split <;> rfl

theorem reportFault_under (hlines : 1 ≤ source.lastIndex) {fault : Finding}
    (hline : 1 ≤ fault.line) :
    (a.down 1).reportFault (source.under first) settings (fault.down 1) =
      (a.reportFault source settings fault).down 1 := by
  unfold reportFault
  rw [diagnostic_under hlines hline]
  show (if a.level settings fault.rule .error = .off then _ else _) = _
  split <;> rfl

/-- An event further down is recorded further down. -/
theorem record_under (hlines : 1 ≤ source.lastIndex) {event : Event} {last : Nat}
    (h : event.Within 1 last) :
    (a.down 1).record (source.under first) settings (event.down 1) =
      (a.record source settings event).down 1 := by
  cases event with
  | found finding => exact a.report_under hlines finding h.1
  | lineLeft line =>
    have hlength : (source.under first).lengthAt (line + 1) = source.lengthAt line := by
      unfold Source.lengthAt
      rw [Source.line?_under first source h.1]
    simp only [record, Event.down, hlength]
    split
    · exact a.report_under hlines { rule := .noLongLines, line, column := _, args := _ } h.1
    · rfl
  | todo line column =>
    simp only [record, Event.down]
    rw [show (a.down 1).flag settings .devel = a.flag settings .devel from rfl]
    split
    · rfl
    · exact a.report_under hlines { rule := .todoComment, line, column } h.1
  | levelSet rule level => rfl
  | flagSet flag on => rfl
  | globalDeclared name => rfl
  | propertyNamed name => rfl

/-- **Events further down are reported further down.** -/
theorem recordAll_under (hlines : 1 ≤ source.lastIndex) {events : List Event}
    (h : ∀ e ∈ events, ∃ last, e.Within 1 last) :
    (a.down 1).recordAll (source.under first) settings (events.map (·.down 1)) =
      (a.recordAll source settings events).down 1 := by
  induction events generalizing a with
  | nil => rfl
  | cons event events ih =>
    obtain ⟨⟨last, hevent⟩, hevents⟩ := List.forall_mem_cons.mp h
    show Account.recordAll _ _ (record _ _ _ _) _ = _
    rw [record_under a hlines hevent, ih _ hevents]
    rfl

end Account

/-! ### Scans -/

/-- **Head line**: a first line that is not scanned and has nothing to be found. -/
structure HeadLine (first : String) : Prop where
  start : first = "" ∨ "#!".toList.isPrefixOf first.toList = true
  terminator : ∀ c ∈ first.toList, c ≠ '\n' ∧ c ≠ '\r'
  tab : '\t' ∉ first.toList
  blank : ∀ c, first.toList.getLast? = some c → isBlank c = false

/-- A head line is no marker. -/
theorem HeadLine.trimBlank_ne {first marker : String} (h : HeadLine first)
    (hmarker : marker.toList.head? = some '/') : trimBlank first.toList ≠ marker.toList := by
  intro hsame
  rw [← hsame] at hmarker
  rcases h.start with rfl | hstart
  · cases hmarker
  · obtain ⟨rest, hrest⟩ := List.isPrefixOf_iff_prefix.mp hstart
    have hdrop : first.toList.dropWhile isBlank = first.toList := by
      rw [← hrest]
      exact List.dropWhile_cons_of_neg (by decide)
    rw [trimBlank, hdrop, trimBlankEnd_eq_self h.blank, ← hrest] at hmarker
    cases hmarker

namespace State

/-- Nothing is found when a head line is entered. -/
theorem checkBlanks_of_headLine {first : String} (h : HeadLine first) (s : State) :
    s.checkBlanks first.toList = s := by
  have htab : first.toList.takeWhile (· != '\t') = first.toList := by
    refine List.takeWhile_eq_self_iff.mpr fun c hc => ?_
    rw [bne_iff_ne]
    rintro rfl
    exact h.tab hc
  unfold checkBlanks
  rw [htab, trimBlankEnd_eq_self h.blank]
  simp [noteIf]

/-- A state before a line, but for what entering the line overwrites. -/
theorem enter_congr {s t : State} (hline : s.line = t.line) (hmode : s.mode = t.mode)
    (hjson : s.json = t.json) (htokens : s.tokens = t.tokens) (hevents : s.events = t.events)
    (line : Line) (below : List Line) : s.enter line below = t.enter line below := by
  cases s
  cases t
  simp_all only
  subst_vars
  rfl

theorem line_enter (s : State) (line : Line) (below : List Line) :
    (s.enter line below).line = s.line + 1 :=
  congrArg Track.line (track_enter s line below)

/-- **At the end of the head line** a scan has seen nothing. -/
theorem run_initial_head {first : String} (h : HeadLine first) (lines : List Line) :
    ∃ s : State, (initial (.ofText first.toList :: lines)).run = s.run ∧ s.line = 1 ∧ s.rest = [] ∧
      s.below = lines ∧ s.mode = .code ∧ s.json = false ∧ s.tokens = [] ∧ s.events = [] ∧
      (s.exempt = true ∨ first = "") := by
  have htext : (Line.ofText first.toList).text.toList = first.toList := String.toList_ofList
  have henter : State.enter { below := Line.ofText first.toList :: lines }
      (.ofText first.toList) lines =
        { line := 1, rest := untabbed first.toList, below := lines } := by
    simp only [enter, htext, checkBlanks_of_headLine h]
    rfl
  rcases h.start with rfl | hstart
  · refine ⟨{ line := 1, below := lines }, run_of_next ?_, rfl, rfl, rfl, rfl, rfl, rfl, rfl,
      .inr rfl⟩
    exact congrArg Step.next henter
  · refine ⟨⟨1, 0 + (untabbed first.toList).length, [], lines, .code, true, false, false, [], []⟩,
      ?_, rfl, rfl, rfl, rfl, rfl, rfl, rfl, .inl rfl⟩
    refine congrArg State.run ?_
    unfold initial
    dsimp only
    rw [htext, if_pos hstart, henter]
    rfl

/-- Before the first line that is scanned. -/
theorem step_initial {line : Line} {below : List Line}
    (h : "#!".toList.isPrefixOf line.text.toList = false) :
    (initial (line :: below)).step =
      .next (State.enter { below := line :: below } line below) := by
  unfold initial
  dsimp only
  rw [if_neg (by rw [h]; decide)]
  rfl

/-- **The scan below a head line** is the scan of the source below, embedded in that of the whole
from its first line on. -/
theorem run_under_head {first : String} (h : HeadLine first) {line : Line} (below : List Line)
    (hline : "#!".toList.isPrefixOf line.text.toList = false) :
    ∃ m : Frame, m.above = 1 ∧ m.below = [] ∧
      (m.before = [] ∨ first = "" ∧ m.before = [.lineLeft 1]) ∧
      (initial (.ofText first.toList :: line :: below)).run =
        ((initial (line :: below)).run.1.within m,
          (initial (line :: below)).run.2.map (·.down 1)) := by
  obtain ⟨s, hrun, hone, hrest, hbelow, hmode, hjson, htokens, hevents, hexempt⟩ :=
    run_initial_head h (line :: below)
  have hnext : s.step = .next (s.leaveLine.enter line below) := by
    unfold step nextLine?
    rw [hmode, hrest, hbelow]
  refine ⟨⟨1, s.leaveLine.events, []⟩, rfl, rfl, ?_, ?_⟩
  · unfold leaveLine
    split
    · exact .inl hevents
    · next hnot =>
      refine .inr ⟨hexempt.resolve_left fun hex => hnot (.inr (.inl hex)), ?_⟩
      rw [emit, hone, hevents]
  · have hembed : s.leaveLine.enter line below =
        (State.enter { below := line :: below } line below).within ⟨1, s.leaveLine.events, []⟩ := by
      rw [← enter_within, List.append_nil]
      refine enter_congr ?_ ?_ ?_ ?_ ?_ _ _
      · exact (congrArg Track.line (track_leaveLine s)).trans hone
      · exact (congrArg Track.mode (track_leaveLine s)).trans hmode
      · have hkept : s.leaveLine.json = s.json := by
          unfold leaveLine
          split <;> rfl
        exact hkept.trans hjson
      · exact (congrArg Track.tokens (track_leaveLine s)).trans htokens
      · rfl
    rw [hrun, run_of_next hnext, run_of_next (step_initial hline), hembed]
    refine run_within ?_ rfl
    intro hzero
    rw [line_enter] at hzero
    cases hzero

/-- Events concern lines of the source, from 1. -/
theorem within_of_run_initial {line : Line} (below : List Line)
    (hline : "#!".toList.isPrefixOf line.text.toList = false) :
    ∀ e ∈ (initial (line :: below)).run.1.events, ∃ last, e.Within 1 last := by
  obtain ⟨t, hone, hnone, hrecords⟩ :=
    records_enter { below := line :: below } line below
  have hend : t.Records (initial (line :: below)).run.1 := by
    rw [run_of_next (step_initial hline)]
    exact run_keeps (P := t.Records) (fun s hs => hs.trans s.records_step) hrecords
  obtain ⟨newer, hnewer, hwithin⟩ := hend.events
  intro e he
  rw [hnewer, hnone, List.append_nil] at he
  rw [hone] at hwithin
  exact ⟨_, hwithin e he⟩

/-- So does a fault. -/
theorem one_le_line_of_fault {line : Line} {below : List Line}
    (hline : "#!".toList.isPrefixOf line.text.toList = false) {fault : Finding}
    (hfault : (initial (line :: below)).run.2 = some fault) : 1 ≤ fault.line := by
  have hinv {s : State} (hreach : Reaches (State.enter { below := line :: below } line below) s) :
      1 ≤ s.line ∧ ∀ opening, s.mode.opening? = some opening → 1 ≤ opening.line := by
    induction hreach with
    | refl =>
      have hone := line_enter { below := line :: below } line below
      refine ⟨Nat.le_of_eq hone.symm, fun opening hopening => ?_⟩
      have hmode : (State.enter { below := line :: below } line below).mode = .code :=
        congrArg Track.mode (track_enter { below := line :: below } line below)
      rw [hmode] at hopening
      cases hopening
    | @tail s t _ hstep ih =>
      have hrecords := s.records_step
      rw [hstep] at hrecords
      refine ⟨ih.1.trans hrecords.line_le, fun opening hopening => ?_⟩
      rcases opening_of_step hstep hopening with hold | ⟨-, rfl⟩
      · exact ih.2 opening hold
      · exact ih.1
  rw [run_of_next (step_initial hline)] at hfault
  obtain ⟨s, hreach, ⟨t, -, hrun⟩ | ⟨t, fault', hstep, hrun⟩⟩ :=
    run_outcome (State.enter { below := line :: below } line below)
  · rw [hrun] at hfault
    cases hfault
  · rw [hrun] at hfault
    obtain rfl := Option.some.inj hfault
    obtain ⟨hone, hopen⟩ := hinv hreach
    rcases (placesFault_of_step hstep).line with hplace | ⟨-, opening, hopening, hplace⟩
    · exact hplace ▸ hone
    · exact hplace ▸ hopen opening hopening

end State

/-- The first line of a text is the beginning of it. -/
theorem prefix_of_physicalLines {text line : List Char} {lines : List (List Char)}
    (h : physicalLines text = line :: lines) : line <+: text := by
  have hgo (front : List Char) :
      ∃ first lines, physicalLines.go [] front text = (front.reverse ++ first) :: lines ∧
        first <+: text := by
    clear h
    induction text generalizing front with
    | nil => exact ⟨[], [], by simp [physicalLines.go], List.nil_prefix⟩
    | cons c rest ih =>
      have hcut (rest : List Char) : ∃ lines,
          physicalLines.go [front.reverse] [] rest = (front.reverse ++ []) :: lines :=
        ⟨_, by rw [List.append_nil]; exact physicalLines_go_append [front.reverse] [] [] rest⟩
      unfold physicalLines.go
      split
      · next hnil => cases hnil
      · next after hcons =>
        obtain ⟨lines, hlines⟩ := hcut after
        exact ⟨[], lines, hlines, List.nil_prefix⟩
      · next hcons =>
        obtain ⟨rfl, rfl⟩ := List.cons.inj hcons
        split
        · obtain ⟨lines, hlines⟩ := hcut rest
          exact ⟨[], lines, hlines, List.nil_prefix⟩
        · obtain ⟨first, lines, hlines, hfirst⟩ := ih (c :: front)
          refine ⟨c :: first, lines, by rw [hlines]; simp, ?_⟩
          exact List.cons_prefix_cons.mpr ⟨rfl, hfirst⟩
  obtain ⟨first, lines', hlines, hfirst⟩ := hgo []
  have hsame : line :: lines = first :: lines' := h.symm.trans hlines
  rw [(List.cons.inj hsame).1]
  exact hfirst

/-- A text that does not start with `#!` has a first line that does not. -/
theorem exists_lines_ofString {text : String} (h : "#!".toList.isPrefixOf text.toList = false) :
    ∃ line below, (Source.ofString text).lines.toList = line :: below ∧
      "#!".toList.isPrefixOf line.text.toList = false := by
  obtain ⟨raw, raws, hraw⟩ : ∃ raw raws, rawLines text = raw :: raws := by
    cases hraws : rawLines text with
    | nil =>
      have hlast := Source.one_le_lastIndex text
      rw [lastIndex_ofString, hraws] at hlast
      cases hlast
    | cons raw raws => exact ⟨raw, raws, rfl⟩
  have hfirst : (Source.ofString text).lines.toList[0]? =
      some (if Blanked (rawLines text) 1 then ({} : Line) else .ofText raw) := by
    rw [Array.getElem?_toList]
    exact line?_ofString text (n := 0) (by rw [hraw]; rfl)
  cases hlines : (Source.ofString text).lines.toList with
  | nil =>
    rw [hlines] at hfirst
    cases hfirst
  | cons line below =>
    rw [hlines] at hfirst
    refine ⟨line, below, rfl, ?_⟩
    rw [Option.some.inj hfirst]
    split
    · rfl
    · rw [Bool.eq_false_iff, Ne, List.isPrefixOf_iff_prefix] at h ⊢
      intro hstart
      rw [show (Line.ofText raw).text.toList = raw from String.toList_ofList] at hstart
      exact h (hstart.trans (prefix_of_physicalLines hraw))

/-- The issues of the markers concern lines, from 1. -/
theorem within_issueEvents (text : String) :
    ∀ e ∈ (Source.ofString text).issueEvents, ∃ last, e.Within 1 last := by
  intro e he
  obtain ⟨issue, hissue, rfl⟩ := List.mem_map.mp he
  rcases (mem_issues_ofString text issue).mp hissue with ⟨hrule, hen, -⟩ | ⟨hrule, hleast⟩
  · exact ⟨_, hen.1, Nat.le_refl _, regular_of_default (by simp [hrule]) _ _ _⟩
  · exact ⟨_, hleast.1.1.1, Nat.le_refl _, regular_of_default (by simp [hrule]) _ _ _⟩

theorem issueEvents_under (first : Line) (source : Source) :
    (source.under first).issueEvents = source.issueEvents.map (·.down 1) := by
  simp [Source.issueEvents, Source.under, LineIssue.down, Event.down, Finding.down]

/-- Leaving an empty first line reports nothing. -/
theorem Account.recordAll_of_head {first : Line} {source : Source} {settings : Settings}
    (a : Account) {before : List Event}
    (h : before = [] ∨ first.length = 0 ∧ before = [.lineLeft 1]) :
    a.recordAll (source.under first) settings before.reverse = a := by
  rcases h with rfl | ⟨hlength, rfl⟩
  · rfl
  · have hzero : (source.under first).lengthAt 1 = 0 := by
      have hfirst : (source.under first).line? 1 = some first := by
        show (#[first] ++ source.lines)[0]? = _
        rw [Array.getElem?_append_left (by simp)]
        rfl
      rw [Source.lengthAt, hfirst]
      exact hlength
    show Account.record _ _ a (.lineLeft 1) = a
    simp only [record, hzero]
    exact if_neg (Nat.not_lt_zero _)

/-- The account of a scan below a head line. -/
theorem Account.ofScan_under {first : Line} {source : Source} (settings : Settings)
    (hlast : 1 ≤ source.lastIndex) {before events : List Event} {fault : Option Finding}
    (hbefore : before = [] ∨ first.length = 0 ∧ before = [.lineLeft 1])
    (hissues : ∀ e ∈ source.issueEvents, ∃ last, e.Within 1 last)
    (hevents : ∀ e ∈ events, ∃ last, e.Within 1 last)
    (hfault : ∀ finding, fault = some finding → 1 ≤ finding.line) (tokens : List Token) :
    ofScan (source.under first) settings
        ⟨tokens.map (·.down 1), source.issueEvents.map (·.down 1) ++ before.reverse ++
          events.map (·.down 1), fault.map (·.down 1)⟩ =
      (ofScan source settings ⟨tokens, source.issueEvents ++ events, fault⟩).down 1 := by
  have hrecord : ({ globals := settings.globals } : Account).recordAll (source.under first)
      settings (source.issueEvents.map (·.down 1) ++ before.reverse ++ events.map (·.down 1)) =
      (({ globals := settings.globals } : Account).recordAll source settings
        (source.issueEvents ++ events)).down 1 := by
    rw [recordAll_append, recordAll_append, recordAll_append,
      show ({ globals := settings.globals } : Account) =
        Account.down 1 { globals := settings.globals } from rfl,
      recordAll_under _ hlast hissues, recordAll_of_head _ hbefore,
      recordAll_under _ hlast hevents]
    rfl
  unfold ofScan
  dsimp only
  rw [hrecord]
  cases fault with
  | none => rfl
  | some fault => exact reportFault_under _ hlast (hfault fault rfl)

/-- **A pass below a head line** is the pass over the text below, one line further down. -/
theorem run_under_headLine (settings : Settings) {first rest : String} (h : HeadLine first)
    (hrest : "#!".toList.isPrefixOf rest.toList = false) :
    Pass.run settings (first ++ "\n" ++ rest) = (Pass.run settings rest).down 1 := by
  obtain ⟨line, below, hlines, hline⟩ := exists_lines_ofString hrest
  obtain ⟨m, habove, -, hbefore, hrun⟩ := State.run_under_head h below hline
  have hevents := State.within_of_run_initial below hline
  have hfault : ∀ finding, (State.initial (line :: below)).run.2 = some finding →
      1 ≤ finding.line := fun _ => State.one_le_line_of_fault hline
  have hlast := Source.one_le_lastIndex rest
  have hissues := within_issueEvents rest
  have hsource := ofString_under rest h.terminator (h.trimBlank_ne rfl) (h.trimBlank_ne rfl)
  unfold Pass.run
  rw [hsource]
  generalize Source.ofString rest = source at *
  rcases hend : (State.initial (line :: below)).run with ⟨t, fault⟩
  rw [hend] at hrun hevents hfault
  have hscan : scan source = ⟨t.tokens.reverse, source.issueEvents ++ t.events.reverse, fault⟩ := by
    rw [scan_eq, hlines, hend]
  have hbelow : scan (source.under (.ofText first.toList)) =
      ⟨t.tokens.reverse.map (·.down 1), source.issueEvents.map (·.down 1) ++ m.before.reverse ++
        t.events.reverse.map (·.down 1), fault.map (·.down 1)⟩ := by
    have hunder : (source.under (.ofText first.toList)).lines.toList =
        .ofText first.toList :: line :: below := by
      rw [← hlines]
      simp [Source.under]
    rw [scan_eq, hunder, hrun, issueEvents_under]
    simp [State.within, habove]
  have hhead : m.before = [] ∨
      (Line.ofText first.toList).length = 0 ∧ m.before = [.lineLeft 1] := by
    rcases hbefore with hnone | ⟨hempty, hleft⟩
    · exact .inl hnone
    · refine .inr ⟨?_, hleft⟩
      rw [hempty]
      rfl
  have haccount := Account.ofScan_under settings hlast hhead hissues
    (fun e he => hevents e (List.mem_reverse.mp he)) hfault t.tokens.reverse
  unfold Pass.ofSource Pass.down
  rw [← hscan, ← hbelow] at haccount
  dsimp only
  rw [haccount, hscan, hbelow]
  refine Pass.mk.injEq .. |>.mpr ⟨rfl, ?_, rfl, rfl, ?_⟩
  · exact List.map_reverse.symm
  · cases fault with
    | none => rfl
    | some fault =>
      have hone := hfault fault rfl
      have hplace := Source.clampLine_under (.ofText first.toList) source hlast hone
      refine congrArg some (Abort.mk.injEq .. |>.mpr ⟨rfl, hplace, ?_⟩)
      show (source.under _).clampColumn ((source.under _).clampLine (fault.line + 1)) _ = _
      rw [hplace]
      exact Source.clampColumn_under _ source (source.one_le_clampLine fault.line) _

/-- A string that is not closed on the line below an interpreter line. -/
theorem unclosed_below_interpreter :
    Pass.run {} ("#! node" ++ "\n" ++ "let a = 1 ;\nlet b = \"\n") =
      (Pass.run {} "let a = 1 ;\nlet b = \"\n").down 1 :=
  run_under_headLine {}
    { start := .inr (by decide)
      terminator := by simp
      tab := by decide
      blank := by simp; decide }
    (by decide)

end ScriptLint
