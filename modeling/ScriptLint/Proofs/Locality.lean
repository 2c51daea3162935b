import ScriptLint.Proofs.Accounts
import ScriptLint.Proofs.Regions
import ScriptLint.Proofs.Reports
import ScriptLint.Proofs.Scan.Embedding
import ScriptLint.Proofs.Scan.Failures
import ScriptLint.Proofs.Scan.Growth
import ScriptLint.Proofs.Tiling

/-!
# What stands below does not matter

A scan reads its source from the top, so up to the line it has reached it goes by the lines
up to there.  Two sources that begin with the same lines are scanned alike, until a step looks
for a line below these.  Such a step **leaves** them: it goes on further down, or ends the scan
because nothing stands below.

## Main definitions

* `State.atop` — a state with more lines below
* `Leaves` — an outcome that leaves the first lines
* `Diagnostic.isMarkerIssue` — the diagnostics that the region markers make

## Main statements

* `State.MeetsEnd.leaves` — a step that meets the end of the first lines leaves them
* `State.course_of_firstLines` — the scans of all sources that begin with the same lines
* `agreeTo_of_prefix` — sources that begin with the same lines report alike up to there
* `firstLines_decide` — the first lines decide what is reported and read up to there
-/

namespace ScriptLint

open Track

/-! ### Leaving the first lines -/

/-- **Leaving**: an outcome that stands below the first `n` lines, or ends the scan with the
source. -/
inductive Leaves (n : Nat) : Step → Prop
  /-- The scan goes on below. -/
  | next {t : State} (h : n < t.line) : Leaves n (.next t)
  /-- The source ends. -/
  | ends {outcome : Step} (h : State.Ends outcome) : Leaves n outcome

namespace State

variable {m : Frame} {s t u : State}

theorem line_of_nextLine? (h : s.nextLine? = some t) :
    t.line = s.line + 1 ∧ s.below.length = t.below.length + 1 := by
  obtain ⟨line, below, hbelow, htrack⟩ := track_of_nextLine? h
  refine ⟨congrArg Track.line htrack, ?_⟩
  rw [hbelow, show t.below = below from congrArg Track.below htrack, List.length_cons]

/-- The line after the last one of a piece is one below it. -/
theorem line_of_nextLine?_within (hnone : s.nextLine? = none)
    (h : (s.within m).nextLine? = some t) :
    s.line + m.above + s.below.length < t.line := by
  rw [(line_of_nextLine? h).1, below_eq_nil_of_nextLine? hnone]
  exact Nat.lt_succ_self _

/-- The text of a template that does not stop in a piece stops below it. -/
theorem line_of_templateText_within {text text' : List Char} {stop : TemplateStop}
    (hfits : m.Fits s) (h : s.templateText text = .error t)
    (hu : (s.within m).templateText text = .ok (text', stop, u)) :
    s.line + m.above + s.below.length < u.line := by
  fun_induction templateText text s with
  | case1 text s read hread v hv ih =>
    obtain ⟨hline, hlength⟩ := line_of_nextLine? hv
    have hturn : templateLineTurn (text, s.within m) =
        .again ('\n' :: (read.1 ++ text), v.within m) := by
      unfold templateLineTurn
      dsimp only
      rw [show (s.within m).rest = s.rest from rfl, if_pos hread, nextLine?_within hfits hv]
    have hloop := isLoop_templateText.eq_of_again hturn
    have hbeyond := ih (fits_of_nextLine? hv) h (hloop.symm.trans hu)
    omega
  | case2 text s read hread hnone =>
    rw [templateText, show (s.within m).rest = s.rest from rfl, if_pos hread] at hu
    split at hu
    · next w hw =>
      have hbelow := line_of_nextLine?_within hnone hw
      have hon := (w.records_templateText _).2 _ _ _ hu
      exact Nat.lt_of_lt_of_le hbelow hon.line_le
    · cases hu
  | case3 => cases h

/-- A comment that is not closed in a piece is closed below it. -/
theorem line_of_closeComment_within {parts : List String} {text : String}
    (hfits : m.Fits s) (h : s.closeComment parts = .error t)
    (hu : (s.within m).closeComment parts = .ok (text, u)) :
    s.line + m.above + s.below.length < u.line := by
  fun_induction closeComment parts s with
  | case1 => cases h
  | case2 parts s hi s' v hv ih =>
    have htrack : s'.track = s.track := track_noteNested s s.rest
    have hnoted : s'.line = s.line ∧ s'.below = s.below :=
      ⟨congrArg Track.line htrack, congrArg Track.below htrack⟩
    obtain ⟨hline, hlength⟩ := line_of_nextLine? hv
    have hfits' : m.Fits s' := hfits.of_records (s.records_noteNested s.rest)
    have hturn : commentLineTurn (parts, s.within m) =
        .again (String.ofList s.rest :: parts, v.within m) := by
      unfold commentLineTurn
      dsimp only
      rw [show (s.within m).rest = s.rest from rfl, hi, noteNested_within,
        nextLine?_within hfits' hv]
    have hloop := isLoop_closeComment.eq_of_again hturn
    have hbeyond := ih (fits_of_nextLine? hv) h (hloop.symm.trans hu)
    rw [hnoted.1] at hline
    rw [hnoted.2] at hlength
    omega
  | case3 parts s hi s' hnone =>
    have htrack : s'.track = s.track := track_noteNested s s.rest
    have hnoted : s'.line = s.line ∧ s'.below = s.below :=
      ⟨congrArg Track.line htrack, congrArg Track.below htrack⟩
    rw [closeComment, show (s.within m).rest = s.rest from rfl, hi, noteNested_within] at hu
    dsimp only at hu
    split at hu
    · next w hw =>
      have hbelow := line_of_nextLine?_within hnone hw
      have hon := (w.records_closeComment _).2 _ _ hu
      rw [hnoted.1, hnoted.2] at hbelow
      exact Nat.lt_of_lt_of_le hbelow hon.line_le
    · cases hu

/-- The same of a block comment from its opening on. -/
theorem line_of_blockComment_within (hfits : m.Fits s) (h : s.blockComment = .error t)
    (hu : (s.within m).blockComment = .ok u) :
    s.line + m.above + s.below.length < u.line := by
  unfold blockComment at h hu
  extract_lets opened noted at h
  extract_lets opened' noted' at hu
  have hnoted : noted' = noted.within m := noteIf_within m opened _ _ _ _
  have hfits' : m.Fits noted := hfits.of_records
    ((s.records_advance 2).trans (opened.records_noteIf _ (by decide) _ _))
  have htrack : noted.track = s.track.advance 2 := by simp [noted, opened]
  have hline : noted.line = s.line := congrArg Track.line htrack
  have hbelow : noted.below = s.below := congrArg Track.below htrack
  rw [hnoted] at hu
  split at h
  · next v hv =>
    split at hu
    · cases hu
    · next text w hw =>
      obtain rfl := Except.ok.inj hu
      have hend (t : Token) (value : List Char) (start : Position) :
          ((w.push t).inspectComment value start).line = w.line :=
        congrArg Track.line ((track_inspectComment _ _ _).trans (track_push w t))
      rw [hend, ← hline, ← hbelow]
      exact line_of_closeComment_within hfits' hv hw
  · cases h

/-- **A step that meets the end of a piece** leaves the piece. -/
theorem MeetsEnd.leaves (hfits : m.Fits s) (h : s.MeetsEnd) :
    Leaves (s.line + m.above + s.below.length) (s.within m).step := by
  have hmode' (hmode : ∀ opening, s.mode ≠ .template opening) :
      ∀ opening, (s.within m).mode ≠ .template opening := by
    intro opening hm
    rw [show (s.within m).mode = s.mode.down m.above from rfl] at hm
    cases hs : s.mode with
    | template opening => exact hmode opening hs
    | code => rw [hs] at hm; cases hm
    | interpolation opening => rw [hs] at hm; cases hm
  cases h with
  | @text opening t hmode ht =>
    have hstep : (s.within m).step = (s.within m).templatePart (opening.down m.above) := by
      unfold step
      rw [show (s.within m).mode = s.mode.down m.above from rfl, hmode]
      rfl
    rw [hstep]
    unfold templatePart
    split
    · exact .ends (.unclosed _ (.inl rfl))
    · next text stop u hu =>
      have hbeyond := line_of_templateText_within hfits ht hu
      extract_lets part v
      have hline (n : Nat) (value : String) : (v.pushNext n .operator value).line = u.line :=
        (congrArg Track.line (track_push _ _)).trans (congrArg Track.line (track_push u _))
      split
      · exact .next ((hline _ _).symm ▸ hbeyond)
      · exact .next ((hline _ _).symm ▸ hbeyond)
  | @comment tail t hmode hrest ht =>
    rw [step_of_blockComment (hmode' hmode) (show (s.within m).rest = _ from hrest)]
    split
    · exact .ends (.unclosed _ (.inr rfl))
    · next u hu =>
      have hroused : (s.within m).roused = s.roused.within m := by
        unfold roused
        rw [inTemplate_within]
        rfl
      rw [hroused] at hu
      exact .next (line_of_blockComment_within (s := s.roused) hfits ht hu)
  | source hmode hrest hbelow =>
    have hnone : s.nextLine? = none := by
      unfold nextLine?
      rw [hbelow]
    unfold step
    split
    · next opening hm => exact absurd hm (hmode' hmode opening)
    · rw [show (s.within m).rest = _ from hrest]
      dsimp only
      split
      · next w hw => exact .next (line_of_nextLine?_within hnone hw)
      · unfold finish
        split
        · exact .ends (.unclosed _ (.inl rfl))
        · exact .ends (.completed _)

/-! ### The first lines -/

/-- **A state on top of more lines.** -/
def atop (s : State) (rest : List Line) : State := { s with below := s.below ++ rest }

/-- A piece on top of other lines is embedded as it is. -/
theorem within_top (s : State) (rest : List Line) : s.within ⟨0, [], rest⟩ = s.atop rest := by
  have hposition (p : Position) : p.down 0 = p := rfl
  have htokens : s.tokens.map (·.down 0) = s.tokens := List.map_id'' (fun _ => rfl) _
  have hevents : s.events.map (·.down 0) = s.events := by
    refine List.map_id'' (fun e => ?_) _
    cases e <;> rfl
  have hmode : s.mode.down 0 = s.mode := by
    cases s.mode <;> rfl
  unfold within atop
  rw [htokens, hevents, hmode, List.append_nil]
  rfl

theorem initial_append {common : List Line} (hne : common ≠ []) (rest : List Line) :
    initial (common ++ rest) = (initial common).atop rest := by
  obtain ⟨line, below, rfl⟩ := List.exists_cons_of_ne_nil hne
  have henter : State.enter { below := line :: below ++ rest } line (below ++ rest) =
      (State.enter { below := line :: below } line below).atop rest := by
    rw [← within_top, ← enter_within]
    rfl
  rw [List.cons_append] at henter ⊢
  unfold initial
  dsimp only
  rw [henter]
  split <;> rfl

/-- **The first lines of a source** stop the scan, whatever stands below them, or the scan leaves
them. -/
theorem course_of_firstLines {common : List Line} (hne : common ≠ []) :
    (∃ (u : State) (fault : Finding), (fault.rule = .unclosedMega ∨ fault.line ≤ common.length) ∧
      (∀ e ∈ u.events, e.Within 0 common.length) ∧
      ∀ rest, (initial (common ++ rest)).run = (u.atop rest, some fault)) ∨
    ∃ t : State, ∀ rest, Reaches (initial (common ++ rest)) (t.atop rest) ∧
      Leaves common.length (t.atop rest).step := by
  let source : Source := ⟨common.toArray, []⟩
  have hsource : source.lines.toList = common := List.toList_toArray
  have hlast : source.lastIndex = common.length := List.size_toArray
  obtain ⟨t, hreach, houtcome⟩ := run_outcome (initial common)
  have hplaced : Placed source t.track := placed_of_reaches (hsource.symm ▸ hreach)
  have hfits (rest : List Line) (s : State) : Frame.Fits ⟨0, [], rest⟩ s := fun _ => rfl
  have hreaches (rest : List Line) : Reaches (initial (common ++ rest)) (t.atop rest) := by
    rw [initial_append hne, ← within_top, ← within_top]
    exact (reaches_within (hfits rest _) hreach).1
  by_cases hmeets : t.MeetsEnd
  · refine .inr ⟨t, fun rest => ⟨hreaches rest, ?_⟩⟩
    have hleaves := hmeets.leaves (hfits rest t)
    have hcount : t.line + t.below.length = common.length := by
      have hbelow : t.below.length = common.length - t.line := by
        have hdrop := congrArg List.length hplaced.below
        rwa [hsource, List.length_drop] at hdrop
      have hle : t.line ≤ common.length := hlast ▸ hplaced.line_le
      omega
    rw [← within_top, ← hcount]
    exact hleaves
  · refine .inl ?_
    rcases houtcome with ⟨u, hstep, -⟩ | ⟨u, fault, hstep, hrun⟩
    · obtain ⟨hmode, hrest, hbelow, -⟩ := completed_of_step hstep
      exact absurd (.source (by simp [hmode]) hrest hbelow) hmeets
    · have hu : u.line ≤ common.length := by
        have hle := (placed_of_run source).line_le
        rwa [hsource, hrun, hlast] at hle
      refine ⟨u, fault, ?_, fun e he => ?_, fun rest => ?_⟩
      · refine (placesFault_of_step hstep).line.symm.imp (·.1) fun hline => ?_
        exact hline ▸ hlast ▸ hplaced.line_le
      · have hwithin := within_of_run common
        rw [hrun] at hwithin
        exact (hwithin e he).mono (Nat.le_refl _) hu
      · have hwhole := step_within (hfits rest t) (.inr hmeets)
        rw [hstep, within_top] at hwhole
        rw [run_of_reaches (hreaches rest), run_of_failed hwhole, within_top]
        rfl

end State

/-! ### Below the first lines -/

namespace State

variable {s t : State} {n : Nat}

/-- **A fault below**: what stops a scan that has left the first lines stands below them, unless it
is that the source ended. -/
theorem lt_line_of_leaves {source : Source} (hreach : Reaches (initial source.lines.toList) s)
    (h : Leaves n s.step) {fault : Finding} (hfault : s.run.2 = some fault)
    (hcomment : fault.rule ≠ .unclosedComment) (hmega : fault.rule ≠ .unclosedMega) :
    n < fault.line ∧ fault.line ≤ source.lastIndex := by
  generalize hstep : s.step = outcome at h
  cases h with
  | ends hends =>
    cases hends with
    | completed u =>
      rw [run_of_completed hstep] at hfault
      cases hfault
    | unclosed u hrule =>
      rw [run_of_failed hstep] at hfault
      obtain rfl := Option.some.inj hfault
      exact absurd hrule (by simp [hcomment, hmega])
  | @next t hlt =>
    rw [run_of_next hstep] at hfault
    obtain ⟨v, hon, ⟨u, -, hrun⟩ | ⟨u, fault', hfail, hrun⟩⟩ := run_outcome t
    · rw [hrun] at hfault
      cases hfault
    · rw [hrun] at hfault
      obtain rfl := Option.some.inj hfault
      have hline : fault'.line = v.line :=
        (placesFault_of_step hfail).line.resolve_right fun hopen => hmega hopen.1
      have hbelow : n < v.track.line :=
        hon.invariant (P := fun x => n < x.line)
          (fun _ _ hx hleg => hx.trans_le (line_le_of_leg hleg)) hlt
      have hplaced := placed_of_reaches ((hreach.tail hstep).trans hon)
      exact ⟨hline ▸ hbelow, hline ▸ hplaced.line_le⟩

/-- **Tokens below**: what a completed scan adds once it has left the first lines stops below
them, but for the end of the source. -/
theorem tokens_of_leaves (h : Leaves n s.step) (hend : s.run.2 = none) :
    ∃ new, s.run.1.tokens = new ++ s.tokens ∧ ∀ t ∈ new, t.kind = .eof ∨ n < t.stop.line := by
  have hlast {t u : State} (hstep : t.step = .completed u) :
      ∃ e : Token, u.tokens = e :: t.tokens ∧ e.kind = .eof := by
    obtain ⟨-, -, -, e, hkind, -, htrack⟩ := completed_of_step hstep
    exact ⟨e, congrArg Track.tokens htrack, hkind⟩
  generalize hstep : s.step = outcome at h
  cases h with
  | ends hends =>
    cases hends with
    | completed u =>
      obtain ⟨e, htokens, hkind⟩ := hlast hstep
      rw [run_of_completed hstep]
      exact ⟨[e], htokens, by simp [hkind]⟩
    | unclosed u hrule =>
      rw [run_of_failed hstep] at hend
      cases hend
  | @next t hlt =>
    obtain ⟨first, hfirst, hstops⟩ := tokens_of_leg (leg_of_step hstep)
    rw [run_of_next hstep] at hend ⊢
    obtain ⟨v, hon, ⟨u, hdone, hrun⟩ | ⟨u, fault, -, hrun⟩⟩ := run_outcome t
    · -- From the first state below on, every leg adds tokens that stop below.
      have hbelow : n < v.track.line ∧ ∃ new, v.track.tokens = new ++ s.tokens ∧
          ∀ x ∈ new, n < x.stop.line := by
        refine hon.invariant (P := fun x => n < x.line ∧ ∃ new, x.tokens = new ++ s.tokens ∧
          ∀ t ∈ new, n < t.stop.line) ?_ ⟨hlt, first, hfirst, fun x hx => (hstops x hx).symm ▸ hlt⟩
        rintro x y ⟨hx, new, hnew, hold⟩ hleg
        obtain ⟨newer, hnewer, hnewest⟩ := tokens_of_leg hleg
        have hy : n < y.line := hx.trans_le (line_le_of_leg hleg)
        refine ⟨hy, newer ++ new, by rw [hnewer, hnew, List.append_assoc], fun t ht => ?_⟩
        rcases List.mem_append.mp ht with ht | ht
        · exact (hnewest t ht).symm ▸ hy
        · exact hold t ht
      obtain ⟨-, new, hnew, hstop⟩ := hbelow
      obtain ⟨e, htokens, hkind⟩ := hlast hdone
      rw [hrun]
      refine ⟨e :: new, ?_, ?_⟩
      · rw [htokens, show v.tokens = new ++ s.tokens from hnew]
        rfl
      · exact List.forall_mem_cons.mpr ⟨.inl hkind, fun x hx => .inr (hstop x hx)⟩
    · rw [hrun] at hend
      cases hend

end State

/-! ### Sources that begin alike -/

/-- The lines of a source that begins with some. -/
theorem Source.line?_of_prefix {common : List Line} {source : Source}
    (h : common <+: source.lines.toList) {n : Nat} (hn : n < common.length) :
    source.line? (n + 1) = common[n]? := by
  obtain ⟨rest, hrest⟩ := h
  show source.lines[n]? = _
  rw [← Array.getElem?_toList, ← hrest, List.getElem?_append_left hn]

/-- Reading more lines leaves those read before. -/
theorem Region.prefix_foldl_read (texts : List (List Char)) (r : Region) :
    r.lines.toList <+: (texts.foldl Region.read r).lines.toList := by
  have hread (r : Region) (text : List Char) :
      r.lines.toList <+: (r.read text).lines.toList := by
    have hpush (line : Line) : r.lines.toList <+: (r.lines.push line).toList := by
      rw [Array.toList_push]
      exact List.prefix_append _ _
    unfold Region.read
    extract_lets index trimmed
    split
    · exact hpush _
    · split
      · split <;> exact hpush _
      · split <;> exact hpush _
  induction texts generalizing r with
  | nil => exact List.prefix_refl _
  | cons text texts ih => exact (hread r text).trans (ih _)

/-- **Sources begin alike** if their texts do. -/
theorem exists_common_lines {a b : String} {n : Nat}
    (h : (rawLines a).take n = (rawLines b).take n) :
    ∃ common : List Line, common.length = min n (Source.ofString a).lastIndex ∧
      common.length = min n (Source.ofString b).lastIndex ∧
      common <+: (Source.ofString a).lines.toList ∧
      common <+: (Source.ofString b).lines.toList := by
  have hfold (text : String) : (((rawLines text).take n).foldl Region.read {}).lines.toList <+:
      (Source.ofString text).lines.toList := by
    have hsplit := Region.prefix_foldl_read ((rawLines text).drop n)
      (((rawLines text).take n).foldl Region.read {})
    rwa [← List.foldl_append, List.take_append_drop] at hsplit
  refine ⟨_, ?_, ?_, hfold a, h ▸ hfold b⟩
  · rw [Array.length_toList, (follows_foldl_read _).size, List.length_take, lastIndex_ofString]
  · rw [Array.length_toList, (follows_foldl_read _).size, h, List.length_take, lastIndex_ofString]

/-- **Agreement up to a line**: sources that show the same lines up to it and move no place above
it across it. -/
structure Source.AgreeTo (n : Nat) (a b : Source) : Prop where
  line? : ∀ i ≤ n, a.line? i = b.line? i
  clampLine : ∀ i ≤ n, a.clampLine i = b.clampLine i ∧ a.clampLine i ≤ n

/-- Sources agree up to the last of the lines that both begin with. -/
theorem agreeTo_of_prefix {common : List Line} {a b : Source} (hne : common ≠ [])
    (ha : common <+: a.lines.toList) (hb : common <+: b.lines.toList) :
    Source.AgreeTo common.length a b where
  line? := by
    intro i hi
    cases i with
    | zero => rfl
    | succ i => rw [Source.line?_of_prefix ha hi, Source.line?_of_prefix hb hi]
  clampLine := by
    have hpos : 1 ≤ common.length := List.length_pos_iff.mpr hne
    have hlast {source : Source} (h : common <+: source.lines.toList) {i : Nat}
        (hi : i ≤ common.length) : source.clampLine i = max 1 i := by
      have hle : common.length ≤ source.lastIndex := h.length_le
      unfold Source.clampLine
      omega
    intro i hi
    rw [hlast ha hi, hlast hb hi]
    exact ⟨rfl, Nat.max_le.mpr ⟨hpos, hi⟩⟩

namespace Source.AgreeTo

variable {n : Nat} {source source' : Source} {settings : Settings} {a b : Account}

theorem clampColumn (h : AgreeTo n source source') {line : Nat} (hline : line ≤ n) (column : Nat) :
    source.clampColumn line column = source'.clampColumn line column := by
  unfold Source.clampColumn Source.lengthAt
  rw [h.line? line hline]

/-- A finding above makes the same diagnostic. -/
theorem diagnostic (h : AgreeTo n source source') {finding : Finding} (hline : finding.line ≤ n)
    (severity : Severity) :
    Account.diagnostic source finding severity = Account.diagnostic source' finding severity := by
  obtain ⟨hclamp, hle⟩ := h.clampLine _ hline
  rw [hclamp] at hle
  unfold Account.diagnostic
  dsimp only
  rw [hclamp, h.clampColumn hle, Source.textAt, Source.textAt, h.line? _ hle]

/-- An event above makes the same diagnostic, after the same directives. -/
theorem diagnosticOf? (h : AgreeTo n source source') (hab : a.Alike b) {event : Event}
    (hevent : event.Within 0 n) :
    a.diagnosticOf? source settings event = b.diagnosticOf? source' settings event := by
  have hreported {finding : Finding} (hline : finding.line ≤ n) :
      a.reported? source settings finding = b.reported? source' settings finding := by
    obtain ⟨hclamp, hle⟩ := h.clampLine _ hline
    rw [hclamp] at hle
    unfold Account.reported? Account.level
    rw [hab.level?, hclamp, Source.isQuiet, Source.isQuiet, h.line? _ hle]
    simp only [h.diagnostic hline]
  cases event with
  | found finding => exact hreported hevent.2.1
  | lineLeft line =>
    simp only [Account.diagnosticOf?]
    rw [Source.lengthAt, Source.lengthAt, h.line? line hevent.2, hreported hevent.2]
  | todo line column =>
    simp only [Account.diagnosticOf?]
    rw [Account.flag, Account.flag, hab.flag?, hreported hevent.2]
  | levelSet rule level => rfl
  | flagSet flag on => rfl
  | globalDeclared name => rfl
  | propertyNamed name => rfl

/-- A fault above makes the same diagnostic, after the same directives. -/
theorem faultDiagnostic? (h : AgreeTo n source source') (hab : a.Alike b) {fault : Finding}
    (hline : fault.line ≤ n) :
    a.faultDiagnostic? source settings (some fault) =
      b.faultDiagnostic? source' settings (some fault) := by
  unfold Account.faultDiagnostic? Account.level
  rw [hab.level?, Option.bind_some, Option.bind_some, h.diagnostic hline]

end Source.AgreeTo

/-! ### Diagnostics but for those of the markers -/

/-- A diagnostic on a region marker without its partner. -/
def Diagnostic.isMarkerIssue (d : Diagnostic) : Bool :=
  d.rule == .unopenedEnable || d.rule == .unclosedDisable

/-- The diagnostics but for those of the region markers. -/
def beyondMarkers (diagnostics : List Diagnostic) : List Diagnostic :=
  diagnostics.filter fun d => !d.isMarkerIssue

/-- **The same up to the markers**: accounts that heard the same directives and report the same but
for the region markers. -/
structure Account.SameReports (a b : Account) : Prop where
  alike : a.Alike b
  reports : beyondMarkers a.diagnostics = beyondMarkers b.diagnostics

namespace Account

variable {n : Nat} {source source' : Source} {settings : Settings} {a b c : Account}

theorem SameReports.symm (h : a.SameReports b) : b.SameReports a :=
  ⟨h.alike.symm, h.reports.symm⟩

theorem SameReports.trans (h : a.SameReports b) (h' : b.SameReports c) : a.SameReports c :=
  ⟨h.alike.trans h'.alike, h.reports.trans h'.reports⟩

/-- Events above are reported the same. -/
theorem SameReports.recordAll (hagree : source.AgreeTo n source') (h : a.SameReports b)
    {events : List Event} (hevents : ∀ e ∈ events, e.Within 0 n) :
    (a.recordAll source settings events).SameReports (b.recordAll source' settings events) := by
  induction events generalizing a b with
  | nil => exact h
  | cons event events ih =>
    obtain ⟨hevent, hrest⟩ := List.forall_mem_cons.mp hevents
    refine ih ⟨h.alike.record event, ?_⟩ hrest
    rw [diagnostics_record, diagnostics_record, hagree.diagnosticOf? h.alike hevent, beyondMarkers,
      beyondMarkers, List.filter_append, List.filter_append]
    exact congrArg _ h.reports

/-- The issues of the markers are reported, and nothing else. -/
theorem sameReports_issues (settings : Settings) (text : String) (a : Account) :
    a.SameReports (a.recordAll (.ofString text) settings (Source.ofString text).issueEvents) := by
  have hrule : ∀ i ∈ (Source.ofString text).issues,
      i.rule = .unopenedEnable ∨ i.rule = .unclosedDisable := fun i hi => rule_of_mem_issues text hi
  unfold Source.issueEvents
  generalize (Source.ofString text).issues = issues at hrule
  induction issues generalizing a with
  | nil => exact ⟨⟨rfl, rfl, rfl⟩, rfl⟩
  | cons issue issues ih =>
    obtain ⟨hissue, hrest⟩ := List.forall_mem_cons.mp hrule
    let finding : Finding := { rule := issue.rule, line := issue.line, column := 1 }
    obtain ⟨halike, hreports⟩ := ih (a.record (.ofString text) settings (.found finding)) hrest
    refine ⟨(alike_record _ settings a (.inl ⟨finding, rfl⟩)).trans halike, ?_⟩
    refine Eq.trans ?_ hreports
    rw [diagnostics_record, beyondMarkers, beyondMarkers, List.filter_append]
    have hnone : ((a.diagnosticOf? (.ofString text) settings (.found finding)).toList).filter
        (fun d => !d.isMarkerIssue) = [] := by
      refine List.filter_eq_nil_iff.mpr fun d hd => ?_
      obtain ⟨hsame, -⟩ := of_reported? (Option.mem_toList.mp hd)
      have hmarker : d.rule = .unopenedEnable ∨ d.rule = .unclosedDisable := hsame ▸ hissue
      rcases hmarker with hmarker | hmarker <;> simp [Diagnostic.isMarkerIssue, hmarker]
    rw [hnone, List.nil_append]

end Account

/-! ### Passes -/

/-- The tokens that stop on the first `n` lines, but for the end of the source. -/
def tokensUpTo (n : Nat) (tokens : List Token) : List Token :=
  tokens.filter fun t => t.kind != .eof && decide (t.stop.line ≤ n)

section

variable {a b : String} {n : Nat} (settings : Settings)
  (h : (rawLines a).take n = (rawLines b).take n)

include h

/-- **What stops a scan on the first lines** stops it whatever stands below. -/
theorem abort_of_firstLines {abort : Abort} (habort : (Pass.run settings a).abort = some abort)
    (hline : abort.line ≤ n) (hcomment : abort.rule ≠ .unclosedComment)
    (hmega : abort.rule ≠ .unclosedMega) :
    (Pass.run settings b).abort = some abort ∧
      beyondMarkers (verify settings a) = beyondMarkers (verify settings b) := by
  obtain ⟨fault, hfault, hrule, hclamp, hcolumn⟩ := fault_of_abort habort
  have hone : 1 ≤ abort.line := hclamp ▸ Nat.le_max_left _ _
  obtain ⟨common, hlength, -, hbegins, hbegins'⟩ := exists_common_lines h
  have hne : common ≠ [] := by
    have hlast := Source.one_le_lastIndex a
    rintro rfl
    rw [List.length_nil] at hlength
    omega
  have hagree := agreeTo_of_prefix hne hbegins hbegins'
  obtain ⟨rest, hrest⟩ := hbegins
  obtain ⟨rest', hrest'⟩ := hbegins'
  rw [scan_eq, ← hrest] at hfault
  rcases State.course_of_firstLines hne with ⟨u, fault', hplace, hevents, hrun⟩ | ⟨t, ht⟩
  · rw [hrun] at hfault
    obtain rfl := Option.some.inj hfault
    have hfaultLine : fault'.line ≤ common.length := hplace.resolve_left (hrule ▸ hmega)
    have hscan {text : String} {rest : List Line}
        (hrest : common ++ rest = (Source.ofString text).lines.toList) :
        scan (.ofString text) = ⟨u.tokens.reverse,
          (Source.ofString text).issueEvents ++ u.events.reverse, some fault'⟩ := by
      rw [scan_eq, ← hrest, hrun]
      rfl
    have hsame : (Account.atEnd settings a).SameReports (Account.atEnd settings b) := by
      unfold Account.atEnd
      rw [hscan hrest, hscan hrest', Account.recordAll_append, Account.recordAll_append]
      refine Account.SameReports.recordAll hagree ?_ fun e he => hevents e (List.mem_reverse.mp he)
      exact (Account.sameReports_issues settings a _).symm.trans
        (Account.sameReports_issues settings b _)
    obtain ⟨hclamp', hle⟩ := hagree.clampLine _ hfaultLine
    rw [← hclamp] at hclamp' hle
    refine ⟨?_, ?_⟩
    · show (scan (.ofString b)).fault.map _ = some abort
      rw [hscan hrest', Option.map_some]
      dsimp only
      rw [← hclamp', ← hagree.clampColumn hle, ← hcolumn, ← hrule]
    · have hreports := hsame.reports
      unfold beyondMarkers at hreports ⊢
      rw [verify_eq, verify_eq, hscan hrest, hscan hrest', List.filter_append, List.filter_append,
        List.filter_reverse, List.filter_reverse, hreports,
        hagree.faultDiagnostic? hsame.alike hfaultLine]
  · -- Otherwise the scan would have left the lines before it stopped.
    obtain ⟨hreach, hleaves⟩ := ht rest
    rw [State.run_of_reaches hreach] at hfault
    rw [hrest] at hreach
    obtain ⟨hbelow, hlast⟩ := State.lt_line_of_leaves hreach hleaves hfault (hrule ▸ hcomment)
      (hrule ▸ hmega)
    unfold Source.clampLine at hclamp
    omega

/-- **What a completed scan reads on the first lines** it reads whatever stands below. -/
theorem tokens_of_firstLines (ha : (Pass.run settings a).abort = none)
    (hb : (Pass.run settings b).abort = none) :
    tokensUpTo n (Pass.run settings a).tokens = tokensUpTo n (Pass.run settings b).tokens := by
  obtain ⟨common, hlength, hlength', hbegins, hbegins'⟩ := exists_common_lines h
  have htiling {text : String} (hend : (Pass.run settings text).abort = none) :=
    tiling_of_scan (Source.one_le_lastIndex text) (fault_eq_none_of_abort hend)
  have hfilter {text : String} {tokens new : List Token}
      (hend : (Pass.run settings text).abort = none)
      (htokens : (Pass.run settings text).tokens = tokens ++ new)
      (hnew : ∀ t ∈ new, t.kind = .eof ∨ min n (Source.ofString text).lastIndex < t.stop.line) :
      tokensUpTo n (Pass.run settings text).tokens = tokensUpTo n tokens := by
    have hnone : tokensUpTo n new = [] := by
      refine List.filter_eq_nil_iff.mpr fun t ht => ?_
      have hinside : t.stop.line ≤ (Source.ofString text).lastIndex := by
        refine ((htiling hend).inside t ?_).2.line_le
        show t ∈ (Pass.run settings text).tokens
        rw [htokens]
        exact List.mem_append_right _ ht
      rcases hnew t ht with heof | hlt
      · simp [heof]
      · simp
        omega
    rw [htokens, tokensUpTo, List.filter_append]
    exact (congrArg _ hnone).trans (List.append_nil _)
  by_cases hne : common = []
  · -- Without a line in common no token stops so far above.
    have hread {text : String} (hlength : common.length = min n (Source.ofString text).lastIndex)
        (hend : (Pass.run settings text).abort = none) :
        tokensUpTo n (Pass.run settings text).tokens = tokensUpTo n [] := by
      refine hfilter hend (List.nil_append _).symm fun t ht => .inr ?_
      rw [← hlength, hne]
      exact ((htiling hend).inside t ht).2.one_le_line
    rw [hread hlength ha, hread hlength' hb]
  · rcases State.course_of_firstLines hne with ⟨u, fault, -, -, hrun⟩ | ⟨t, ht⟩
    · obtain ⟨rest, hrest⟩ := hbegins
      have hnone := fault_eq_none_of_abort ha
      rw [scan_eq, ← hrest, hrun] at hnone
      cases hnone
    · -- On either side the tokens of the lines in common are those of the state that leaves them.
      have hread {text : String} (hbegins : common <+: (Source.ofString text).lines.toList)
          (hlength : common.length = min n (Source.ofString text).lastIndex)
          (hend : (Pass.run settings text).abort = none) :
          tokensUpTo n (Pass.run settings text).tokens = tokensUpTo n t.tokens.reverse := by
        obtain ⟨rest, hrest⟩ := hbegins
        obtain ⟨hreach, hleaves⟩ := ht rest
        have hnone := fault_eq_none_of_abort hend
        rw [scan_eq, ← hrest, State.run_of_reaches hreach] at hnone
        obtain ⟨new, hnew, hstop⟩ := State.tokens_of_leaves hleaves hnone
        have hnewest : ∀ x ∈ new.reverse, x.kind = .eof ∨
            min n (Source.ofString text).lastIndex < x.stop.line :=
          fun x hx => hlength ▸ hstop x (List.mem_reverse.mp hx)
        refine hfilter hend ?_ hnewest
        show (scan (.ofString text)).tokens = _
        rw [scan_eq, ← hrest, State.run_of_reaches hreach, hnew, List.reverse_append]
        rfl
      rw [hread hbegins hlength ha, hread hbegins' hlength' hb]

end

/-- **The first lines decide.**  Of two texts that begin with the same `n` lines, if the pass over
the first stops on these, for another reason than the end of the source, the pass over the second
stops there for the same reason, with the same diagnostics but for those of the region markers; and
if neither stops, they have the same tokens that stop on these lines. -/
theorem firstLines_decide (settings : Settings) {a b : String} {n : Nat}
    (h : (rawLines a).take n = (rawLines b).take n) :
    (∀ abort, (Pass.run settings a).abort = some abort → abort.line ≤ n →
      abort.rule ≠ .unclosedComment → abort.rule ≠ .unclosedMega →
      (Pass.run settings b).abort = some abort ∧
        beyondMarkers (Pass.run settings a).diagnostics =
          beyondMarkers (Pass.run settings b).diagnostics) ∧
    ((Pass.run settings a).abort = none → (Pass.run settings b).abort = none →
      tokensUpTo n (Pass.run settings a).tokens = tokensUpTo n (Pass.run settings b).tokens) := by
  refine ⟨fun abort habort hline hcomment hmega => ?_, tokens_of_firstLines settings h⟩
  rw [← verify_eq_run, ← verify_eq_run]
  exact abort_of_firstLines settings h habort hline hcomment hmega

/-- A string that is not closed on the first line, over a marker or a template; and a template
that goes on below the first line, in two ways. -/
theorem same_above_differing_lines :
    ((Pass.run {} "let a = 'b;\n\x60").abort = some ⟨.unclosedString, 1, 11⟩ ∧
      beyondMarkers (Pass.run {} "let a = 'b;\n/*jslint-enable*/").diagnostics =
        beyondMarkers (Pass.run {} "let a = 'b;\n\x60").diagnostics) ∧
    tokensUpTo 1 (Pass.run {} "a = \x60b\nc\x60;").tokens =
      tokensUpTo 1 (Pass.run {} "a = \x60b\n/*\x60; d").tokens :=
  ⟨(firstLines_decide {} (n := 1) (by decide)).1 ⟨.unclosedString, 1, 11⟩ (by decide +kernel)
      (by decide) (by decide) (by decide),
    (firstLines_decide {} (n := 1) (by decide)).2 (by decide +kernel) (by decide +kernel)⟩

end ScriptLint
