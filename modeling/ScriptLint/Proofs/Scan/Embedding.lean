import ScriptLint.Proofs.Scan.Course

/-!
# A scan inside a longer source

A scan goes by the characters ahead and by what it has read.  It never looks at the number
of its line, which only goes into places, nor at the events recorded, nor at the lines below
before it enters them.  So a scan of a piece of a source is **embedded** in the scan of the
whole: with more lines above every place moves down, the events of those lines come first,
and the lines below the piece make no difference until the piece is at its end.

## Main definitions

* `Frame` — what a longer source has around a piece of it
* `State.within` — a state of the scan of a piece, as one of the scan of the whole
* `State.MeetsEnd` — the next step looks for more than there is

## Main statements

* `State.step_within` — a step that does not meet the end of the piece is one of the whole
* `State.reaches_within`, `State.run_within` — so are the states reached, and a run to the end
-/

namespace ScriptLint

/-! ### Moving down -/

/-- A place some lines further down. -/
def Position.down (k : Nat) (p : Position) : Position := ⟨p.line + k, p.column⟩

/-- A token some lines further down. -/
def Token.down (k : Nat) (t : Token) : Token :=
  { t with start := t.start.down k, stop := t.stop.down k }

/-- A finding some lines further down. -/
def Finding.down (k : Nat) (finding : Finding) : Finding :=
  { finding with line := finding.line + k }

/-- An event some lines further down. -/
def Event.down (k : Nat) : Event → Event
  | found finding => found (finding.down k)
  | lineLeft line => lineLeft (line + k)
  | todo line column => todo (line + k) column
  | levelSet rule level => levelSet rule level
  | flagSet flag on => flagSet flag on
  | globalDeclared name => globalDeclared name
  | propertyNamed name => propertyNamed name

/-- A mode with its template some lines further down. -/
def Mode.down (k : Nat) : Mode → Mode
  | code => code
  | template opening => template (opening.down k)
  | interpolation opening => interpolation (opening.down k)

@[simp] theorem Mode.opening?_down (k : Nat) (mode : Mode) :
    (mode.down k).opening? = mode.opening?.map (·.down k) := by
  cases mode <;> rfl

theorem Position.down_inj {k : Nat} {p q : Position} : p.down k = q.down k ↔ p = q := by
  cases p
  cases q
  simp [down]

@[simp] theorem Token.isOperator_down (k : Nat) (t : Token) (value : String) :
    (t.down k).isOperator value = t.isOperator value := rfl

@[simp] theorem Token.isCommentLike_down (k : Nat) (t : Token) :
    (t.down k).isCommentLike = t.isCommentLike := rfl

/-! ### Frames -/

/-- **Frame**: what a longer source has around a piece of it. -/
structure Frame where
  /-- The number of lines above. -/
  above : Nat
  /-- The events of the lines above, newest first. -/
  before : List Event
  /-- The lines below. -/
  below : List Line

namespace State

/-- **Embedding**: a state of the scan of a piece, as one of the scan of the whole. -/
def within (m : Frame) (s : State) : State :=
  { s with
    line := s.line + m.above
    below := s.below ++ m.below
    mode := s.mode.down m.above
    tokens := s.tokens.map (·.down m.above)
    events := s.events.map (·.down m.above) ++ m.before }

end State

/-- The outcome of a step of the scan of a piece, as one of the scan of the whole. -/
def Step.within (m : Frame) : Step → Step
  | next s => next (s.within m)
  | completed s => completed (s.within m)
  | failed s fault => failed (s.within m) (fault.down m.above)

/-- The outcome of a reading over the lines of a piece, as one over the lines of the whole. -/
def Frame.outcome {α : Type} (m : Frame) (result : α → α) : Except State α → Except State α
  | .error s => .error (s.within m)
  | .ok a => .ok (result a)

/-- A state that stands on a line of a piece, or a frame without lines above: before its first line
a scan leaves no line. -/
def Frame.Fits (m : Frame) (s : State) : Prop := s.line = 0 → m.above = 0

theorem Frame.Fits.of_records {m : Frame} {s t : State} (h : m.Fits s) (hrecords : s.Records t) :
    m.Fits t :=
  fun hzero => h (Nat.le_zero.mp (hzero ▸ hrecords.line_le))

namespace State

variable (m : Frame) (s : State)

/-! ### Views -/

theorem inTemplate_within : (s.within m).inTemplate = s.inTemplate := by
  simp [inTemplate, within]

theorem position_within : (s.within m).position = s.position.down m.above := rfl

theorem preceding_within : (s.within m).preceding = s.preceding.map (·.down m.above) := by
  show (s.tokens.map _).find? _ = (s.tokens.find? _).map _
  rw [List.find?_map]
  rfl

theorem afterDot_within : (s.within m).afterDot = s.afterDot := by
  unfold afterDot
  rw [preceding_within]
  cases s.preceding <;> rfl

theorem directivesOpen_within : (s.within m).directivesOpen = s.directivesOpen := by
  unfold directivesOpen
  rw [preceding_within]
  cases s.preceding <;> rfl

theorem slashRole_preceding_within :
    slashRole (s.within m).preceding = slashRole s.preceding := by
  rw [preceding_within]
  cases s.preceding <;> rfl

theorem token_within (kind : TokenKind) (value : String) (start : Position) :
    (s.within m).token kind value (start.down m.above) =
      (s.token kind value start).down m.above := by
  unfold token Token.down
  rw [show (s.within m).tokens = s.tokens.map (·.down m.above) from rfl]
  cases s.tokens <;> rfl

theorem relocates_within (offset : Nat) :
    Relocates (·.down m.above) (·.down m.above) (s.surroundings offset)
      ((s.within m).surroundings offset) where
  origin := rfl
  json := rfl
  inTemplate := s.inTemplate_within m
  finding := fun _ _ _ _ _ _ => rfl
  fault := fun _ _ _ _ => rfl

/-! ### Reports and moves -/

theorem note_within (rule : Rule) (column : Nat) (args : List String) :
    (s.within m).note rule column args = (s.note rule column args).within m := rfl

theorem noteIf_within (p : Bool) (rule : Rule) (column : Nat) (args : List String) :
    (s.within m).noteIf p rule column args = (s.noteIf p rule column args).within m := by
  unfold noteIf
  split <;> rfl

theorem noteAll_within (findings : List Finding) :
    (s.within m).noteAll (findings.map (·.down m.above)) = (s.noteAll findings).within m := by
  simp [noteAll, within, Event.down]

theorem advance_within (n : Nat) : (s.within m).advance n = (s.advance n).within m := rfl

variable {m s} in
theorem leaveLine_within (h : m.Fits s) : (s.within m).leaveLine = s.leaveLine.within m := by
  have hzero : (s.within m).line = 0 ↔ s.line = 0 := by
    show s.line + m.above = 0 ↔ _
    constructor
    · omega
    · intro hs
      rw [hs, h hs]
  unfold leaveLine
  rw [show (s.within m).exempt = s.exempt from rfl,
    show (s.within m).regexSeen = s.regexSeen from rfl,
    show (s.within m).json = s.json from rfl]
  simp only [hzero]
  split <;> rfl

theorem checkBlanks_within (text : List Char) :
    (s.within m).checkBlanks text = (s.checkBlanks text).within m := by
  unfold checkBlanks
  extract_lets tab kept
  rw [noteIf_within, noteIf_within]

theorem enter_within (line : Line) (below : List Line) :
    (s.within m).enter line (below ++ m.below) = (s.enter line below).within m := by
  unfold enter
  extract_lets text t checked t' checked'
  have ht : t = t'.within m := by
    simp only [t, t', inTemplate_within]
    simp [within, Nat.add_right_comm]
  have hchecked : checked = checked'.within m := by
    simp only [checked, checked', ht, checkBlanks_within]
  rw [inTemplate_within]
  split
  · exact ht
  · rw [hchecked]
    rfl

variable {m s} in
/-- The next line of a piece is the next line of the whole. -/
theorem nextLine?_within {t : State} (hfits : m.Fits s) (h : s.nextLine? = some t) :
    (s.within m).nextLine? = some (t.within m) := by
  unfold nextLine? at h ⊢
  split at h
  · cases h
  · next line below hbelow =>
    obtain rfl := Option.some.inj h
    rw [show (s.within m).below = line :: (below ++ m.below) by simp [within, hbelow]]
    show some _ = some _
    rw [leaveLine_within hfits, enter_within]

/-- A piece that goes on to the end of the whole ends with it. -/
theorem nextLine?_within_eq_none (hbelow : m.below = []) (h : s.nextLine? = none) :
    (s.within m).nextLine? = none := by
  have hnil : (s.within m).below = [] := by
    show s.below ++ m.below = []
    rw [below_eq_nil_of_nextLine? h, hbelow]
    rfl
  unfold nextLine?
  rw [hnil]

variable {m s} in
/-- A line that was entered is a line of the piece. -/
theorem fits_of_nextLine? {t : State} (h : s.nextLine? = some t) : m.Fits t := by
  obtain ⟨line, below, -, htrack⟩ := track_of_nextLine? h
  have hline : t.line = s.line + 1 := congrArg Track.line htrack
  intro hzero
  rw [hline] at hzero
  cases hzero

/-! ### Tokens -/

theorem checkNeighbours_within (t : Token) :
    (s.within m).checkNeighbours (t.down m.above) = (s.checkNeighbours t).within m := by
  unfold checkNeighbours
  rw [show (s.within m).tokens = s.tokens.map (·.down m.above) from rfl]
  cases s.tokens with
  | nil => rfl
  | cons p tokens =>
    have hstop : decide ((p.down m.above).stop = (t.down m.above).start) =
        decide (p.stop = t.start) :=
      decide_eq_decide.mpr Position.down_inj
    show noteIf (noteIf (s.within m) (decide ((p.down m.above).stop = (t.down m.above).start) &&
      p.isCommentLike && (t.isCommentLike || t.isOperator "/")) _ _ _) _ _ _ _ = _
    rw [hstop, noteIf_within]
    exact noteIf_within m _ _ _ _ _

theorem push_within (t : Token) :
    (s.within m).push (t.down m.above) = (s.push t).within m := by
  unfold push
  rw [checkNeighbours_within]
  generalize s.checkNeighbours t = u
  simp [within]

theorem pushNext_within (n : Nat) (kind : TokenKind) (value : String) :
    (s.within m).pushNext n kind value = (s.pushNext n kind value).within m := by
  unfold pushNext
  extract_lets t t'
  have ht : t = t'.within m := rfl
  rw [ht, position_within, token_within, push_within]

theorem identifier_within (n : Nat) :
    (s.within m).identifier n = (s.identifier n).within m := by
  unfold identifier
  extract_lets value keyword dotted kind t base value' keyword' dotted' kind' t' base'
  have hdotted : dotted = dotted' := s.afterDot_within m
  have hkind : kind = kind' := by
    simp only [kind, kind', hdotted]
    rfl
  have hbase : base = base'.down m.above := by
    simp only [base, base', hkind]
    exact t'.token_within m kind' value' s.position
  rw [hbase, hdotted]
  exact t'.push_within m { base' with keyword := keyword', precededByDot := dotted' }

variable {m s}

theorem fail_within (h : m.Fits s) (rule : Rule) (line column : Nat) (args : List String) :
    (s.within m).fail rule (line + m.above) column args =
      (s.fail rule line column args).within m := by
  unfold fail
  rw [leaveLine_within h]
  rfl

theorem failWith_within (h : m.Fits s) (halt : Halt) :
    (s.within m).failWith (halt.relocate (·.down m.above) (·.down m.above)) =
      (s.failWith halt).within m := by
  have hnoted : m.Fits (s.noteAll halt.findings) := h
  unfold failWith
  show Step.failed ((s.within m).noteAll (halt.findings.map _)).leaveLine _ = _
  rw [noteAll_within, leaveLine_within hnoted]
  rfl

theorem number_within (h : m.Fits s) (lead : Nat) :
    (s.within m).number lead = (s.number lead).within m := by
  have hread : ({ rest := (s.within m).rest } : Strand).number _ lead = _ :=
    (relocates_within m s 0).number { rest := s.rest } lead
  unfold number
  rw [hread]
  cases ({ rest := s.rest } : Strand).number (s.surroundings 0) lead with
  | error halt => exact failWith_within h halt
  | ok read =>
    show Step.next (((s.within m).noteAll (read.findings.map _)).pushNext _ _ _) = Step.next _
    rw [noteAll_within, pushNext_within]
    rfl

theorem string_within (h : m.Fits s) (quote : Char) :
    (s.within m).string quote = (s.string quote).within m := by
  have hread : ({ rest := (s.within m).rest.tail } : Strand).quoted _ quote = _ :=
    (relocates_within m s 1).quoted { rest := s.rest.tail } quote
  unfold string
  rw [hread]
  cases ({ rest := s.rest.tail } : Strand).quoted (s.surroundings 1) quote with
  | error halt => exact failWith_within h halt
  | ok read =>
    dsimp only [Reading.relocate]
    simp only [Strand.findings_relocate, Strand.taken_relocate, Strand.text_relocate,
      noteAll_within, advance_within, position_within, token_within]
    exact congrArg Step.next (push_within m _ { token _ _ _ _ with quote := some quote })

theorem regex_within (h : m.Fits s) (role : SlashRole) :
    (s.within m).regex role = (s.regex role).within m := by
  unfold regex
  extract_lets u u'
  have hread : ({ rest := u.rest.tail } : Strand).regex (u.surroundings 1) = _ :=
    (relocates_within m u' 1).regex { rest := u'.rest.tail }
  rw [hread]
  cases ({ rest := u'.rest.tail } : Strand).regex (u'.surroundings 1) with
  | error halt => exact failWith_within (s := u') h halt
  | ok result =>
    obtain ⟨read, missesFlag⟩ := result
    dsimp only [Reading.relocate, Prod.map]
    rw [show u = u'.within m from rfl, Strand.findings_relocate, Strand.taken_relocate,
      Strand.text_relocate, noteAll_within, pushNext_within]
    generalize (u'.noteAll read.findings).pushNext _ _ _ = t
    rw [show (t.within m).column = t.column from rfl, noteIf_within]
    cases role <;> rfl

theorem division_within : (s.within m).division = s.division.within m := by
  unfold division
  rw [show (s.within m).rest = s.rest from rfl, show (s.within m).column = s.column from rfl,
    note_within, pushNext_within, pushNext_within]
  split <;> rfl

theorem backtick_within (h : m.Fits s) : (s.within m).backtick = s.backtick.within m := by
  unfold backtick
  rw [inTemplate_within, pushNext_within]
  split
  · exact fail_within h _ _ _ _
  · rfl

theorem punctuation_within (h : m.Fits s) (n : Nat) :
    (s.within m).punctuation n = (s.punctuation n).within m := by
  unfold punctuation
  extract_lets value t value' t'
  have ht : t = t'.within m := s.pushNext_within m n .operator value'
  have hfits : m.Fits t' := h.of_records (s.records_pushNext n .operator value')
  rw [ht, show (s.within m).mode = s.mode.down m.above from rfl, show value = value' from rfl]
  cases s.mode with
  | code => rfl
  | template opening => rfl
  | interpolation opening =>
    dsimp only [Mode.down]
    split
    · rfl
    · split
      · exact fail_within hfits _ _ _ _
      · rfl

/-! ### Comments -/

theorem directiveItem_down (item : DirectiveItem) (directive : Directive) (line column k : Nat) :
    item.events directive (line + k) column =
      (item.events directive line column).map (·.down k) := by
  unfold DirectiveItem.events
  cases directive with
  | globals =>
    dsimp only
    split <;> rfl
  | property => rfl
  | options =>
    dsimp only
    split <;> rfl

theorem directive_down (directive : Directive) (body : List Char) (line column k : Nat) :
    directive.events body (line + k) column =
      (directive.events body line column).map (·.down k) := by
  unfold Directive.events
  obtain ⟨items, rest⟩ := directiveItems body
  dsimp only
  rw [List.map_append, List.map_flatMap]
  congr 1
  · exact congrArg items.flatMap
      (funext fun item => directiveItem_down item directive line column k)
  · split <;> rfl

theorem inspectComment_within (value : List Char) (start : Position) :
    (s.within m).inspectComment value (start.down m.above) =
      (s.inspectComment value start).within m := by
  unfold inspectComment
  extract_lets line column t line' column' t'
  have ht : t = t'.within m := by
    simp only [t, t']
    split <;> rfl
  rw [ht, directivesOpen_within]
  split
  · rfl
  · next directive body _ =>
    split
    · have hevents : (directive.events body line column).reverse =
          (directive.events body line' column').reverse.map (·.down m.above) := by
        rw [List.map_reverse]
        exact congrArg List.reverse (directive_down directive body line' column' m.above)
      rw [hevents]
      simp [within]
    · rfl

theorem lineComment_within : (s.within m).lineComment = s.lineComment.within m := by
  unfold lineComment
  extract_lets value t u value' t' u'
  have ht : t = t'.within m := rfl
  have hu : u = u'.within m := by
    simp only [u, u', ht, position_within, token_within, push_within]
    rfl
  rw [hu, inTemplate_within, show (u'.within m).column = u'.column from rfl, noteIf_within,
    position_within, inspectComment_within]
  rfl

theorem noteNested_within (part : List Char) :
    (s.within m).noteNested part = (s.noteNested part).within m := by
  unfold noteNested
  split <;> rfl

theorem noteNestedLast_within (part : List Char) :
    (s.within m).noteNestedLast part = (s.noteNestedLast part).within m := by
  unfold noteNestedLast
  split
  · rfl
  · exact noteIf_within m s _ _ _ _

/-- **Kept in the piece**: a reading over lines that stays in a piece finds its goal there, or the
whole ends with the piece. -/
def Kept {α : Type} (m : Frame) (reading : Except State α) : Prop :=
  m.below = [] ∨ ∃ r, reading = .ok r

theorem Kept.below_eq_nil {α : Type} {t : State} (h : Kept m (.error t : Except State α)) :
    m.below = [] := by
  refine h.resolve_right ?_
  rintro ⟨r, hr⟩
  cases hr

theorem commentLineTurn_within {parts : List String} (hfits : m.Fits s)
    (h : Kept m (s.closeComment parts)) :
    commentLineTurn (parts, s.within m) =
      (commentLineTurn (parts, s)).map (Prod.map id (within m))
        (m.outcome (Prod.map id (within m))) := by
  have hiterates := isLoop_closeComment.iterates (parts, s)
  unfold commentLineTurn at hiterates ⊢
  dsimp only at hiterates ⊢
  rw [show (s.within m).rest = s.rest from rfl, noteNested_within]
  split
  · rw [noteNestedLast_within]
    rfl
  · next hopen =>
    have hnoted : m.Fits (s.noteNested s.rest) := hfits.of_records (s.records_noteNested s.rest)
    cases hnext : (s.noteNested s.rest).nextLine? with
    | some t =>
      rw [nextLine?_within hnoted hnext]
      rfl
    | none =>
      rw [hopen, hnext] at hiterates
      rw [nextLine?_within_eq_none _ _ (hiterates ▸ h).below_eq_nil hnext]
      rfl

/-- A block comment that is closed in the piece is closed there in the whole. -/
theorem closeComment_within {parts : List String} (hfits : m.Fits s)
    (h : Kept m (s.closeComment parts)) :
    (s.within m).closeComment parts =
      m.outcome (Prod.map id (within m)) (s.closeComment parts) := by
  refine isLoop_closeComment.natural_of isLoop_closeComment (Prod.map id (within m)) _
    (fun t => m.Fits t.2 ∧ Kept m (t.2.closeComment t.1)) ?_ ?_ (s := (parts, s)) ⟨hfits, h⟩
  · rintro ⟨parts, s⟩ t ⟨hfits, h⟩ hturn
    have hsame : s.closeComment parts = t.2.closeComment t.1 :=
      isLoop_closeComment.eq_of_again hturn
    refine ⟨?_, hsame ▸ h⟩
    simp only [commentLineTurn] at hturn
    split at hturn
    · cases hturn
    · split at hturn
      · next u hu =>
        obtain rfl := Turn.again.inj hturn
        exact fits_of_nextLine? hu
      · cases hturn
  · rintro ⟨parts, s⟩ ⟨hfits, h⟩
    exact commentLineTurn_within hfits h

theorem blockComment_within (hfits : m.Fits s) (h : Kept m s.blockComment) :
    (s.within m).blockComment = m.outcome (within m) s.blockComment := by
  unfold blockComment
  extract_lets opened noted opened' noted'
  have hnoted : noted = noted'.within m := noteIf_within m opened' _ _ _ _
  have hfits' : m.Fits noted' := hfits.of_records
    ((s.records_advance 2).trans (opened'.records_noteIf _ (by decide) _ _))
  have hkept : Kept m (noted'.closeComment []) := by
    refine h.imp_right ?_
    rintro ⟨r, hr⟩
    unfold blockComment at hr
    extract_lets at hr
    split at hr
    · cases hr
    · next ht => exact ⟨_, ht⟩
  rw [hnoted, closeComment_within hfits' hkept]
  cases noted'.closeComment [] with
  | error t => rfl
  | ok r =>
    obtain ⟨text, t⟩ := r
    refine congrArg Except.ok ?_
    dsimp only [id]
    rw [position_within, token_within, push_within, inspectComment_within]

/-! ### Templates -/

theorem templateLineTurn_within {text : List Char} (hfits : m.Fits s)
    (h : Kept m (s.templateText text)) :
    templateLineTurn (text, s.within m) =
      (templateLineTurn (text, s)).map (Prod.map id (within m))
        (m.outcome (Prod.map id (Prod.map id (within m)))) := by
  have hiterates := isLoop_templateText.iterates (text, s)
  unfold templateLineTurn at hiterates ⊢
  dsimp only at hiterates ⊢
  rw [show (s.within m).rest = s.rest from rfl]
  split
  · next hread =>
    cases hnext : s.nextLine? with
    | some t =>
      rw [nextLine?_within hfits hnext]
      rfl
    | none =>
      rw [if_pos hread, hnext] at hiterates
      rw [nextLine?_within_eq_none _ _ (hiterates ▸ h).below_eq_nil hnext]
      rfl
  · rfl

/-- The text of a template that stops in the piece stops there in the whole. -/
theorem templateText_within {text : List Char} (hfits : m.Fits s)
    (h : Kept m (s.templateText text)) :
    (s.within m).templateText text =
      m.outcome (Prod.map id (Prod.map id (within m))) (s.templateText text) := by
  refine isLoop_templateText.natural_of isLoop_templateText (Prod.map id (within m)) _
    (fun t => m.Fits t.2 ∧ Kept m (t.2.templateText t.1)) ?_ ?_ (s := (text, s)) ⟨hfits, h⟩
  · rintro ⟨text, s⟩ t ⟨hfits, h⟩ hturn
    have hsame : s.templateText text = t.2.templateText t.1 :=
      isLoop_templateText.eq_of_again hturn
    refine ⟨?_, hsame ▸ h⟩
    simp only [templateLineTurn] at hturn
    split at hturn
    · split at hturn
      · next u hu =>
        obtain rfl := Turn.again.inj hturn
        exact fits_of_nextLine? hu
      · cases hturn
    · cases hturn
  · rintro ⟨text, s⟩ ⟨hfits, h⟩
    exact templateLineTurn_within hfits h

theorem templatePart_within (hfits : m.Fits s) (h : Kept m (s.templateText []))
    (opening : Position) :
    (s.within m).templatePart (opening.down m.above) = (s.templatePart opening).within m := by
  unfold templatePart
  rw [templateText_within hfits h]
  cases htext : s.templateText [] with
  | error t =>
    have ht : m.Fits t := hfits.of_records ((s.records_templateText []).1 t htext)
    exact fail_within ht _ _ _ _
  | ok r =>
    obtain ⟨text, stop, t⟩ := r
    dsimp -zeta only [Frame.outcome, Prod.map, id]
    extract_lets part u opened closed part' u' opened' closed'
    have hpart : part = part'.down m.above := t.token_within m _ _ s.position
    have hu : u = u'.within m := by
      simp only [u, hpart]
      exact t.push_within m { part' with quote := some '\x60' }
    have hopened : opened = opened'.within m := by simp only [opened, hu, pushNext_within, opened']
    have hclosed : closed = closed'.within m := by simp only [closed, hu, pushNext_within, closed']
    rw [hopened, hclosed]
    cases stop <;> rfl

/-! ### Steps -/

/-- **Meeting the end**: the next step looks for the end of a template, a comment or a line beyond
the last line. -/
inductive MeetsEnd (s : State) : Prop
  /-- The text of a template does not stop. -/
  | text {opening : Position} {t : State} (hmode : s.mode = .template opening)
      (h : s.templateText [] = .error t) : MeetsEnd s
  /-- A block comment is not closed. -/
  | comment {tail : List Char} {t : State} (hmode : ∀ opening, s.mode ≠ .template opening)
      (hrest : s.rest = '/' :: '*' :: tail) (h : s.roused.blockComment = .error t) : MeetsEnd s
  /-- Nothing is left. -/
  | source (hmode : ∀ opening, s.mode ≠ .template opening) (hrest : s.rest = [])
      (hbelow : s.below = []) : MeetsEnd s

theorem operator_within (hfits : m.Fits s)
    (h : ∀ tail, s.rest = '/' :: '*' :: tail → Kept m s.blockComment) (n : Nat) :
    (s.within m).operator n = (s.operator n).within m := by
  unfold operator
  rw [show (s.within m).rest = s.rest from rfl]
  split
  · exact string_within hfits _
  · exact string_within hfits _
  · exact backtick_within hfits
  · exact congrArg Step.next lineComment_within
  · next tail hrest =>
    rw [blockComment_within hfits (h tail hrest)]
    cases hblock : s.blockComment with
    | error t =>
      have ht : m.Fits t := hfits.of_records (s.records_blockComment.1 t hblock)
      exact fail_within ht _ _ _ _
    | ok t => rfl
  · unfold slash
    rw [slashRole_preceding_within]
    split
    · exact congrArg Step.next division_within
    · exact regex_within hfits _
  · exact punctuation_within hfits n

theorem readToken_within (hfits : m.Fits s)
    (h : ∀ tail, s.rest = '/' :: '*' :: tail → Kept m s.roused.blockComment) (c : Char) :
    (s.within m).readToken c = (s.readToken c).within m := by
  unfold readToken
  extract_lets u u'
  have hu : u = u'.within m := by
    simp only [u, u', inTemplate_within]
    rfl
  have hfits' : m.Fits u' := hfits
  rw [hu, show (u'.within m).rest = u'.rest from rfl, identifier_within, number_within hfits',
    operator_within hfits' h]
  split
  · rfl
  · split
    · rfl
    · split
      · rfl
      · exact fail_within hfits' _ _ _ _

theorem finish_within (hfits : m.Fits s) : (s.within m).finish = s.finish.within m := by
  unfold finish
  rw [show (s.within m).mode = s.mode.down m.above from rfl, Mode.opening?_down]
  cases s.mode.opening? with
  | some opening => exact fail_within hfits _ _ _ _
  | none =>
    dsimp only [Option.map_none]
    rw [leaveLine_within hfits, position_within, token_within, push_within]
    rfl

/-- **A step that does not meet the end of the piece** is a step of the whole; one that does is,
if the whole ends with the piece. -/
theorem step_within (hfits : m.Fits s) (h : m.below = [] ∨ ¬ s.MeetsEnd) :
    (s.within m).step = s.step.within m := by
  have hkept {α : Type} {reading : Except State α}
      (hmeets : ∀ t, reading = .error t → s.MeetsEnd) : Kept m reading := by
    refine h.imp_right fun hnot => ?_
    cases hr : reading with
    | error t => exact absurd (hmeets t hr) hnot
    | ok r => exact ⟨r, rfl⟩
  have hoff (hmode : ∀ opening, s.mode ≠ .template opening) :
      (s.within m).step = s.step.within m := by
    have hmode' : ∀ opening, (s.within m).mode ≠ .template opening := by
      intro opening hm
      rw [show (s.within m).mode = s.mode.down m.above from rfl] at hm
      cases hs : s.mode with
      | template opening => exact hmode opening hs
      | code => rw [hs] at hm; cases hm
      | interpolation opening => rw [hs] at hm; cases hm
    rw [step_of_mode_ne hmode', step_of_mode_ne hmode, show (s.within m).rest = s.rest from rfl]
    split
    · next hrest =>
      cases hnext : s.nextLine? with
      | some t =>
        rw [nextLine?_within hfits hnext]
        rfl
      | none =>
        have hbelow : m.below = [] := h.resolve_right fun hnot =>
          hnot (.source hmode hrest (below_eq_nil_of_nextLine? hnext))
        rw [nextLine?_within_eq_none _ _ hbelow hnext]
        exact finish_within hfits
    · next c tail hrest =>
      rw [readToken_within hfits fun tail hopen =>
        hkept fun t ht => .comment hmode hopen ht]
      split <;> rfl
  cases hmode : s.mode with
  | code => exact hoff (by simp [hmode])
  | template opening =>
    unfold step
    rw [show (s.within m).mode = s.mode.down m.above from rfl, hmode]
    exact templatePart_within hfits (hkept fun t ht => .text hmode ht) opening
  | interpolation opening => exact hoff (by simp [hmode])

/-- **Ending**: an outcome of a step at the end of a source. -/
inductive Ends : Step → Prop
  /-- The scan is completed. -/
  | completed (t : State) : Ends (.completed t)
  /-- Something is not closed. -/
  | unclosed (t : State) {fault : Finding} (hrule : fault.rule = .unclosedMega ∨
      fault.rule = .unclosedComment) : Ends (.failed t fault)

/-- The block comment at the beginning of the rest is the one that a step reads. -/
theorem step_of_blockComment (hmode : ∀ opening, s.mode ≠ .template opening) {tail : List Char}
    (hrest : s.rest = '/' :: '*' :: tail) :
    s.step = match s.roused.blockComment with
      | .error t => t.fail .unclosedComment s.line (s.column + 1)
      | .ok t => .next t := by
  rw [step_of_operator hmode hrest (by decide) (by decide) (by decide) (Nat.succ_ne_zero 1)]
  unfold operator
  rw [show s.roused.rest = _ from hrest]
  rfl

/-- A step that meets the end ends the scan. -/
theorem MeetsEnd.ends (h : s.MeetsEnd) : Ends s.step := by
  cases h with
  | @text opening t hmode ht =>
    unfold step
    rw [hmode]
    dsimp only
    unfold templatePart
    rw [ht]
    exact .unclosed _ (.inl rfl)
  | comment hmode hrest ht =>
    rw [step_of_blockComment hmode hrest, ht]
    exact .unclosed _ (.inr rfl)
  | source hmode hrest hbelow =>
    unfold step
    split
    · next opening hm => exact absurd hm (hmode opening)
    · rw [hrest]
      dsimp only
      unfold nextLine?
      rw [hbelow]
      unfold finish
      cases s.mode.opening? with
      | none => exact .completed _
      | some opening => exact .unclosed _ (.inl rfl)

/-- A step that goes on does not meet the end. -/
theorem not_meetsEnd_of_next {t : State} (h : s.step = .next t) : ¬ s.MeetsEnd := by
  intro hmeets
  have hends := hmeets.ends
  rw [h] at hends
  cases hends

/-- **A state reached in the piece** is one reached in the whole. -/
theorem reaches_within (hfits : m.Fits s) {t : State} (h : Reaches s t) :
    Reaches (s.within m) (t.within m) ∧ m.Fits t := by
  induction h with
  | refl => exact ⟨.refl, hfits⟩
  | @tail t u hreach hstep ih =>
    obtain ⟨hreaches, ht⟩ := ih
    have hrecords := t.records_step
    rw [hstep] at hrecords
    have hwithin := step_within ht (.inr (not_meetsEnd_of_next hstep))
    rw [hstep] at hwithin
    exact ⟨hreaches.tail hwithin, ht.of_records hrecords⟩

/-- **A run to the end of the whole** is the run of the piece, if the whole ends with it. -/
theorem run_within (hfits : m.Fits s) (hbelow : m.below = []) :
    (s.within m).run = (s.run.1.within m, s.run.2.map (·.down m.above)) := by
  have hstep (s : State) (hfits : m.Fits s) : (s.within m).step = s.step.within m :=
    step_within hfits (.inl hbelow)
  fun_induction State.run s with
  | case1 s t ht ih =>
    rw [run_of_next ((hstep s hfits).trans (by rw [ht]; rfl))]
    have hrecords := s.records_step
    rw [ht] at hrecords
    exact ih (hfits.of_records hrecords)
  | case2 s t ht => 
    rw [run_of_completed ((hstep s hfits).trans (by rw [ht]; rfl))]
    rfl
  | case3 s t fault ht => 
    rw [run_of_failed ((hstep s hfits).trans (by rw [ht]; rfl))]
    rfl

end State

end ScriptLint
