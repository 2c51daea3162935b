import ScriptLint.Proofs.Scan.Actions
import ScriptLint.Proofs.Scan.Course

/-!
# What directives change

Some events change what is set, declared or named; all of them come from directives.  The
**ledger** of a state keeps these events and the tokens, and every operation of a scan does
one of three things to it: nothing, a token, or the changes of a directive behind the token
of its comment.  So what has changed at any moment is a function of the tokens alone.

## Main definitions

* `Event.isChange` — the events that change something
* `Token.changes` — what the directive that a comment is changes
* `directiveChanges` — the changes of a list of tokens
* `State.ledger` — the changes and the tokens of a state
* `State.Heeds` — the changes are those of the directives
* `Token.NamesRule` — a directive with an entry for a rule

## Main statements

* `State.heeds_step` — every step heeds the directives, whatever its outcome
* `changes_scan` — the changes of a scan are those of its tokens
* `exists_namesRule` — the level of a rule is changed by directives that name it alone
-/

namespace ScriptLint

/-- An event that changes what is set, declared or named. -/
def Event.isChange : Event → Bool
  | levelSet _ _ | flagSet _ _ | globalDeclared _ | propertyNamed _ => true
  | found _ | lineLeft _ | todo _ _ => false

/-- **The changes of a comment**, in order: those of the directive that it is, if it is one. -/
def Token.changes (t : Token) : List Event :=
  match Directive.split? t.value.toList with
  | none => []
  | some (directive, body) =>
    (directive.events body t.start.line (t.start.column + 1)).filter Event.isChange

/-- **The changes of tokens**, both newest first: those of the comments that stand before
every token of another kind. -/
def directiveChanges : List Token → List Event
  | [] => []
  | t :: older =>
    if (t :: older).all (·.kind == .comment) then t.changes.reverse ++ directiveChanges older
    else directiveChanges older

/-- Each change is that of a comment. -/
theorem mem_directiveChanges {tokens : List Token} {event : Event}
    (h : event ∈ directiveChanges tokens) :
    ∃ t ∈ tokens, t.kind = .comment ∧ event ∈ t.changes := by
  induction tokens with
  | nil => cases h
  | cons t older ih =>
    have hold (h : event ∈ directiveChanges older) :
        ∃ x ∈ t :: older, x.kind = .comment ∧ event ∈ x.changes := by
      obtain ⟨x, hx, hkind, hevent⟩ := ih h
      exact ⟨x, List.mem_cons_of_mem t hx, hkind, hevent⟩
    unfold directiveChanges at h
    split at h
    · next hall =>
      rcases List.mem_append.mp h with hnew | hnew
      · rw [List.all_cons, Bool.and_eq_true, beq_iff_eq] at hall
        exact ⟨t, List.mem_cons_self, hall.1, List.mem_reverse.mp hnew⟩
      · exact hold hnew
    · exact hold h

/-- A token that is no comment changes nothing. -/
theorem directiveChanges_cons {t : Token} (h : t.kind ≠ .comment) (older : List Token) :
    directiveChanges (t :: older) = directiveChanges older := by
  simp [directiveChanges, h]

/-- A comment changes something if it stands before every token of another kind. -/
theorem directiveChanges_cons_comment {t : Token} (h : t.kind = .comment) (older : List Token) :
    directiveChanges (t :: older) =
      (if older.all (·.kind == .comment) then t.changes.reverse else []) ++
        directiveChanges older := by
  rw [directiveChanges, List.all_cons, h]
  by_cases hall : older.all (·.kind == .comment) = true
  · simp [hall]
  · simp [hall]

/-! ### Ledgers -/

/-- What changes, and the tokens it is due to; both newest first. -/
structure Ledger where
  /-- The events that change something. -/
  changes : List Event
  /-- The tokens. -/
  tokens : List Token

namespace Ledger

/-- Adds a token. -/
def add (l : Ledger) (t : Token) : Ledger := { l with tokens := t :: l.tokens }

/-- Adds changes, listed newest first. -/
def change (l : Ledger) (changes : List Event) : Ledger :=
  { l with changes := changes ++ l.changes }

end Ledger

namespace State

/-- **The ledger of a state.** -/
def ledger (s : State) : Ledger := ⟨s.events.filter Event.isChange, s.tokens⟩

variable (s : State)

/-! ### Findings and moves change nothing -/

theorem ledger_emit {event : Event} (h : event.isChange = false) :
    (s.emit event).ledger = s.ledger := by
  simp [ledger, emit, h]

@[simp] theorem ledger_note (rule : Rule) (column : Nat) (args : List String) :
    (s.note rule column args).ledger = s.ledger :=
  s.ledger_emit rfl

@[simp] theorem ledger_noteIf (p : Bool) (rule : Rule) (column : Nat) (args : List String) :
    (s.noteIf p rule column args).ledger = s.ledger := by
  unfold noteIf
  split
  · exact s.ledger_note _ _ _
  · rfl

@[simp] theorem ledger_noteAll (findings : List Finding) :
    (s.noteAll findings).ledger = s.ledger := by
  have hnone : (findings.map Event.found).filter Event.isChange = [] := by
    simp [Event.isChange]
  simp [ledger, noteAll, hnone]

@[simp] theorem ledger_leaveLine : s.leaveLine.ledger = s.ledger := by
  unfold leaveLine
  split
  · rfl
  · exact s.ledger_emit rfl

@[simp] theorem ledger_checkBlanks (text : List Char) :
    (s.checkBlanks text).ledger = s.ledger := by
  simp [checkBlanks]

@[simp] theorem ledger_enter (line : Line) (below : List Line) :
    (s.enter line below).ledger = s.ledger := by
  unfold enter
  extract_lets text t
  have ht : t.ledger = s.ledger := rfl
  split
  · exact ht
  · exact (t.ledger_checkBlanks text).trans ht

theorem ledger_of_nextLine? {s t : State} (h : s.nextLine? = some t) : t.ledger = s.ledger := by
  unfold nextLine? at h
  split at h
  · simp at h
  · obtain rfl := Option.some.inj h
    simp

@[simp] theorem ledger_checkNeighbours (t : Token) :
    (s.checkNeighbours t).ledger = s.ledger := by
  unfold checkNeighbours
  split
  · rfl
  · simp

@[simp] theorem ledger_noteNested (part : List Char) : (s.noteNested part).ledger = s.ledger := by
  unfold noteNested
  split <;> simp

@[simp] theorem ledger_noteNestedLast (part : List Char) :
    (s.noteNestedLast part).ledger = s.ledger := by
  unfold noteNestedLast
  split <;> simp

theorem ledger_closeComment (parts : List String) :
    (∀ t, s.closeComment parts = .error t → t.ledger = s.ledger) ∧
      ∀ text t, s.closeComment parts = .ok (text, t) → t.ledger = s.ledger := by
  fun_induction closeComment parts s with
  | case1 parts s i hi part =>
    refine ⟨fun t h => (by simp at h), fun text t h => ?_⟩
    obtain ⟨-, rfl⟩ := Prod.mk.inj (Except.ok.inj h)
    exact s.ledger_noteNestedLast part
  | case2 parts s hi s' u hu ih =>
    have hledger : u.ledger = s.ledger :=
      (ledger_of_nextLine? hu).trans (s.ledger_noteNested s.rest)
    exact ⟨fun t h => (ih.1 t h).trans hledger, fun text t h => (ih.2 text t h).trans hledger⟩
  | case3 parts s hi s' hu =>
    refine ⟨fun t h => ?_, fun text t h => (by simp at h)⟩
    obtain rfl := Except.error.inj h
    exact s.ledger_noteNested s.rest

theorem ledger_templateText (text : List Char) :
    (∀ t, s.templateText text = .error t → t.ledger = s.ledger) ∧
      ∀ text' stop t, s.templateText text = .ok (text', stop, t) → t.ledger = s.ledger := by
  fun_induction templateText text s with
  | case1 text s read hread u hu ih =>
    have hledger : u.ledger = s.ledger := ledger_of_nextLine? hu
    exact ⟨fun t h => (ih.1 t h).trans hledger,
      fun text' stop t h => (ih.2 text' stop t h).trans hledger⟩
  | case2 text s read hread hu =>
    refine ⟨fun t h => ?_, fun text' stop t h => (by simp at h)⟩
    obtain rfl := Except.error.inj h
    rfl
  | case3 text s read hread =>
    refine ⟨fun t h => (by simp at h), fun text' stop t h => ?_⟩
    simp only [Except.ok.injEq, Prod.mk.injEq] at h
    obtain ⟨-, -, rfl⟩ := h
    rfl

/-! ### Tokens are added -/

@[simp] theorem ledger_push (t : Token) : (s.push t).ledger = s.ledger.add t := by
  have h := s.ledger_checkNeighbours t
  simp only [ledger, Ledger.mk.injEq] at h
  simp [push, ledger, Ledger.add, h]

@[simp] theorem ledger_pushNext (n : Nat) (kind : TokenKind) (value : String) :
    (s.pushNext n kind value).ledger =
      s.ledger.add ((s.advance n).token kind value s.position) :=
  (s.advance n).ledger_push _

/-- A comment is searched for a directive while there are only comments. -/
theorem ledger_inspectComment {older : List Token} {t : Token} (htokens : s.tokens = t :: older)
    (hkind : t.kind = .comment) :
    (s.inspectComment t.value.toList t.start).ledger =
      s.ledger.change (if older.all (·.kind == .comment) then t.changes.reverse else []) := by
  unfold inspectComment
  extract_lets line column u
  have hu : u.ledger = s.ledger := by
    simp only [u]
    split
    · exact s.ledger_emit rfl
    · rfl
  have hopen : u.directivesOpen = older.all (·.kind == .comment) := by
    have htokens : u.tokens = t :: older := (congrArg Ledger.tokens hu).trans htokens
    rw [directivesOpen, preceding, htokens, List.find?_cons_of_neg (by simp [hkind]),
      Bool.eq_iff_iff]
    simp
  rw [hopen]
  split
  · next hsplit =>
    have hnone : t.changes = [] := by simp [Token.changes, hsplit]
    simp [hnone, hu, Ledger.change]
  · next directive body hsplit =>
    have hchanges : t.changes = (directive.events body line column).filter Event.isChange := by
      simp [Token.changes, hsplit, line, column]
    split
    · rw [hchanges, ← hu]
      simp [ledger, Ledger.change]
    · rw [u.ledger_emit rfl, hu]
      rfl

/-! ### Heeding directives -/

/-- **Heeding directives**: what has changed is what the directives change. -/
def Heeds : Prop := s.ledger.changes = directiveChanges s.ledger.tokens

variable {s} {t : State}

theorem Heeds.of_eq (h : s.Heeds) (hledger : t.ledger = s.ledger) : t.Heeds := by
  rw [Heeds, hledger]
  exact h

/-- A token that is no comment is added. -/
theorem Heeds.add (h : s.Heeds) {new : Token} (hkind : new.kind ≠ .comment)
    (hledger : t.ledger = s.ledger.add new) : t.Heeds := by
  rw [Heeds, hledger]
  exact h.trans (directiveChanges_cons hkind _).symm

/-- A comment is added with its changes. -/
theorem Heeds.inspect (h : s.Heeds) {new : Token} (hkind : new.kind = .comment)
    (hledger : t.ledger = s.ledger.add new) :
    (t.inspectComment new.value.toList new.start).Heeds := by
  have htokens : t.tokens = new :: s.tokens := congrArg Ledger.tokens hledger
  rw [Heeds, t.ledger_inspectComment htokens hkind, hledger]
  show _ ++ s.ledger.changes = directiveChanges (new :: s.tokens)
  rw [h, directiveChanges_cons_comment hkind]
  rfl

theorem heeds_fail (h : s.Heeds) (rule : Rule) (line column : Nat) (args : List String) :
    (s.fail rule line column args).state.Heeds :=
  h.of_eq s.ledger_leaveLine

theorem heeds_failWith (h : s.Heeds) (halt : Halt) : (s.failWith halt).state.Heeds :=
  h.of_eq (by simp [failWith, Step.state])

theorem heeds_pushNext (h : s.Heeds) {kind : TokenKind} (hkind : kind ≠ .comment) (n : Nat)
    (value : String) : (s.pushNext n kind value).Heeds :=
  h.add hkind (s.ledger_pushNext n kind value)

theorem heeds_lineComment (h : s.Heeds) : s.lineComment.Heeds := by
  unfold lineComment
  extract_lets value t u
  have hu : u.ledger = s.ledger.add (t.token .comment (String.ofList value) s.position) :=
    t.ledger_push _
  have hinspect := h.inspect (t := u.noteIf u.inTemplate .unexpectedComment u.column) rfl
    ((u.ledger_noteIf _ _ _ _).trans hu)
  rwa [show (t.token .comment (String.ofList value) s.position).value.toList = value from
    String.toList_ofList] at hinspect

theorem heeds_blockComment (h : s.Heeds) :
    (∀ t, s.blockComment = .error t → t.Heeds) ∧ ∀ t, s.blockComment = .ok t → t.Heeds := by
  unfold blockComment
  extract_lets opened opened'
  have hopened : opened'.ledger = s.ledger := opened.ledger_noteIf _ _ _ _
  obtain ⟨herror, hok⟩ := opened'.ledger_closeComment []
  split
  · next u hu =>
    refine ⟨fun t ht => ?_, fun t ht => (by simp at ht)⟩
    obtain rfl := Except.error.inj ht
    exact h.of_eq ((herror _ hu).trans hopened)
  · next text u hu =>
    refine ⟨fun t ht => (by simp at ht), fun t ht => ?_⟩
    obtain rfl := Except.ok.inj ht
    have hledger : (u.push (u.token .comment text s.position)).ledger =
        s.ledger.add (u.token .comment text s.position) := by
      rw [ledger_push, hok _ _ hu, hopened]
    have hinspect := h.inspect rfl hledger
    exact hinspect

/-- Reading a token heeds the directives. -/
theorem heeds_of_cut {outcome : Step} (h : s.Heeds) (hcut : s.Cut outcome) :
    outcome.state.Heeds := by
  cases hcut with
  | word _ =>
    refine h.add ?_ ((s.advance _).ledger_push _)
    show (if _ then TokenKind.keyword else TokenKind.identifier) ≠ .comment
    split <;> decide
  | number _ =>
    unfold number
    split
    · exact heeds_failWith h _
    · next read _ =>
      exact heeds_pushNext (h.of_eq (s.ledger_noteAll read.findings)) (by decide) _ _
  | string _ _ =>
    unfold string
    split
    · exact heeds_failWith h _
    · next read _ =>
      exact (h.of_eq (t := s.noteAll read.findings) (s.ledger_noteAll _)).add (by simp [token])
        (ledger_push _ _)
  | backtick _ =>
    unfold backtick
    split
    · exact heeds_fail h _ _ _ _
    · exact heeds_pushNext h (by decide) _ _
  | lineComment _ => exact heeds_lineComment h
  | blockComment _ hu => exact (heeds_blockComment h).2 _ hu
  | unclosedComment _ hu => exact heeds_fail ((heeds_blockComment h).1 _ hu) _ _ _ _
  | division _ _ =>
    show s.division.Heeds
    unfold division
    split
    · exact heeds_pushNext (h.of_eq (s.ledger_note _ _ _)) (by decide) _ _
    · exact heeds_pushNext h (by decide) _ _
  | regex _ _ =>
    unfold regex
    extract_lets u
    have hu : u.Heeds := h.of_eq rfl
    split
    · exact heeds_failWith hu _
    · next read missesFlag _ =>
      extract_lets value v w
      have hv : v.Heeds :=
        heeds_pushNext (hu.of_eq (u.ledger_noteAll read.findings)) (by decide) _ _
      have hw : w.Heeds := hv.of_eq (v.ledger_noteIf _ _ _ _)
      split
      · exact hw.of_eq (w.ledger_emit rfl)
      · exact hw.of_eq (w.ledger_note _ _ _)
      · exact hw
  | punctuation _ _ _ _ =>
    unfold punctuation
    extract_lets value u
    have hpush : u.Heeds := heeds_pushNext h (by decide) _ _
    split
    · split
      · exact hpush
      · split
        · exact heeds_fail hpush _ _ _ _
        · exact hpush
    · exact hpush
  | unexpected _ => exact heeds_fail h _ _ _ _

/-- **Every step heeds the directives**, whatever its outcome. -/
theorem heeds_step (h : s.Heeds) : s.step.state.Heeds := by
  generalize s.step = outcome, s.action_of_step = haction
  cases haction with
  | part _ =>
    obtain ⟨herror, hok⟩ := s.ledger_templateText []
    unfold templatePart
    split
    · next t ht => exact heeds_fail (h.of_eq (herror t ht)) _ _ _ _
    · next text stop t ht =>
      extract_lets part u
      have hu : u.Heeds := (h.of_eq (hok text stop t ht)).add (by simp [part, token])
        (t.ledger_push _)
      split
      · exact heeds_pushNext hu (by decide) _ _
      · exact heeds_pushNext hu (by decide) _ _
  | line _ _ ht => exact h.of_eq (ledger_of_nextLine? ht)
  | finish _ _ _ =>
    unfold finish
    split
    · exact heeds_fail h _ _ _ _
    · exact (h.of_eq s.ledger_leaveLine).add (by simp [token]) (ledger_push _ _)
  | blanks _ _ _ => exact h.of_eq rfl
  | token _ _ _ hcut => exact heeds_of_cut (h.of_eq (t := s.roused) rfl) hcut

/-- At the beginning nothing has changed. -/
theorem heeds_initial (lines : List Line) : (initial lines).Heeds := by
  have hstart : Heeds { below := lines } := rfl
  unfold initial
  extract_lets u
  split
  · exact hstart
  · next line below =>
    split
    · exact hstart.of_eq (u.ledger_enter line below)
    · exact hstart

end State

/-- **The changes of a scan**, completed or not, are those of its tokens. -/
theorem changes_scan (source : Source) :
    (scan source).events.filter Event.isChange =
      (directiveChanges (scan source).tokens.reverse).reverse := by
  have hheeds : (State.initial source.lines.toList).run.1.Heeds :=
    State.run_keeps (fun _ => State.heeds_step) (State.heeds_initial _)
  have hissues (issues : List LineIssue) : (issues.map fun issue =>
      Event.found { rule := issue.rule, line := issue.line, column := 1 }).filter
        Event.isChange = [] := by
    simp [Event.isChange]
  show ((_ : List Event) ++ _).filter _ = (directiveChanges (List.reverse (List.reverse _))).reverse
  rw [List.filter_append, hissues, List.nil_append, List.filter_reverse, List.reverse_reverse]
  exact congrArg List.reverse hheeds

/-! ### Directives for rules -/

/-- **Naming a rule**: a comment that is a directive for options with an entry for the rule. -/
def Token.NamesRule (t : Token) (rule : Rule) : Prop :=
  t.kind = .comment ∧ ∃ directive ∈ Directive.split? t.value.toList, directive.1 = .options ∧
    ∃ item ∈ (directiveItems directive.2).1, item.key = rule.key

instance (t : Token) (rule : Rule) : Decidable (t.NamesRule rule) :=
  inferInstanceAs (Decidable (_ ∧ ∃ directive ∈ Directive.split? t.value.toList, _))

/-- An entry changes the level of the rule that it names. -/
theorem key_of_levelSet {item : DirectiveItem} {directive : Directive} {line column : Nat}
    {rule : Rule} {level : Level}
    (h : .levelSet rule level ∈ item.events directive line column) :
    directive = .options ∧ item.key = rule.key := by
  cases directive with
  | globals =>
    simp only [DirectiveItem.events, List.mem_append, List.mem_singleton] at h
    rcases h with h | h
    · split at h <;> simp at h
    · cases h
  | property => simp [DirectiveItem.events] at h
  | options =>
    refine ⟨rfl, ?_⟩
    simp only [DirectiveItem.events] at h
    split at h
    · simp at h
    · next rule' _ hrule =>
      obtain ⟨rfl, -⟩ := Event.levelSet.inj (List.mem_singleton.mp h)
      exact (Rule.key_of_ofName? hrule).symm
    · simp at h

/-- A comment that changes the level of a rule names it. -/
theorem Token.namesRule_of_levelSet {t : Token} (hkind : t.kind = .comment) {rule : Rule}
    {level : Level} (h : .levelSet rule level ∈ t.changes) : t.NamesRule rule := by
  unfold Token.changes at h
  split at h
  · cases h
  · next directive body hsplit =>
    rcases List.mem_append.mp (List.mem_filter.mp h).1 with h | h
    · obtain ⟨item, hitem, h⟩ := List.mem_flatMap.mp h
      obtain ⟨rfl, hkey⟩ := key_of_levelSet h
      exact ⟨hkind, (.options, body), hsplit, rfl, item, hitem, hkey⟩
    · split at h <;> simp at h

/-- **The level of a rule is changed by directives that name it** alone. -/
theorem exists_namesRule {source : Source} {rule : Rule} {level : Level}
    (h : .levelSet rule level ∈ (scan source).events) :
    ∃ t ∈ (scan source).tokens, t.NamesRule rule := by
  have hchange : Event.levelSet rule level ∈ (scan source).events.filter Event.isChange :=
    List.mem_filter.mpr ⟨h, rfl⟩
  rw [changes_scan, List.mem_reverse] at hchange
  obtain ⟨t, ht, hkind, hlevel⟩ := mem_directiveChanges hchange
  exact ⟨t, List.mem_reverse.mp ht, t.namesRule_of_levelSet hkind hlevel⟩

end ScriptLint
