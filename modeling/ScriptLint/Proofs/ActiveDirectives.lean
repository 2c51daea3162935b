import Mathlib.Data.List.Basic
import Mathlib.Data.List.TakeWhile
import ScriptLint.Proofs.Accounts
import ScriptLint.Proofs.Reports
import ScriptLint.Proofs.Scan.Directives

/-!
# What directives have set

A directive is **active** if only comments stand before it.  Each entry of an active
directive changes one thing at most, and nothing else changes anything.  So what is set at a
moment of a pass is what the entries read up to there make of the settings, one after the
other.

## Main definitions

* `Token.items`, `activeItems` — the entries of a comment, and of the active directives
* `DirectiveItem.change?`, `activeChanges` — what an entry changes, and the active ones
* `Account.settled` — an account without its reports
* `Token.IsEntry` — a comment that is a directive of one entry

## Main statements

* `reverse_directiveChanges` — the changes of tokens are those of the active entries
* `Account.settled_upTo` — what is set at a state of the scan
* `Account.settled_ofScan` — what is set at the end of a pass
* `Token.items_of_isEntry` — a directive of one entry is read as this entry
-/

namespace ScriptLint

/-! ### Active directives -/

/-- The entries of the directive that a comment is, each with the kind of directive. -/
def Token.items (t : Token) : List (Directive × DirectiveItem) :=
  match Directive.split? t.value.toList with
  | none => []
  | some (directive, body) => (directiveItems body).1.map (directive, ·)

/-- **The entries of the active directives**, in order: those of the comments that stand before
every token of another kind. -/
def activeItems (tokens : List Token) : List (Directive × DirectiveItem) :=
  (tokens.takeWhile (·.kind == .comment)).flatMap Token.items

/-- **What an entry changes.**  In a directive for options a name that is neither that of a flag nor
that of a rule changes nothing. -/
def DirectiveItem.change? (item : DirectiveItem) (directive : Directive) : Option Event :=
  match directive with
  | .globals => some (.globalDeclared item.key)
  | .property => some (.propertyNamed item.key)
  | .options =>
    let on := item.value.getD true
    match OptionFlag.ofName? item.key, Rule.ofName? item.key with
    | some flag, _ => some (.flagSet flag on)
    | none, some rule => some (.levelSet rule (if on then rule.enabledLevel else .off))
    | none, none => none

/-- What the active entries of tokens change, in order. -/
def activeChanges (tokens : List Token) : List Event :=
  (activeItems tokens).filterMap fun x => x.2.change? x.1

/-- Of the events of an entry one at most is a change. -/
theorem DirectiveItem.filter_events (item : DirectiveItem) (directive : Directive)
    (line column : Nat) :
    (item.events directive line column).filter Event.isChange =
      (item.change? directive).toList := by
  cases directive with
  | globals =>
    by_cases hvalue : item.value.isSome = true
    · simp [DirectiveItem.events, DirectiveItem.change?, hvalue, Event.isChange]
    · simp [DirectiveItem.events, DirectiveItem.change?, hvalue, Event.isChange]
  | property => rfl
  | options =>
    unfold DirectiveItem.events DirectiveItem.change?
    cases OptionFlag.ofName? item.key with
    | some flag => rfl
    | none =>
      cases Rule.ofName? item.key with
      | some rule => rfl
      | none => rfl

/-- The changes of a comment are those of its entries. -/
theorem Token.changes_eq_items (t : Token) :
    t.changes = t.items.filterMap fun x => x.2.change? x.1 := by
  unfold Token.changes Token.items
  cases Directive.split? t.value.toList with
  | none => rfl
  | some found =>
    obtain ⟨directive, body⟩ := found
    -- What is left where the entries end is a finding.
    have hleft {args : List String} : (if (directiveItems body).2.isEmpty then []
        else [Event.found ⟨.badDirectiveA, t.start.line, t.start.column + 1, args,
          Rule.badDirectiveA.defaultLevel⟩]).filter Event.isChange = [] := by
      split <;> rfl
    unfold Directive.events
    dsimp only
    rw [List.filter_append, hleft, List.append_nil, List.filter_flatMap, List.filterMap_map,
      List.filterMap_eq_flatMap_toList]
    exact List.flatMap_congr fun item _ => item.filter_events directive _ _

/-- A comment at the beginning is active. -/
theorem activeItems_cons {t : Token} (h : t.kind = .comment) (tokens : List Token) :
    activeItems (t :: tokens) = t.items ++ activeItems tokens := by
  unfold activeItems
  rw [List.takeWhile_cons, h]
  rfl

/-- Behind a token that is no comment nothing is active. -/
theorem activeItems_append {tokens : List Token} (h : ∃ t ∈ tokens, t.kind ≠ .comment)
    (newer : List Token) : activeItems (tokens ++ newer) = activeItems tokens := by
  obtain ⟨t, ht, hkind⟩ := h
  unfold activeItems
  rw [List.takeWhile_append, if_neg]
  intro hlength
  have hall : tokens.takeWhile (·.kind == .comment) = tokens :=
    (List.takeWhile_sublist _).eq_of_length hlength
  exact hkind (beq_iff_eq.mp (List.takeWhile_eq_self_iff.mp hall t ht))

/-- Behind comments a token has active entries if it is a comment. -/
theorem activeItems_concat {tokens : List Token} (h : ∀ t ∈ tokens, t.kind = .comment)
    (t : Token) :
    activeItems (tokens ++ [t]) =
      activeItems tokens ++ if t.kind = .comment then t.items else [] := by
  have hcomments : ∀ x ∈ tokens, (x.kind == .comment) = true :=
    fun x hx => beq_iff_eq.mpr (h x hx)
  unfold activeItems
  rw [List.takeWhile_append_of_pos hcomments, List.takeWhile_eq_self_iff.mpr hcomments,
    List.flatMap_append]
  by_cases hkind : t.kind = .comment
  · simp [hkind]
  · simp [hkind]

/-- **The changes of tokens** are those of the active entries. -/
theorem reverse_directiveChanges (tokens : List Token) :
    (directiveChanges tokens).reverse = activeChanges tokens.reverse := by
  induction tokens with
  | nil => rfl
  | cons t older ih =>
    unfold activeChanges at ih ⊢
    rw [List.reverse_cons]
    by_cases hall : ∀ x ∈ older, x.kind = .comment
    · rw [activeItems_concat fun x hx => hall x (List.mem_reverse.mp hx), List.filterMap_append,
        ← ih]
      by_cases hkind : t.kind = .comment
      · have hcomments : older.all (·.kind == .comment) = true :=
          List.all_eq_true.mpr fun x hx => beq_iff_eq.mpr (hall x hx)
        rw [directiveChanges_cons_comment hkind, if_pos hcomments, if_pos hkind,
          List.reverse_append, List.reverse_reverse, t.changes_eq_items]
      · rw [directiveChanges_cons hkind, if_neg hkind, List.filterMap_nil, List.append_nil]
    · have hother : ∃ x ∈ older.reverse, x.kind ≠ .comment := by
        simpa using hall
      have hsome : ¬ older.all (·.kind == .comment) = true := by
        simpa using hall
      rw [activeItems_append hother, ← ih]
      by_cases hkind : t.kind = .comment
      · rw [directiveChanges_cons_comment hkind, if_neg hsome, List.nil_append]
      · rw [directiveChanges_cons hkind]

/-! ### What is set -/

/-- **What is set** in an account, without its reports. -/
def Account.settled (a : Account) : Account := { a with diagnostics := [] }

namespace Account

variable (source : Source) (settings : Settings) (a : Account)

/-- A report sets nothing. -/
theorem settled_report (finding : Finding) :
    (a.report source settings finding).settled = a.settled := by
  unfold report
  split
  · rfl
  · split <;> rfl

theorem settled_reportFault (fault : Finding) :
    (a.reportFault source settings fault).settled = a.settled := by
  unfold reportFault
  split <;> rfl

/-- An event that is no change sets nothing. -/
theorem settled_record_of_report {event : Event} (h : event.isChange = false) :
    (a.record source settings event).settled = a.settled := by
  cases event with
  | found finding => exact a.settled_report source settings finding
  | lineLeft line =>
    simp only [record]
    split
    · exact a.settled_report source settings _
    · rfl
  | todo line column =>
    simp only [record]
    split
    · rfl
    · exact a.settled_report source settings _
  | levelSet rule level => cases h
  | flagSet flag on => cases h
  | globalDeclared name => cases h
  | propertyNamed name => cases h

/-- What a change sets has to do neither with what is reported nor with the settings. -/
theorem settled_record_of_change {event : Event} (h : event.isChange = true) :
    (a.record source settings event).settled = a.settled.record source settings event := by
  cases event with
  | found finding => cases h
  | lineLeft line => cases h
  | todo line column => cases h
  | levelSet rule level => rfl
  | flagSet flag on => rfl
  | globalDeclared name => rfl
  | propertyNamed name => rfl

/-- **What events set** is what the changes among them set. -/
theorem settled_recordAll (events : List Event) :
    (a.recordAll source settings events).settled =
      a.settled.recordAll source settings (events.filter Event.isChange) := by
  induction events generalizing a with
  | nil => rfl
  | cons event events ih =>
    refine (ih (a.record source settings event)).trans ?_
    by_cases hchange : event.isChange = true
    · rw [List.filter_cons_of_pos hchange, a.settled_record_of_change source settings hchange]
      rfl
    · rw [List.filter_cons_of_neg hchange,
        a.settled_record_of_report source settings (Bool.eq_false_of_not_eq_true hchange)]

/-- What an entry of a directive sets. -/
def set (x : Directive × DirectiveItem) : Account :=
  match x.2.change? x.1 with
  | none => a
  | some event => a.record source settings event

/-- What entries set, one after the other. -/
def setAll (items : List (Directive × DirectiveItem)) : Account :=
  items.foldl (set source settings) a

theorem setAll_cons (x : Directive × DirectiveItem) (items : List (Directive × DirectiveItem)) :
    a.setAll source settings (x :: items) =
      (a.set source settings x).setAll source settings items := rfl

/-- What the changes of entries set is what the entries set. -/
theorem recordAll_filterMap (items : List (Directive × DirectiveItem)) :
    a.recordAll source settings (items.filterMap fun x => x.2.change? x.1) =
      a.setAll source settings items := by
  induction items generalizing a with
  | nil => rfl
  | cons x items ih =>
    rw [List.filterMap_cons, setAll_cons, set]
    cases x.2.change? x.1 with
    | none => exact ih a
    | some event => exact ih (a.record source settings event)

end Account

/-! ### What is set at a moment -/

section

variable (source : Source) (settings : Settings)

/-- The issues of the region markers set nothing. -/
theorem Source.filter_issueEvents : source.issueEvents.filter Event.isChange = [] := by
  simp [issueEvents, Event.isChange]

/-- The changes up to a state are those of the active entries of its tokens. -/
theorem State.Heeds.filter_events {s : State} (h : s.Heeds) :
    s.events.reverse.filter Event.isChange = activeChanges s.tokens.reverse := by
  have hchanges : s.events.filter Event.isChange = directiveChanges s.tokens := h
  rw [List.filter_reverse, hchanges, reverse_directiveChanges]

/-- The changes since a state are those of the active entries since. -/
theorem State.Heeds.filter_eventsSince {s t : State} (hs : s.Heeds) (ht : t.Heeds)
    (hgrows : s.Grows t) :
    activeChanges s.tokens.reverse ++ (s.eventsSince t).filter Event.isChange =
      activeChanges t.tokens.reverse := by
  rw [← hs.filter_events, ← ht.filter_events, ← List.filter_append, hgrows.events_append]

/-- **What is set at a moment** of a scan is what the active entries read up to there set. -/
theorem Account.settled_upTo {s : State} (h : s.Heeds) :
    (upTo source settings s).settled =
      setAll source settings { globals := settings.globals } (activeItems s.tokens.reverse) := by
  unfold upTo
  rw [settled_recordAll, List.filter_append, source.filter_issueEvents, List.nil_append,
    h.filter_events, activeChanges, recordAll_filterMap]
  rfl

/-- Every reached state heeds the directives. -/
theorem State.heeds_of_reaches {s t : State} (h : Reaches s t) (hs : s.Heeds) : t.Heeds :=
  h.keeps (fun _ => heeds_step) hs

/-- The account at the end of a scan is that of its last state. -/
theorem Account.atEnd_eq_upTo (text : String) :
    atEnd settings text = upTo (.ofString text) settings
      (State.initial (Source.ofString text).lines.toList).run.1 := rfl

/-- **What is set at the end** of a pass is what the active entries of its tokens set. -/
theorem Account.settled_atEnd (text : String) :
    (atEnd settings text).settled =
      setAll (.ofString text) settings { globals := settings.globals }
        (activeItems (Pass.run settings text).tokens) := by
  rw [atEnd_eq_upTo, settled_upTo]
  · rfl
  · exact State.run_keeps (fun _ => State.heeds_step) (State.heeds_initial _)

/-- The same of the pass as a whole, since the fault of a scan sets nothing. -/
theorem Account.settled_ofScan (text : String) :
    (ofScan (.ofString text) settings (scan (.ofString text))).settled =
      setAll (.ofString text) settings { globals := settings.globals }
        (activeItems (Pass.run settings text).tokens) := by
  rw [← settled_atEnd]
  unfold ofScan
  cases (scan (.ofString text)).fault with
  | none => rfl
  | some fault => exact settled_reportFault _ _ _ fault

end

/-! ### Directives of one entry -/

/-- **A comment that is an entry**: a directive with one entry and nothing else, after one blank. -/
def Token.IsEntry (t : Token) (directive : Directive) (item : DirectiveItem) : Prop :=
  t.kind = .comment ∧ t.value = directive.key ++ " " ++ item.render

instance (t : Token) (directive : Directive) (item : DirectiveItem) :
    Decidable (t.IsEntry directive item) :=
  inferInstanceAs (Decidable (_ ∧ _))

/-- **Identifiers**: texts that are one identifier from the first character to the last. -/
def isIdentifier : List Char → Bool
  | [] => false
  | c :: rest => isIdentifierStart c && rest.all isIdentifierPart

/-- No identifier starts with a blank. -/
theorem isBlank_eq_false_of_isIdentifierStart {c : Char} (h : isIdentifierStart c = true) :
    isBlank c = false := by
  have hrange : 0x24 ≤ c.toNat ∧ c.toNat ≤ 0x7A := by
    simp only [isIdentifierStart, Bool.or_eq_true, beq_iff_eq] at h
    rcases h with (hletter | rfl) | rfl
    · rcases Bool.or_eq_true_iff.mp hletter with hupper | hlower
      · obtain ⟨hlow, hhigh⟩ : 'A'.val ≤ c.val ∧ c.val ≤ 'Z'.val := of_decide_eq_true hupper
        exact ⟨Nat.le_trans (by decide) (UInt32.le_iff_toNat_le.mp hlow),
          Nat.le_trans (UInt32.le_iff_toNat_le.mp hhigh) (by decide)⟩
      · obtain ⟨hlow, hhigh⟩ := Bool.and_eq_true_iff.mp hlower
        exact ⟨Nat.le_trans (by decide) (UInt32.le_iff_toNat_le.mp (of_decide_eq_true hlow)),
          Nat.le_trans (UInt32.le_iff_toNat_le.mp (of_decide_eq_true hhigh)) (by decide)⟩
    · decide
    · decide
  simp only [isBlank, Bool.or_eq_false_iff, Bool.and_eq_false_iff, decide_eq_false_iff_not,
    beq_eq_false_iff_ne]
  omega

/-- An identifier is read up to what cannot go on with it. -/
theorem identifierLength_append {name rest : List Char} (h : isIdentifier name = true)
    (hrest : rest.head?.any isIdentifierPart = false) :
    identifierLength (name ++ rest) = name.length := by
  cases name with
  | nil => cases h
  | cons c name =>
    obtain ⟨hstart, hpart⟩ := Bool.and_eq_true_iff.mp h
    have hstop : rest.takeWhile isIdentifierPart = [] := by
      cases rest with
      | nil => rfl
      | cons d rest => simpa using hrest
    rw [List.cons_append, identifierLength, if_pos hstart,
      List.takeWhile_append_of_pos (List.all_eq_true.mp hpart), hstop]
    simp [Nat.add_comm]

/-- The written form of an entry is its key and what makes its value. -/
theorem DirectiveItem.render_eq (item : DirectiveItem) :
    ∃ tail : List Char, item.render.toList = item.key.toList ++ tail ∧
      tail.head?.any isIdentifierPart = false ∧ directiveValue tail = (item.value, []) := by
  obtain ⟨key, value⟩ := item
  cases value with
  | none => exact ⟨[], (List.append_nil _).symm, rfl, rfl⟩
  | some on =>
    cases on with
    | true => exact ⟨":true".toList, String.toList_append, rfl, rfl⟩
    | false => exact ⟨":false".toList, String.toList_append, rfl, rfl⟩

/-- A body that is one entry is read as this entry. -/
theorem directiveItems_render {item : DirectiveItem} (h : isIdentifier item.key.toList = true) :
    directiveItems item.render.toList = ([item], []) := by
  obtain ⟨tail, hrender, hstop, hvalue⟩ := item.render_eq
  have hlength : identifierLength (item.key.toList ++ tail) = item.key.length :=
    (identifierLength_append h hstop).trans String.length_toList
  have hpos : item.key.length ≠ 0 := by
    intro hzero
    rw [String.length_eq_zero_iff.mp hzero] at h
    cases h
  have hkey : String.ofList ((item.key.toList ++ tail).take item.key.length) = item.key := by
    rw [← String.length_toList, List.take_left, String.ofList_toList]
  have hdrop : (item.key.toList ++ tail).drop item.key.length = tail := by
    rw [← String.length_toList, List.drop_left]
  rw [directiveItems, directiveItems.go, hrender]
  dsimp only
  rw [dif_neg (hlength ▸ hpos), hlength, hkey, hdrop, hvalue, directiveItems.go]
  rfl

/-- The written form of an entry does not start with a blank. -/
theorem head?_render {item : DirectiveItem} (h : isIdentifier item.key.toList = true) :
    item.render.toList.head?.any isBlank = false := by
  obtain ⟨tail, hrender, -, -⟩ := item.render_eq
  rw [hrender]
  cases hkey : item.key.toList with
  | nil =>
    rw [hkey] at h
    cases h
  | cons c name =>
    rw [hkey] at h
    exact isBlank_eq_false_of_isIdentifierStart (Bool.and_eq_true_iff.mp h).1

/-- The word of a directive, a blank and a body. -/
theorem Directive.body?_append (directive : Directive) {body : List Char}
    (h : body.head?.any isBlank = false) :
    directive.body? (directive.key.toList ++ ' ' :: body) = some body := by
  have hdrop : (directive.key.toList ++ ' ' :: body).drop directive.key.length = ' ' :: body := by
    rw [← String.length_toList, List.drop_left]
  have hblanks : (' ' :: body).dropWhile isBlank = body := by
    rw [List.dropWhile_cons_of_pos (by decide)]
    cases body with
    | nil => rfl
    | cons c body => exact List.dropWhile_cons_of_neg (by simpa using h)
  unfold Directive.body?
  rw [if_pos (List.isPrefixOf_iff_prefix.mpr (List.prefix_append _ _)), hdrop]
  dsimp only
  rw [if_pos (show (' ' :: body).head?.any isBlank = true from rfl), hblanks]

/-- No word of a directive begins with that of another. -/
theorem Directive.body?_append_of_ne {directive other : Directive} (h : other ≠ directive)
    (text : List Char) : other.body? (directive.key.toList ++ text) = none := by
  cases directive <;> cases other <;> first | rfl | exact absurd rfl h

/-- The directive of a word, a blank and a body. -/
theorem Directive.split?_append (directive : Directive) {body : List Char}
    (h : body.head?.any isBlank = false) :
    Directive.split? (directive.key.toList ++ ' ' :: body) = some (directive, body) := by
  have hown := directive.body?_append h
  have hother (other : Directive) (hne : other ≠ directive) :=
    Directive.body?_append_of_ne hne (' ' :: body)
  unfold Directive.split? Directive.all
  cases directive with
  | options => simp [hown]
  | property => simp [hown, hother .options]
  | globals => simp [hown, hother .options, hother .property]

/-- **A directive of one entry** is read as this entry. -/
theorem Token.items_of_isEntry {t : Token} {directive : Directive} {item : DirectiveItem}
    (h : t.IsEntry directive item) (hkey : isIdentifier item.key.toList = true) :
    t.items = [(directive, item)] := by
  have hsplit : Directive.split? t.value.toList = some (directive, item.render.toList) := by
    rw [h.2, String.toList_append, String.toList_append, List.append_assoc]
    exact directive.split?_append (head?_render hkey)
  unfold Token.items
  rw [hsplit]
  dsimp only
  rw [directiveItems_render hkey]
  rfl

/-- **A directive of one entry at the beginning** is active. -/
theorem activeItems_cons_of_isEntry {t : Token} {directive : Directive} {item : DirectiveItem}
    (h : t.IsEntry directive item) (hkey : isIdentifier item.key.toList = true)
    (tokens : List Token) :
    activeItems (t :: tokens) = (directive, item) :: activeItems tokens := by
  rw [activeItems_cons h.1, Token.items_of_isEntry h hkey]
  rfl

theorem activeChanges_cons_of_isEntry {t : Token} {directive : Directive} {item : DirectiveItem}
    (h : t.IsEntry directive item) (hkey : isIdentifier item.key.toList = true)
    (tokens : List Token) :
    activeChanges (t :: tokens) = (item.change? directive).toList ++ activeChanges tokens := by
  unfold activeChanges
  rw [activeItems_cons_of_isEntry h hkey, List.filterMap_cons]
  cases item.change? directive with
  | none => rfl
  | some event => rfl

theorem Rule.isIdentifier_key (rule : Rule) : isIdentifier rule.key.toList = true := by
  cases rule <;> decide

theorem OptionFlag.isIdentifier_key (flag : OptionFlag) :
    isIdentifier flag.key.toList = true := by
  cases flag <;> decide

end ScriptLint
