import ScriptLint.Proofs.Accounts
import ScriptLint.Proofs.Reports
import ScriptLint.Proofs.Scan.Directives

/-!
# Every knob turns its own rule

Passes over one text under two settings hear the same events, and what is set by
directives is the same in both at every moment.  So the two lists of diagnostics are
related by what relates the diagnostics of a single event, as long as the relation goes by
parts.  Three relations do: to agree but for one rule, to be a part of the other, and to
flag no line that the other does not flag.

## Main definitions

* `Settings.AgreeBeyond` — settings that no other rule can tell apart
* `Knobs` — what the level of a rule, the length limit and the flags do

## Main statements

* `ByParts.verify` — what relates single diagnostics relates passes
* `obeys_of_unnamed` — a rule that no directive names reports at its level
* `knobs_turn_own_rule` — every knob turns its own rule
-/

namespace ScriptLint

/-! ### Two passes over one text -/

/-- **By parts**: a relation between lists that holds of wholes when it holds of their parts. -/
structure ByParts (R : List Diagnostic → List Diagnostic → Prop) : Prop where
  nil : R [] []
  append : ∀ {l l' m m'}, R l l' → R m m' → R (l ++ m) (l' ++ m')
  reverse : ∀ {l l'}, R l l' → R l.reverse l'.reverse

namespace ByParts

variable {R : List Diagnostic → List Diagnostic → Prop} {c d : Settings}

/-- What relates the diagnostics of each event relates those of all.  It is enough that it does so
where a condition on the accounts holds that the events keep. -/
theorem recordAll_of (hR : ByParts R) {source : Source} {P : Account → Prop} {events : List Event}
    (hkeep : ∀ a, ∀ event ∈ events, P a → P (a.record source c event))
    (hevent : ∀ a b, ∀ event ∈ events, a.Alike b → P a →
      R (a.diagnosticOf? source c event).toList (b.diagnosticOf? source d event).toList)
    {a b : Account} (h : a.Alike b) (ha : P a) (hab : R a.diagnostics b.diagnostics) :
    P (a.recordAll source c events) ∧
      R (a.recordAll source c events).diagnostics (b.recordAll source d events).diagnostics := by
  induction events generalizing a b with
  | nil => exact ⟨ha, hab⟩
  | cons event events ih =>
    have hnow := List.mem_cons_self (a := event) (l := events)
    refine ih (fun a e he => hkeep a e (List.mem_cons_of_mem event he))
      (fun a b e he => hevent a b e (List.mem_cons_of_mem event he)) (h.record event)
      (hkeep a event hnow ha) ?_
    rw [Account.diagnostics_record, Account.diagnostics_record]
    exact hR.append (hevent a b event hnow h ha) hab

/-- **Passes are related by parts**, where the events of the scan keep a condition: what relates the
diagnostics of each event, and those of the fault, relates the diagnostics of two passes. -/
theorem verify_of (hR : ByParts R) (text : String) {P : Account → Prop}
    (hstart : P { globals := c.globals })
    (hkeep : ∀ a, ∀ event ∈ (scan (.ofString text)).events, P a →
      P (a.record (.ofString text) c event))
    (hevent : ∀ a b, ∀ event ∈ (scan (.ofString text)).events, a.Alike b → P a →
      R (a.diagnosticOf? (.ofString text) c event).toList
        (b.diagnosticOf? (.ofString text) d event).toList)
    (hfault : ∀ (a b : Account), a.Alike b → P a →
      R (a.faultDiagnostic? (.ofString text) c (scan (.ofString text)).fault).toList
        (b.faultDiagnostic? (.ofString text) d (scan (.ofString text)).fault).toList) :
    R (ScriptLint.verify c text) (ScriptLint.verify d text) := by
  have hempty : ({ globals := c.globals } : Account).Alike { globals := d.globals } :=
    ⟨rfl, rfl, rfl⟩
  obtain ⟨hend, hdiagnostics⟩ := hR.recordAll_of hkeep hevent hempty hstart hR.nil
  rw [verify_eq, verify_eq]
  exact hR.append (hR.reverse hdiagnostics) (hfault _ _ (hempty.recordAll _) hend)

/-- The same without a condition. -/
theorem verify (hR : ByParts R) (text : String)
    (hevent : ∀ (a b : Account) event, a.Alike b →
      R (a.diagnosticOf? (.ofString text) c event).toList
        (b.diagnosticOf? (.ofString text) d event).toList)
    (hfault : ∀ (a b : Account) fault, a.Alike b →
      R (a.faultDiagnostic? (.ofString text) c fault).toList
        (b.faultDiagnostic? (.ofString text) d fault).toList) :
    R (ScriptLint.verify c text) (ScriptLint.verify d text) :=
  hR.verify_of text (P := fun _ => True) trivial (fun _ _ _ _ => trivial)
    (fun a b event _ hab _ => hevent a b event hab) (fun a b hab _ => hfault a b _ hab)

end ByParts

/-! ### What an event may report on -/

namespace Account

variable {source : Source} {c d : Settings} {a b : Account}

/-- Accounts that heard the same directives have a rule at the same level, if it is set alike. -/
theorem Alike.level (h : a.Alike b) {rule : Rule} (hset : c.level? rule = d.level? rule)
    (unset : Level) : a.level c rule unset = b.level d rule unset := by
  unfold Account.level
  rw [h.level?, hset]

theorem Alike.flag (h : a.Alike b) {flag : OptionFlag} (hset : c.flag flag = d.flag flag) :
    a.flag c flag = b.flag d flag := by
  unfold Account.flag
  rw [h.flag?, hset]

theorem reported?_congr {finding : Finding}
    (h : a.level c finding.rule finding.unset = b.level d finding.rule finding.unset) :
    a.reported? source c finding = b.reported? source d finding := by
  unfold reported?
  rw [h]

/-- What an event reports hangs on the level of its rule, and on the limit or the flag if it is
theirs. -/
theorem diagnosticOf?_congr {event : Event}
    (hlevel : ∀ rule, event.rule? = some rule →
      ∀ unset, a.level c rule unset = b.level d rule unset)
    (hlimit : event.rule? = some .noLongLines → c.maxLineLength = d.maxLineLength)
    (hflag : event.rule? = some .todoComment → a.flag c .devel = b.flag d .devel) :
    a.diagnosticOf? source c event = b.diagnosticOf? source d event := by
  cases event with
  | found finding => exact reported?_congr (hlevel _ rfl _)
  | lineLeft line =>
    simp only [diagnosticOf?]
    rw [hlimit rfl, reported?_congr (hlevel _ rfl _)]
  | todo line column =>
    simp only [diagnosticOf?]
    rw [hflag rfl, reported?_congr (hlevel _ rfl _)]
  | levelSet rule level => rfl
  | flagSet flag on => rfl
  | globalDeclared name => rfl
  | propertyNamed name => rfl

/-- The diagnostic of an event is on its rule, at the severity of the level of the rule. -/
theorem rule_of_diagnosticOf? {event : Event} {x : Diagnostic}
    (h : a.diagnosticOf? source c event = some x) :
    event.rule? = some x.rule ∧ ∃ unset, (a.level c x.rule unset).severity? = some x.severity := by
  obtain ⟨finding, hevent, hreported⟩ := of_diagnosticOf? h
  obtain ⟨hrule, hseverity, -, -⟩ := of_reported? hreported
  rw [hrule]
  exact ⟨hevent, finding.unset, hseverity⟩

/-- An event on a rule that is off reports nothing. -/
theorem diagnosticOf?_of_off {event : Event} {rule : Rule} (hevent : event.rule? = some rule)
    (hoff : ∀ unset, a.level c rule unset = .off) : a.diagnosticOf? source c event = none := by
  by_contra hsome
  obtain ⟨x, hx⟩ := Option.ne_none_iff_exists'.mp hsome
  obtain ⟨hrule, unset, hseverity⟩ := rule_of_diagnosticOf? hx
  obtain rfl := Option.some.inj (hrule.symm.trans hevent)
  rw [hoff] at hseverity
  cases hseverity

/-- The diagnostic of a fault is an error on its rule, which is not off. -/
theorem of_faultDiagnostic? {fault : Option Finding} {x : Diagnostic}
    (h : a.faultDiagnostic? source c fault = some x) :
    ∃ finding, fault = some finding ∧ x = diagnostic source finding .error ∧
      a.level c x.rule .error ≠ .off := by
  obtain ⟨finding, hfault, h⟩ := Option.bind_eq_some_iff.mp h
  split at h
  · cases h
  · next hlevel =>
    obtain rfl := Option.some.inj h
    exact ⟨finding, hfault, rfl, hlevel⟩

/-- What a fault reports hangs on whether its rule is off. -/
theorem faultDiagnostic?_congr {fault : Option Finding}
    (h : ∀ finding, fault = some finding →
      (a.level c finding.rule .error = .off ↔ b.level d finding.rule .error = .off)) :
    a.faultDiagnostic? source c fault = b.faultDiagnostic? source d fault := by
  cases fault with
  | none => rfl
  | some finding =>
    unfold faultDiagnostic?
    simp only [Option.bind_some, h finding rfl]

end Account

/-! ### Agreement beyond a rule -/

/-- **Agreement beyond a rule**: settings that no other rule can tell apart.  The length limit is
the business of one rule, and so is the flag for tasks. -/
structure Settings.AgreeBeyond (rule : Rule) (c d : Settings) : Prop where
  level? : ∀ r, r ≠ rule → c.level? r = d.level? r
  maxLineLength : rule ≠ .noLongLines → c.maxLineLength = d.maxLineLength
  flag : rule ≠ .todoComment → c.flag .devel = d.flag .devel

/-- The diagnostics on other rules. -/
def others (rule : Rule) (diagnostics : List Diagnostic) : List Diagnostic :=
  diagnostics.filter (·.rule != rule)

/-- To agree but for one rule goes by parts. -/
theorem byParts_others (rule : Rule) :
    ByParts fun l l' => others rule l = others rule l' where
  nil := rfl
  append h h' := by
    rw [others, others, List.filter_append, List.filter_append]
    exact congrArg₂ (· ++ ·) h h'
  reverse h := by
    rw [others, others, List.filter_reverse, List.filter_reverse]
    exact congrArg List.reverse h

/-- What is on the rule itself does not matter. -/
theorem others_eq_nil {rule : Rule} {l : List Diagnostic} (h : ∀ x ∈ l, x.rule = rule) :
    others rule l = [] := by
  refine List.filter_eq_nil_iff.mpr fun x hx => ?_
  simp [h x hx]

namespace Settings.AgreeBeyond

variable {rule : Rule} {c d : Settings} {a b : Account} {source : Source}

/-- An event on another rule reports the same. -/
theorem diagnosticOf? (h : AgreeBeyond rule c d) (hab : a.Alike b) {event : Event}
    (hevent : event.rule? ≠ some rule) :
    a.diagnosticOf? source c event = b.diagnosticOf? source d event := by
  have hne {r : Rule} (hr : event.rule? = some r) : r ≠ rule := by
    rintro rfl
    exact hevent hr
  refine Account.diagnosticOf?_congr (fun r hr => hab.level (h.level? r (hne hr))) ?_ ?_
  · intro hr
    exact h.maxLineLength (hne hr).symm
  · intro hr
    exact hab.flag (h.flag (hne hr).symm)

/-- A fault on another rule reports the same. -/
theorem faultDiagnostic? (h : AgreeBeyond rule c d) (hab : a.Alike b) {fault : Option Finding}
    (hfault : ∀ finding, fault = some finding → finding.rule ≠ rule) :
    a.faultDiagnostic? source c fault = b.faultDiagnostic? source d fault :=
  Account.faultDiagnostic?_congr fun finding hfinding => by
    rw [hab.level (h.level? _ (hfault finding hfinding))]

/-- **The other rules report the same** under settings that they cannot tell apart. -/
theorem others_verify (h : AgreeBeyond rule c d) (text : String) :
    others rule (verify c text) = others rule (verify d text) := by
  refine (byParts_others rule).verify text ?_ ?_
  · intro a b event hab
    by_cases hevent : event.rule? = some rule
    · have hnil {a : Account} {c : Settings} :
          others rule (a.diagnosticOf? (.ofString text) c event).toList = [] := by
        refine others_eq_nil fun x hx => ?_
        obtain ⟨hrule, -⟩ := Account.rule_of_diagnosticOf? (Option.mem_toList.mp hx)
        exact Option.some.inj (hrule.symm.trans hevent)
      rw [hnil, hnil]
    · rw [h.diagnosticOf? hab hevent]
  · intro a b fault hab
    by_cases hfault : ∀ finding, fault = some finding → finding.rule ≠ rule
    · rw [h.faultDiagnostic? hab hfault]
    · have hnil {a : Account} {c : Settings} :
          others rule (a.faultDiagnostic? (.ofString text) c fault).toList = [] := by
        refine others_eq_nil fun x hx => ?_
        obtain ⟨finding, rfl, rfl, -⟩ := Account.of_faultDiagnostic? (Option.mem_toList.mp hx)
        simpa [Account.diagnostic] using hfault
      rw [hnil, hnil]

end Settings.AgreeBeyond

/-! ### A rule that is off -/

theorem byParts_sublist : ByParts List.Sublist where
  nil := .refl _
  append h h' := h.append h'
  reverse h := h.reverse

/-- **Switching a rule off drops diagnostics** and adds none: until a directive sets the rule it
reports nothing, and from there on the same. -/
theorem sublist_verify_of_off {rule : Rule} {c d : Settings} (hoff : c.level? rule = some .off)
    (hlevel : ∀ r, r ≠ rule → c.level? r = d.level? r)
    (hlimit : c.maxLineLength = d.maxLineLength) (hflag : c.flag .devel = d.flag .devel)
    (text : String) : (verify c text).Sublist (verify d text) := by
  have hagree : c.AgreeBeyond rule d := ⟨hlevel, fun _ => hlimit, fun _ => hflag⟩
  -- What a directive set for the rule holds on both sides; without it the rule is off.
  have hcases {a b : Account} (hab : a.Alike b) :
      (∀ unset, a.level c rule unset = .off) ∨
        ∀ r unset, a.level c r unset = b.level d r unset := by
    cases hset : a.level? rule with
    | none => exact .inl fun unset => by simp [Account.level, hset, hoff]
    | some level =>
      refine .inr fun r unset => ?_
      by_cases hr : r = rule
      · subst hr
        simp [Account.level, ← hab.level?, hset]
      · exact hab.level (hlevel r hr) unset
  refine byParts_sublist.verify text ?_ ?_
  · intro a b event hab
    by_cases hevent : event.rule? = some rule
    · rcases hcases hab with hnone | hsame
      · rw [Account.diagnosticOf?_of_off hevent hnone]
        exact List.nil_sublist _
      · have heq : a.diagnosticOf? (.ofString text) c event =
            b.diagnosticOf? (.ofString text) d event :=
          Account.diagnosticOf?_congr (fun r _ => hsame r) (fun _ => hlimit)
            fun _ => hab.flag hflag
        exact heq ▸ .refl _
    · exact hagree.diagnosticOf? hab hevent ▸ .refl _
  · intro a b fault hab
    by_cases hfault : ∀ finding, fault = some finding → finding.rule ≠ rule
    · exact hagree.faultDiagnostic? hab hfault ▸ .refl _
    · push Not at hfault
      obtain ⟨finding, rfl, rfl⟩ := hfault
      rcases hcases hab with hnone | hsame
      · have hsilent : a.faultDiagnostic? (.ofString text) c (some finding) = none := by
          simp [Account.faultDiagnostic?, hnone]
        rw [hsilent]
        exact List.nil_sublist _
      · have heq : a.faultDiagnostic? (.ofString text) c (some finding) =
            b.faultDiagnostic? (.ofString text) d (some finding) :=
          Account.faultDiagnostic?_congr fun finding _ => by rw [hsame]
        exact heq ▸ .refl _

/-! ### The length limit -/

/-- The lines with a diagnostic on long lines. -/
def longLines (diagnostics : List Diagnostic) : List Nat :=
  (diagnostics.filter (·.rule == .noLongLines)).map (·.line)

theorem byParts_longLines : ByParts fun l l' => longLines l ⊆ longLines l' where
  nil := List.Subset.refl _
  append h h' := by
    simp only [longLines, List.filter_append, List.map_append]
    exact List.append_subset.mpr ⟨List.subset_append_of_subset_left _ h,
      List.subset_append_of_subset_right _ h'⟩
  reverse h := by
    intro n hn
    simp only [longLines, List.filter_reverse, List.map_reverse, List.mem_reverse] at hn ⊢
    exact h hn

/-- Which line is flagged hangs on the line of the finding and the level alone. -/
theorem longLines_reported?_subset {source : Source} {c d : Settings} {a b : Account}
    {finding finding' : Finding} (hrule : finding.rule = finding'.rule)
    (hline : finding.line = finding'.line)
    (hlevel : a.level c finding.rule finding.unset = b.level d finding'.rule finding'.unset) :
    longLines (a.reported? source c finding).toList ⊆
      longLines (b.reported? source d finding').toList := by
  unfold Account.reported?
  rw [hlevel, hline]
  split
  · exact List.Subset.refl _
  · split
    · exact List.Subset.refl _
    · by_cases hlong : finding'.rule = .noLongLines
      · simp [longLines, Account.diagnostic, hrule, hline, hlong]
      · simp [longLines, Account.diagnostic, hrule, hlong]

/-- **A larger limit flags no more lines.** -/
theorem longLines_verify_subset {c d : Settings} (hle : c.maxLineLength ≤ d.maxLineLength)
    (hlevel : c.level? = d.level?) (hflag : c.flag .devel = d.flag .devel) (text : String) :
    longLines (verify d text) ⊆ longLines (verify c text) := by
  have hlevels {a b : Account} (hab : a.Alike b) (r : Rule) (unset : Level) :
      a.level d r unset = b.level c r unset :=
    hab.level (congrFun hlevel.symm r) unset
  refine byParts_longLines.verify text ?_ ?_
  · intro a b event hab
    cases event with
    | found finding =>
      exact longLines_reported?_subset rfl rfl (hlevels hab _ _)
    | lineLeft line =>
      simp only [Account.diagnosticOf?]
      split
      · next hlong =>
        have hshort : (Source.ofString text).lengthAt line > c.maxLineLength.toNat :=
          Nat.lt_of_le_of_lt (UInt64.le_iff_toNat_le.mp hle) hlong
        -- The two diagnostics differ in their columns and messages only.
        rw [if_pos hshort]
        exact longLines_reported?_subset rfl rfl (hlevels hab _ _)
      · exact List.nil_subset _
    | todo line column =>
      have hdevel : a.flag d .devel = b.flag c .devel := hab.flag hflag.symm
      simp only [Account.diagnosticOf?, hdevel]
      split
      · exact List.nil_subset _
      · exact longLines_reported?_subset rfl rfl (hlevels hab _ _)
    | levelSet rule level => exact List.nil_subset _
    | flagSet flag on => exact List.nil_subset _
    | globalDeclared name => exact List.nil_subset _
    | propertyNamed name => exact List.nil_subset _
  · intro a b fault hab
    have heq : a.faultDiagnostic? (.ofString text) d fault =
        b.faultDiagnostic? (.ofString text) c fault :=
      Account.faultDiagnostic?_congr fun finding _ => by rw [hlevels hab]
    rw [heq]
    exact List.Subset.refl _

/-! ### Rules that no directive names -/

/-- An event sets the level of no rule but its own. -/
theorem level?_record {source : Source} {settings : Settings} {rule : Rule} {event : Event}
    (hevent : ∀ level, event ≠ .levelSet rule level) (a : Account) :
    (a.record source settings event).level? rule = a.level? rule := by
  have hreport (h : (∃ finding, event = .found finding) ∨ (∃ line, event = .lineLeft line) ∨
      ∃ line column, event = .todo line column) :
      (a.record source settings event).level? rule = a.level? rule :=
    congrFun (Account.alike_record source settings a h).level?.symm rule
  cases event with
  | found finding => exact hreport (.inl ⟨finding, rfl⟩)
  | lineLeft line => exact hreport (.inr (.inl ⟨line, rfl⟩))
  | todo line column => exact hreport (.inr (.inr ⟨line, column, rfl⟩))
  | levelSet rule' level =>
    have hne : rule ≠ rule' := by
      rintro rfl
      exact hevent level rfl
    simp [Account.record, hne]
  | flagSet flag on => rfl
  | globalDeclared name => rfl
  | propertyNamed name => rfl

/-- If no directive names a rule, no event sets its level. -/
theorem levelSet_not_mem_events {settings : Settings} {text : String} {rule : Rule}
    (hunnamed : ∀ t ∈ (Pass.run settings text).tokens, ¬ t.NamesRule rule) (level : Level) :
    .levelSet rule level ∉ (scan (.ofString text)).events := by
  intro hlevel
  obtain ⟨t, ht, hnames⟩ := exists_namesRule hlevel
  exact hunnamed t ht hnames

/-- **The level of a rule that no event sets stays**, whether a directive set it before or the
configuration does, and what the events report on the rule has the severity of this level. -/
theorem severity_recordAll {source : Source} {settings : Settings} {rule : Rule}
    {set : Option Level} {level : Level} (hset : set.or (settings.level? rule) = some level)
    {events : List Event} (hevents : ∀ level, .levelSet rule level ∉ events) {a : Account}
    (ha : a.level? rule = set) :
    (a.recordAll source settings events).level? rule = set ∧
      ∀ x ∈ (a.recordAll source settings events).diagnostics, x.rule = rule →
        x ∈ a.diagnostics ∨ level.severity? = some x.severity := by
  induction events generalizing a with
  | nil => exact ⟨ha, fun x hx _ => .inl hx⟩
  | cons event events ih =>
    have hkept : (a.record source settings event).level? rule = set :=
      (level?_record (fun level h => hevents level (h ▸ List.mem_cons_self)) a).trans ha
    obtain ⟨hend, hlater⟩ := ih (fun level h => hevents level (List.mem_cons_of_mem _ h)) hkept
    refine ⟨hend, fun x hx hrule => ?_⟩
    rcases hlater x hx hrule with hnow | hseverity
    · rw [Account.diagnostics_record, List.mem_append, Option.mem_toList] at hnow
      rcases hnow with hnew | hold
      · obtain ⟨-, unset, hseverity⟩ := Account.rule_of_diagnosticOf? hnew
        rw [Account.level, hrule, ha, hset] at hseverity
        exact .inr hseverity
      · exact .inl hold
    · exact .inr hseverity

/-- **Obedience**: a rule reports at the level set for it. -/
structure Obeys (settings : Settings) (text : String) (rule : Rule) (level : Level) : Prop where
  /-- A rule that is off has no diagnostic. -/
  silent : level = .off → ∀ x ∈ verify settings text, x.rule ≠ rule
  /-- The diagnostics on the rule are of the level's severity, except the last one of a pass that
  aborts for the rule. -/
  severity : ∀ front x back, verify settings text = front ++ x :: back → x.rule = rule →
    (∀ a, (Pass.run settings text).abort = some a → a.rule = rule → back ≠ []) →
    level.severity? = some x.severity
  /-- That one is an error, at the place of the abort. -/
  fatal : level ≠ .off → ∀ a, (Pass.run settings text).abort = some a → a.rule = rule →
    ∃ front x, verify settings text = front ++ [x] ∧ x.severity = .error ∧ x.rule = rule ∧
      x.line = a.line ∧ x.column = a.column

/-- **A rule that no directive names reports at its level.** -/
theorem obeys_of_unnamed {settings : Settings} {text : String} {rule : Rule} {level : Level}
    (hset : settings.level? rule = some level)
    (hunnamed : ∀ t ∈ (Pass.run settings text).tokens, ¬ t.NamesRule rule) :
    Obeys settings text rule level := by
  have hevents := levelSet_not_mem_events hunnamed
  obtain ⟨hunset, hreported⟩ :
      (Account.atEnd settings text).level? rule = none ∧
        ∀ x ∈ (Account.atEnd settings text).diagnostics, x.rule = rule →
          x ∈ [] ∨ level.severity? = some x.severity :=
    severity_recordAll (Option.none_or.trans hset) hevents rfl
  have hseverity : ∀ x ∈ (Account.atEnd settings text).diagnostics, x.rule = rule →
      level.severity? = some x.severity :=
    fun x hx hrule => (hreported x hx hrule).resolve_left List.not_mem_nil
  have hlevel : (Account.atEnd settings text).level settings rule .error = level := by
    simp [Account.level, hunset, hset]
  constructor
  case silent =>
    rintro rfl x hx rfl
    rw [verify_eq, List.mem_append, List.mem_reverse, Option.mem_toList] at hx
    rcases hx with hx | hx
    · cases hseverity x hx rfl
    · obtain ⟨-, -, -, hon⟩ := Account.of_faultDiagnostic? hx
      exact hon hlevel
  case severity =>
    intro front x back hsplit hrule hlast
    have hx : x ∈ verify settings text := by
      rw [hsplit]
      simp
    by_cases hreported : x ∈ (Account.atEnd settings text).diagnostics
    · exact hseverity x hreported hrule
    · -- Then it is the diagnostic of the fault, which is on the rule and the last.
      obtain ⟨hback, hfault⟩ := last_of_verify_eq hsplit hreported
      obtain ⟨fault, hscan, rfl, -⟩ := Account.of_faultDiagnostic? hfault
      have habort : (Pass.run settings text).abort.isSome := by
        simp [Pass.run, Pass.ofSource, hscan]
      obtain ⟨a, ha⟩ := Option.isSome_iff_exists.mp habort
      obtain ⟨fault', hfault', hrule', -⟩ := fault_of_abort ha
      obtain rfl := Option.some.inj (hscan.symm.trans hfault')
      exact absurd hback (hlast a ha (hrule'.trans hrule))
  case fatal =>
    intro hon a ha hrule
    have hlevel : (Account.atEnd settings text).level settings a.rule .error ≠ .off := by
      rw [hrule, hlevel]
      exact hon
    obtain ⟨x, hverify, hseverity, hx, hplace⟩ := exists_fatal ha hlevel
    exact ⟨_, x, hverify, hseverity, hx.trans hrule, hplace⟩

/-! ### Knobs -/

/-- **Knobs**: what the settings for one rule do to the diagnostics of a text. -/
structure Knobs (text : String) : Prop where
  /-- The level of a rule touches no other rule, and to switch it off drops diagnostics only. -/
  level : ∀ (c d : Settings) rule, d = { c with level? := d.level? } →
    (∀ r, r ≠ rule → c.level? r = d.level? r) →
    others rule (verify c text) = others rule (verify d text) ∧
      (c.level? rule = some .off → (verify c text).Sublist (verify d text))
  /-- The length limit touches no rule but that of long lines, and a larger one flags no more
  lines. -/
  limit : ∀ c d : Settings, d = { c with maxLineLength := d.maxLineLength } →
    others .noLongLines (verify c text) = others .noLongLines (verify d text) ∧
      (c.maxLineLength ≤ d.maxLineLength →
        longLines (verify d text) ⊆ longLines (verify c text))
  /-- The flags touch no rule but that of tasks. -/
  flags : ∀ c d : Settings, d = { c with flag? := d.flag? } →
    others .todoComment (verify c text) = others .todoComment (verify d text)
  /-- A rule that no directive names reports at the level set for it. -/
  obeyed : ∀ (settings : Settings) rule level, settings.level? rule = some level →
    (∀ t ∈ (Pass.run settings text).tokens, ¬ t.NamesRule rule) →
    Obeys settings text rule level

/-- **Every knob turns its own rule.**  Levels, the length limit and the flags change what is
reported on the rules that they are for, in the way they say. -/
theorem knobs_turn_own_rule (text : String) : Knobs text where
  level := by
    intro c d rule hd hlevel
    have hlimit : c.maxLineLength = d.maxLineLength := by rw [hd]
    have hflag : c.flag .devel = d.flag .devel := by rw [hd]; rfl
    have hagree : c.AgreeBeyond rule d := ⟨hlevel, fun _ => hlimit, fun _ => hflag⟩
    exact ⟨hagree.others_verify text,
      fun hoff => sublist_verify_of_off hoff hlevel hlimit hflag text⟩
  limit := by
    intro c d hd
    have hlevel : c.level? = d.level? := by rw [hd]
    have hflag : c.flag .devel = d.flag .devel := by rw [hd]; rfl
    have hagree : c.AgreeBeyond .noLongLines d :=
      ⟨fun r _ => congrFun hlevel r, fun hrule => absurd rfl hrule, fun _ => hflag⟩
    exact ⟨hagree.others_verify text,
      fun hle => longLines_verify_subset hle hlevel hflag text⟩
  flags := by
    intro c d hd
    have hlevel : c.level? = d.level? := by rw [hd]
    have hlimit : c.maxLineLength = d.maxLineLength := by rw [hd]
    have hagree : c.AgreeBeyond .todoComment d :=
      ⟨fun r _ => congrFun hlevel r, fun _ => hlimit, fun hrule => absurd rfl hrule⟩
    exact hagree.others_verify text
  obeyed := fun _ _ _ => obeys_of_unnamed

/-- A rule set to a level in a text whose directive names another rule. -/
theorem obeys_of_unclosed_template :
    Obeys (({} : Settings).setLevel .unclosedMega .warn) "/*jslint no_tabs*/\n\t\x60"
      .unclosedMega .warn :=
  (knobs_turn_own_rule _).obeyed _ _ _ (by decide) (by decide +kernel)

end ScriptLint
