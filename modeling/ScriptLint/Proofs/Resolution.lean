import Mathlib.Data.List.Perm.Basic
import ScriptLint.Config.Document

/-!
# Resolving documents

A document is resolved entry by entry.  An entry sets the level of the rule, the flag or the limit
of its name, if its value is of the right kind for that name, and no two of these share a name.
So of the entries that set the same thing the last one counts, the others change nothing, and
settings that are written down are resolved to themselves, in whatever order their entries stand.

## Main definitions

* `Document.levelGiven?`, `Document.flagGiven?`, `Document.limitGiven?` — what an entry sets
* `Settings.document` — settings written down
* `Document.Ineffective` — an entry that sets nothing
* `Document.Widens` — entries with ineffective ones between them

## Main statements

* `Document.level?_resolve`, `Document.flag?_resolve`, `Document.maxLineLength_resolve` — the last
  entry counts
* `Document.resolve_document` — settings written down are resolved to themselves
* `Document.foldl_of_widens` — ineffective entries change nothing
* `Document.resolve_inverts_writing` — both of these
-/

namespace ScriptLint

/-! ### Names -/

theorem Rule.key_inj {a b : Rule} (h : a.key = b.key) : a = b := by
  have hsame : some a = some b := by rw [← a.ofName?_key, ← b.ofName?_key, h]
  exact Option.some.inj hsame

theorem OptionFlag.key_inj {a b : OptionFlag} (h : a.key = b.key) : a = b := by
  have hsame : some a = some b := by rw [← a.ofName?_key, ← b.ofName?_key, h]
  exact Option.some.inj hsame

theorem OptionFlag.key_of_ofName? {name : String} {flag : OptionFlag}
    (h : ofName? name = some flag) : flag.key = name := by
  unfold ofName? at h
  simpa using List.find?_some h

/-- No flag has the name of a rule. -/
theorem OptionFlag.ruleOfName?_key (flag : OptionFlag) : Rule.ofName? flag.key = none := by
  cases flag <;> decide

theorem OptionFlag.key_ne_ruleKey (flag : OptionFlag) (rule : Rule) : flag.key ≠ rule.key := by
  intro h
  have hnone := flag.ruleOfName?_key
  rw [h, rule.ofName?_key] at hnone
  cases hnone

namespace Document

theorem ruleOfName?_limit : Rule.ofName? maxLineLengthKey = none := by decide

theorem flagOfName?_limit : OptionFlag.ofName? maxLineLengthKey = none := by decide

theorem limitKey_ne_ruleKey (rule : Rule) : maxLineLengthKey ≠ rule.key := by
  intro h
  have hnone := ruleOfName?_limit
  rw [h, rule.ofName?_key] at hnone
  cases hnone

theorem limitKey_ne_flagKey (flag : OptionFlag) : maxLineLengthKey ≠ flag.key := by
  intro h
  have hnone := flagOfName?_limit
  rw [h, flag.ofName?_key] at hnone
  cases hnone

/-! ### Applying an option -/

variable (s : Settings) {name : String} (value : OptionValue)

/-- An option with the name of a rule. -/
theorem applyOption_rule (rule : Rule) :
    applyOption s rule.key value = (levelOf rule value).elim s (s.setLevel rule) := by
  simp only [applyOption, rule.ofName?_key]
  cases levelOf rule value <;> rfl

/-- An option with the name of a flag. -/
theorem applyOption_flag (flag : OptionFlag) :
    applyOption s flag.key value =
      match value with
      | .flag on => s.setFlag flag on
      | _ => s := by
  unfold applyOption
  rw [flag.ruleOfName?_key, flag.ofName?_key]
  cases value <;> rfl

/-- An option with the name of the limit. -/
theorem applyOption_limit :
    applyOption s maxLineLengthKey value =
      match value with
      | .number n => { s with maxLineLength := n }
      | _ => s := by
  unfold applyOption
  rw [ruleOfName?_limit, flagOfName?_limit]
  cases value <;> rfl

/-- An option with another name. -/
theorem applyOption_unknown (hrule : ∀ rule : Rule, rule.key ≠ name)
    (hflag : ∀ flag : OptionFlag, flag.key ≠ name) (hlimit : maxLineLengthKey ≠ name) :
    applyOption s name value = s := by
  have hnorule : Rule.ofName? name = none := by
    rw [Option.eq_none_iff_forall_ne_some]
    exact fun rule h => hrule rule (Rule.key_of_ofName? h)
  have hnoflag : OptionFlag.ofName? name = none := by
    rw [Option.eq_none_iff_forall_ne_some]
    exact fun flag h => hflag flag (OptionFlag.key_of_ofName? h)
  unfold applyOption
  rw [hnorule, hnoflag]
  cases value with
  | number n => exact if_neg (Ne.symm hlimit)
  | _ => rfl

/-- A name is that of a rule, of a flag or of the limit, or it is unknown. -/
theorem name_cases (name : String) :
    (∃ rule : Rule, rule.key = name) ∨ (∃ flag : OptionFlag, flag.key = name) ∨
      maxLineLengthKey = name ∨
      ((∀ rule : Rule, rule.key ≠ name) ∧ (∀ flag : OptionFlag, flag.key ≠ name) ∧
        maxLineLengthKey ≠ name) := by
  by_cases hrule : ∃ rule : Rule, rule.key = name
  · exact .inl hrule
  by_cases hflag : ∃ flag : OptionFlag, flag.key = name
  · exact .inr (.inl hflag)
  by_cases hlimit : maxLineLengthKey = name
  · exact .inr (.inr (.inl hlimit))
  · exact .inr (.inr (.inr ⟨not_exists.mp hrule, not_exists.mp hflag, hlimit⟩))

/-! ### What an entry sets -/

/-- The level that an entry gives to a rule. -/
def levelGiven? (rule : Rule) (entry : String × OptionValue) : Option Level :=
  if entry.1 = rule.key then levelOf rule entry.2 else none

/-- The value that an entry gives to a flag. -/
def flagGiven? (flag : OptionFlag) : String × OptionValue → Option Bool
  | (name, .flag on) => if name = flag.key then some on else none
  | _ => none

/-- The limit that an entry gives. -/
def limitGiven? : String × OptionValue → Option UInt64
  | (name, .number n) => if name = maxLineLengthKey then some n else none
  | _ => none

variable (entry : String × OptionValue)

theorem level?_applyOption (rule : Rule) :
    (applyOption s entry.1 entry.2).level? rule = (levelGiven? rule entry).or (s.level? rule) := by
  obtain ⟨name, value⟩ := entry
  unfold levelGiven?
  rcases name_cases name with ⟨other, rfl⟩ | ⟨flag, rfl⟩ | rfl | ⟨hrule, hflag, hlimit⟩
  · rw [applyOption_rule]
    by_cases hother : rule = other
    · subst hother
      cases levelOf rule value with
      | none => simp
      | some level => simp [Settings.setLevel]
    · rw [if_neg fun h => hother (Rule.key_inj h.symm)]
      cases levelOf other value with
      | none => rfl
      | some level => simp [Settings.setLevel, hother]
  · rw [applyOption_flag, if_neg (flag.key_ne_ruleKey rule)]
    cases value <;> rfl
  · rw [applyOption_limit, if_neg (limitKey_ne_ruleKey rule)]
    cases value <;> rfl
  · rw [applyOption_unknown s value hrule hflag hlimit, if_neg fun h => hrule rule h.symm]
    rfl

theorem flag?_applyOption (flag : OptionFlag) :
    (applyOption s entry.1 entry.2).flag? flag = (flagGiven? flag entry).or (s.flag? flag) := by
  obtain ⟨name, value⟩ := entry
  rcases name_cases name with ⟨rule, rfl⟩ | ⟨other, rfl⟩ | rfl | ⟨hrule, hflag, hlimit⟩
  · rw [applyOption_rule]
    have hkey : rule.key ≠ flag.key := fun h => flag.key_ne_ruleKey rule h.symm
    cases levelOf rule value <;> cases value <;> simp [flagGiven?, hkey, Settings.setLevel]
  · rw [applyOption_flag]
    by_cases hother : flag = other
    · subst hother
      cases value <;> simp [flagGiven?, Settings.setFlag]
    · have hkey : other.key ≠ flag.key := fun h => hother (OptionFlag.key_inj h.symm)
      cases value <;> simp [flagGiven?, Settings.setFlag, hother, hkey]
  · rw [applyOption_limit]
    cases value <;> simp [flagGiven?, limitKey_ne_flagKey]
  · rw [applyOption_unknown s value hrule hflag hlimit]
    have hkey : name ≠ flag.key := fun h => hflag flag h.symm
    cases value <;> simp [flagGiven?, hkey]

theorem maxLineLength_applyOption :
    some (applyOption s entry.1 entry.2).maxLineLength =
      (limitGiven? entry).or (some s.maxLineLength) := by
  obtain ⟨name, value⟩ := entry
  rcases name_cases name with ⟨rule, rfl⟩ | ⟨flag, rfl⟩ | rfl | ⟨hrule, hflag, hlimit⟩
  · rw [applyOption_rule]
    have hkey : rule.key ≠ maxLineLengthKey := (limitKey_ne_ruleKey rule).symm
    cases levelOf rule value <;> cases value <;> simp [limitGiven?, hkey, Settings.setLevel]
  · rw [applyOption_flag]
    have hkey : flag.key ≠ maxLineLengthKey := (limitKey_ne_flagKey flag).symm
    cases value <;> simp [limitGiven?, hkey, Settings.setFlag]
  · rw [applyOption_limit]
    cases value <;> simp [limitGiven?]
  · rw [applyOption_unknown s value hrule hflag hlimit]
    cases value <;> simp [limitGiven?, Ne.symm hlimit]

/-- An entry sets no names. -/
theorem names_applyOption :
    (applyOption s entry.1 entry.2).languageGlobals = s.languageGlobals ∧
      (applyOption s entry.1 entry.2).browserGlobals = s.browserGlobals ∧
      (applyOption s entry.1 entry.2).userGlobals = s.userGlobals := by
  obtain ⟨name, value⟩ := entry
  rcases name_cases name with ⟨rule, rfl⟩ | ⟨flag, rfl⟩ | rfl | ⟨hrule, hflag, hlimit⟩
  · rw [applyOption_rule]
    cases levelOf rule value <;> exact ⟨rfl, rfl, rfl⟩
  · rw [applyOption_flag]
    cases value <;> exact ⟨rfl, rfl, rfl⟩
  · rw [applyOption_limit]
    cases value <;> exact ⟨rfl, rfl, rfl⟩
  · rw [applyOption_unknown s value hrule hflag hlimit]
    exact ⟨rfl, rfl, rfl⟩

/-! ### The last entry counts -/

/-- Steps that each set a component or leave it: the last one that sets it counts. -/
theorem foldl_eq_or {σ α β : Type} (view : σ → Option β) (given? : α → Option β)
    (step : σ → α → σ) (hstep : ∀ s a, view (step s a) = (given? a).or (view s))
    (l : List α) (s : σ) :
    view (l.foldl step s) = (l.reverse.findSome? given?).or (view s) := by
  induction l generalizing s with
  | nil => rfl
  | cons a l ih =>
    rw [List.foldl_cons, ih, hstep, List.reverse_cons, List.findSome?_append, Option.or_assoc]
    congr 1
    rw [List.findSome?_cons]
    cases given? a <;> rfl

variable (d : Document)

/-- The settings of a document without its options. -/
def bare : Settings where
  languageGlobals := d.globals
  browserGlobals := d.globalsBrowser
  userGlobals := d.globalsUser

/-- Resolving applies the options in their order. -/
theorem resolve_eq :
    d.resolve = d.options.foldl (fun s entry => applyOption s entry.1 entry.2) d.bare := rfl

/-- **The level of a rule** is that of the last entry that gives it one. -/
theorem level?_resolve (rule : Rule) :
    d.resolve.level? rule = d.options.reverse.findSome? (levelGiven? rule) := by
  rw [resolve_eq]
  refine (foldl_eq_or (·.level? rule) (levelGiven? rule) _ ?_ d.options d.bare).trans ?_
  · intro s entry
    exact level?_applyOption s entry rule
  · exact Option.or_none

/-- **The value of a flag** is that of the last entry that gives it one. -/
theorem flag?_resolve (flag : OptionFlag) :
    d.resolve.flag? flag = d.options.reverse.findSome? (flagGiven? flag) := by
  rw [resolve_eq]
  refine (foldl_eq_or (·.flag? flag) (flagGiven? flag) _ ?_ d.options d.bare).trans ?_
  · intro s entry
    exact flag?_applyOption s entry flag
  · exact Option.or_none

/-- **The limit** is that of the last entry that gives one, or else the default. -/
theorem maxLineLength_resolve :
    some d.resolve.maxLineLength =
      (d.options.reverse.findSome? limitGiven?).or (some defaultMaxLineLength) := by
  rw [resolve_eq]
  refine foldl_eq_or (fun s => some s.maxLineLength) limitGiven? _ ?_ d.options d.bare
  intro s entry
  exact maxLineLength_applyOption s entry

/-- **The names** are those of the document. -/
theorem names_resolve :
    d.resolve.languageGlobals = d.globals ∧ d.resolve.browserGlobals = d.globalsBrowser ∧
      d.resolve.userGlobals = d.globalsUser := by
  rw [resolve_eq]
  refine List.foldlRecOn (motive := fun s : Settings => s.languageGlobals = d.globals ∧
    s.browserGlobals = d.globalsBrowser ∧ s.userGlobals = d.globalsUser)
    d.options _ ⟨rfl, rfl, rfl⟩ ?_
  intro s hs entry _
  obtain ⟨hlanguage, hbrowser, huser⟩ := names_applyOption s entry
  exact ⟨hlanguage.trans hs.1, hbrowser.trans hs.2.1, huser.trans hs.2.2⟩

end Document

/-! ### Settings written down -/

/-- **Settings written down**: an option for each rule and each flag that is set, one for the
limit, and the names. -/
def Settings.document (c : Settings) : Document where
  options :=
    Rule.all.filterMap (fun rule => (c.level? rule).map fun level => (rule.key, .level level)) ++
      OptionFlag.all.filterMap (fun flag => (c.flag? flag).map fun on => (flag.key, .flag on)) ++
      [(Document.maxLineLengthKey, .number c.maxLineLength)]
  globals := c.languageGlobals
  globalsBrowser := c.browserGlobals
  globalsUser := c.userGlobals

/-- The options of settings written down. -/
theorem Settings.mem_document (c : Settings) (entry : String × OptionValue) :
    entry ∈ c.document.options ↔
      (∃ rule level, c.level? rule = some level ∧ entry = (rule.key, .level level)) ∨
      (∃ flag on, c.flag? flag = some on ∧ entry = (flag.key, .flag on)) ∨
      entry = (Document.maxLineLengthKey, .number c.maxLineLength) := by
  simp only [document, List.mem_append, List.mem_filterMap, Option.map_eq_some_iff,
    List.mem_singleton, or_assoc, Rule.mem_all, OptionFlag.mem_all, true_and]
  simp only [eq_comm (a := entry)]

/-- What a list gives first, if all of it that gives anything gives the same. -/
theorem findSome?_eq_of_forall {α β : Type} {given? : α → Option β} {l : List α} {value : Option β}
    (hall : ∀ a ∈ l, ∀ b, given? a = some b → value = some b)
    (hsome : ∀ b, value = some b → ∃ a ∈ l, given? a = some b) :
    l.findSome? given? = value := by
  cases hfound : l.findSome? given? with
  | some b =>
    obtain ⟨a, ha, hgiven⟩ := List.exists_of_findSome?_eq_some hfound
    exact (hall a ha b hgiven).symm
  | none =>
    symm
    rw [Option.eq_none_iff_forall_ne_some]
    intro b hb
    obtain ⟨a, ha, hgiven⟩ := hsome b hb
    rw [List.findSome?_eq_none_iff.mp hfound a ha] at hgiven
    cases hgiven

attribute [ext] Settings

namespace Document

variable {c : Settings} {options : List (String × OptionValue)}

theorem findSome?_levelGiven? (h : options.Perm c.document.options) (rule : Rule) :
    options.reverse.findSome? (levelGiven? rule) = c.level? rule := by
  apply findSome?_eq_of_forall
  · intro entry hentry level hgiven
    have hmem := (c.mem_document entry).mp (h.mem_iff.mp (List.mem_reverse.mp hentry))
    rcases hmem with ⟨other, set, hset, rfl⟩ | ⟨flag, on, -, rfl⟩ | rfl
    · by_cases hother : other = rule
      · subst hother
        simpa [levelGiven?, levelOf, hset] using hgiven
      · have hkey : other.key ≠ rule.key := fun h => hother (Rule.key_inj h)
        simp [levelGiven?, hkey] at hgiven
    · simp [levelGiven?, flag.key_ne_ruleKey] at hgiven
    · simp [levelGiven?, limitKey_ne_ruleKey] at hgiven
  · intro level hlevel
    have hmem := (c.mem_document _).mpr (.inl ⟨rule, level, hlevel, rfl⟩)
    exact ⟨_, List.mem_reverse.mpr (h.mem_iff.mpr hmem), by simp [levelGiven?, levelOf]⟩

theorem findSome?_flagGiven? (h : options.Perm c.document.options) (flag : OptionFlag) :
    options.reverse.findSome? (flagGiven? flag) = c.flag? flag := by
  apply findSome?_eq_of_forall
  · intro entry hentry on hgiven
    have hmem := (c.mem_document entry).mp (h.mem_iff.mp (List.mem_reverse.mp hentry))
    rcases hmem with ⟨rule, level, -, rfl⟩ | ⟨other, set, hset, rfl⟩ | rfl
    · cases hgiven
    · by_cases hother : other = flag
      · subst hother
        simpa [flagGiven?, hset] using hgiven
      · have hkey : other.key ≠ flag.key := fun h => hother (OptionFlag.key_inj h)
        simp [flagGiven?, hkey] at hgiven
    · cases hgiven
  · intro on hon
    have hmem := (c.mem_document _).mpr (.inr (.inl ⟨flag, on, hon, rfl⟩))
    exact ⟨_, List.mem_reverse.mpr (h.mem_iff.mpr hmem), by simp [flagGiven?]⟩

theorem findSome?_limitGiven? (h : options.Perm c.document.options) :
    options.reverse.findSome? limitGiven? = some c.maxLineLength := by
  apply findSome?_eq_of_forall
  · intro entry hentry n hgiven
    have hmem := (c.mem_document entry).mp (h.mem_iff.mp (List.mem_reverse.mp hentry))
    rcases hmem with ⟨rule, level, -, rfl⟩ | ⟨flag, on, -, rfl⟩ | rfl
    · cases hgiven
    · cases hgiven
    · simpa [limitGiven?] using hgiven
  · intro n hn
    cases hn
    have hmem := (c.mem_document _).mpr (.inr (.inr rfl))
    exact ⟨_, List.mem_reverse.mpr (h.mem_iff.mpr hmem), by simp [limitGiven?]⟩

/-- **Settings that are written down** are resolved to themselves, whatever the order. -/
theorem resolve_document (h : options.Perm c.document.options) :
    ({ c.document with options } : Document).resolve = c := by
  obtain ⟨hlanguage, hbrowser, huser⟩ := names_resolve { c.document with options }
  apply Settings.ext
  · funext rule
    rw [level?_resolve]
    exact findSome?_levelGiven? h rule
  · funext flag
    rw [flag?_resolve]
    exact findSome?_flagGiven? h flag
  · apply Option.some.inj
    rw [maxLineLength_resolve, findSome?_limitGiven? h]
    rfl
  · exact hlanguage
  · exact hbrowser
  · exact huser

/-! ### Entries without effect -/

/-- **Ineffective**: an unknown name, or a value of the wrong kind for its name. -/
inductive Ineffective : String × OptionValue → Prop
  | unknown {name : String} (value : OptionValue) (hrule : ∀ rule : Rule, rule.key ≠ name)
      (hflag : ∀ flag : OptionFlag, flag.key ≠ name) (hlimit : maxLineLengthKey ≠ name) :
      Ineffective (name, value)
  | rule (rule : Rule) (n : UInt64) : Ineffective (rule.key, .number n)
  | flag (flag : OptionFlag) {value : OptionValue} (h : ∀ on, value ≠ .flag on) :
      Ineffective (flag.key, value)
  | limit {value : OptionValue} (h : ∀ n, value ≠ .number n) :
      Ineffective (maxLineLengthKey, value)

/-- **Widening**: entries with ineffective ones before, between and after them. -/
inductive Widens : List (String × OptionValue) → List (String × OptionValue) → Prop
  | nil : Widens [] []
  | kept (entry : String × OptionValue) {l wide : List (String × OptionValue)}
      (h : Widens l wide) : Widens (entry :: l) (entry :: wide)
  | added {entry : String × OptionValue} {l wide : List (String × OptionValue)}
      (hentry : Ineffective entry) (h : Widens l wide) : Widens l (entry :: wide)

/-- **An ineffective entry** changes nothing. -/
theorem applyOption_of_ineffective (s : Settings) {entry : String × OptionValue}
    (h : Ineffective entry) : applyOption s entry.1 entry.2 = s := by
  cases h with
  | unknown value hrule hflag hlimit => exact applyOption_unknown s value hrule hflag hlimit
  | rule rule n => exact applyOption_rule s (.number n) rule
  | @flag flag value h =>
    rw [applyOption_flag]
    cases value with
    | flag on => exact absurd rfl (h on)
    | _ => rfl
  | @limit value h =>
    rw [applyOption_limit]
    cases value with
    | number n => exact absurd rfl (h n)
    | _ => rfl

/-- **Entries that are widened** are resolved to the same settings. -/
theorem foldl_of_widens {wide : List (String × OptionValue)} (h : Widens options wide)
    (s : Settings) :
    wide.foldl (fun s entry => applyOption s entry.1 entry.2) s =
      options.foldl (fun s entry => applyOption s entry.1 entry.2) s := by
  induction h generalizing s with
  | nil => rfl
  | kept entry _ ih => exact ih _
  | added hentry _ ih => rw [List.foldl_cons, applyOption_of_ineffective s hentry, ih]

/-- **Resolving inverts writing down.**  Settings that are written down, in whatever order, are
resolved to themselves, and entries that are ineffective, wherever they stand in a document,
change nothing in what it is resolved to. -/
theorem resolve_inverts_writing :
    (∀ (c : Settings) (options : List (String × OptionValue)),
      options.Perm c.document.options →
        ({ c.document with options } : Document).resolve = c) ∧
      ∀ (d : Document) (wide : List (String × OptionValue)), Widens d.options wide →
        ({ d with options := wide } : Document).resolve = d.resolve := by
  refine ⟨fun c options h => resolve_document h, fun d wide h => ?_⟩
  rw [resolve_eq, resolve_eq]
  exact foldl_of_widens h d.bare

/-- Tabs forbidden and a flag switched off, written down with the limit in front; and the same
document with a number for the rule, a level for the limit and an unknown name among its options. -/
theorem resolve_tabs_widened :
    (let c := (({} : Settings).setLevel .noTabs .error).setFlag .devel false
     ({ c.document with options :=
        [("max_line_length", .number 80), ("no_tabs", .level .error), ("devel", .flag false)] } :
          Document).resolve = c) ∧
      ({ options :=
          [("no_tabs", .number 3), ("no_tabs", .level .error), ("max_line_length", .level .warn),
            ("tabs", .flag true), ("devel", .flag false)] } : Document).resolve =
        ({ options := [("no_tabs", .level .error), ("devel", .flag false)] } :
          Document).resolve := by
  refine ⟨resolve_inverts_writing.1 _ _ (by decide), ?_⟩
  refine resolve_inverts_writing.2
    { options := [("no_tabs", .level .error), ("devel", .flag false)] } _ ?_
  refine .added (.rule .noTabs 3) (.kept _ (.added (.limit (by simp)) (.added ?_ (.kept _ .nil))))
  exact .unknown _ (by rintro ⟨⟩ <;> decide) (by rintro ⟨⟩ <;> decide) (by decide)

end Document

end ScriptLint
