import Mathlib.Data.List.Forall2
import Mathlib.Data.Set.List
import ScriptLint.Proofs.Schema

/-!
# Reading documents

A configuration document is read from a JSON value in two steps that have to agree: the schema
admits the value, and then its members are read one by one.  The schema takes an integer however
it is written, reading only one that is written as an integer of 64 bits; apart from that every
value that the schema admits can be read, and the document holds what is given and no more.
What is written is read back.

## Main definitions

* `OptionValue.Spells` — how the value of an option can be given
* `Document.Holds` — a document holds what a value gives
* `Document.GivesStray` — an option is given as a number that no document holds
* `Document.ReadsBySchema` — what the schema and the reading make of a value

## Main statements

* `OptionValue.ofJson?_eq_some_iff` — reading an option
* `Document.ofJson_cases` — what reading a value comes to
* `Document.ofJson_toJson` — what is written is read back
* `Document.read_by_schema` — the schema and the reading agree on every value
-/

namespace ScriptLint

/-! ### Lists read item by item -/

section

variable {α β : Type} {f : α → Option β}

theorem mapM_eq_some_iff {l : List α} {l' : List β} :
    l.mapM f = some l' ↔ List.Forall₂ (fun a b => f a = some b) l l' := by
  induction l generalizing l' with
  | nil => cases l' <;> simp
  | cons a l ih =>
    rw [List.mapM_cons]
    cases ha : f a with
    | none => cases l' <;> simp [ha]
    | some b => cases l' <;> simp [ha, ← ih, Option.bind_eq_some_iff, and_comm]

theorem mapM_eq_none_iff {l : List α} : l.mapM f = none ↔ ∃ a ∈ l, f a = none := by
  induction l with
  | nil => simp
  | cons a l ih =>
    rw [List.mapM_cons]
    cases ha : f a with
    | none => simp [ha]
    | some b => simp [ha, ← ih, Option.bind_eq_none_iff, ← Option.eq_none_iff_forall_ne_some]

end

/-! ### Options -/

/-- The names of a level: its key, and a second one for `warn`. -/
theorem Level.of_ofName? {name : String} {level : Level} (h : ofName? name = some level) :
    name = level.key ∨ name = "warning" ∧ level = .warn := by
  unfold ofName? at h
  split_ifs at h with hoff hwarn herror
  · cases h
    exact .inl hoff
  · cases h
    exact hwarn.imp_right fun hname => ⟨hname, rfl⟩
  · cases h
    exact .inl herror

namespace OptionValue

/-- **Spelling**: how the value of an option can be given. -/
inductive Spells : Json → OptionValue → Prop
  | flag (on : Bool) : Spells (.bool on) (.flag on)
  | number (n : UInt64) : Spells (.number (.natural n)) (.number n)
  | level (level : Level) : Spells (.string level.key) (.level level)
  | warning : Spells (.string "warning") (.level .warn)

/-- **Stray**: a number that is not written as an integer of 64 bits. -/
def IsStray (value : Json) : Prop := ∃ n, value = .number n ∧ ∀ k, n ≠ .natural k

variable {value : Json} {option : OptionValue}

theorem ofJson?_toJson (option : OptionValue) : ofJson? option.toJson = some option := by
  cases option with
  | flag on => rfl
  | number n => rfl
  | level level => exact congrArg (Option.map OptionValue.level) level.ofName?_key

/-- **Reading an option** takes what spells it. -/
theorem ofJson?_eq_some_iff : ofJson? value = some option ↔ Spells value option := by
  constructor
  · intro h
    unfold ofJson? at h
    split at h
    · cases h
      exact .flag _
    · cases h
      exact .number _
    · obtain ⟨level, hlevel, rfl⟩ := Option.map_eq_some_iff.mp h
      rcases Level.of_ofName? hlevel with rfl | ⟨rfl, rfl⟩
      · exact .level level
      · exact .warning
    · cases h
  · rintro (on | n | level | -)
    · rfl
    · rfl
    · exact ofJson?_toJson (.level level)
    · rfl

theorem isAdmitted_toJson (option : OptionValue) : isAdmitted option.toJson = true := by
  cases option with
  | flag on => rfl
  | number n => rfl
  | level level => exact congrArg Option.isSome level.ofName?_key

/-- What the schema admits and cannot be read is a stray number. -/
theorem ofJson?_eq_none_iff (h : isAdmitted value = true) :
    ofJson? value = none ↔ IsStray value := by
  unfold isAdmitted at h
  split at h
  · simp [ofJson?, IsStray]
  · next n => cases n <;> simp [ofJson?, IsStray]
  · simp [ofJson?, IsStray, Option.ne_none_iff_isSome.mpr h]
  · cases h

end OptionValue

namespace Document

variable {value member : Json} {name : String}

/-! ### Names -/

theorem isStringList_stringsToJson (names : List String) :
    isStringList (stringsToJson names) = true := by
  simp [isStringList, stringsToJson]

theorem strings_stringsToJson (names : List String) :
    strings (some (stringsToJson names)) = names := by
  simp [strings, stringsToJson, List.filterMap_map]

/-- A list of strings is what its strings are written as. -/
theorem exists_names_of_isStringList (h : isStringList value = true) :
    ∃ names, value = stringsToJson names := by
  rw [isStringList_iff] at h
  have hschemas := Schema.admits_all.mp h
  obtain ⟨items, rfl⟩ := hschemas (.type .array) List.mem_cons_self
  have hstrings : items ∈ Set.range (List.map Json.string) := by
    rw [Set.range_list_map]
    intro item hitem
    obtain ⟨s, hs⟩ := hschemas (.items (.type .string)) (by simp) items rfl item hitem
    exact ⟨s, hs.symm⟩
  obtain ⟨names, rfl⟩ := hstrings
  exact ⟨names, rfl⟩

/-! ### Members -/

/-- What is given as a member of a document is checked. -/
theorem isAdmittedMember_of_member? (h : isAdmitted value = true)
    (hmember : value.member? name = some member) : isAdmittedMember name member = true := by
  cases value with
  | object members =>
    obtain ⟨before, after, rfl, -⟩ := List.lookup_eq_some_iff.mp hmember
    exact List.all_eq_true.mp h _ (List.mem_append_right before List.mem_cons_self)
  | _ => cases hmember

/-- The options that are given are the members of an object, each of them checked. -/
theorem exists_members_of_options (h : isAdmitted value = true)
    (hmember : value.member? "options" = some member) :
    ∃ members, member = .object members ∧ ∀ m ∈ members, OptionValue.isAdmitted m.2 = true := by
  have hchecked := isAdmittedMember_of_member? h hmember
  cases member with
  | object members => exact ⟨members, rfl, List.all_eq_true.mp hchecked⟩
  | _ => cases hchecked

/-! ### Reading -/

/-- The names held are those of the list given, or none if no list is given. -/
def NamesGiven (value : Json) (name : String) (names : List String) : Prop :=
  value.member? name = some (stringsToJson names) ∨ value.member? name = none ∧ names = []

/-- The options held are those of the object given, one by one, or none if no object is given. -/
def OptionsGiven (value : Json) (options : List (String × OptionValue)) : Prop :=
  (∃ members, value.member? "options" = some (.object members) ∧
    List.Forall₂ (fun given held => given.1 = held.1 ∧ OptionValue.Spells given.2 held.2)
      members options) ∨
  value.member? "options" = none ∧ options = []

/-- **Holding**: a document holds what a value gives, and nothing else. -/
structure Holds (value : Json) (d : Document) : Prop where
  options : OptionsGiven value d.options
  globals : NamesGiven value "globals" d.globals
  globalsBrowser : NamesGiven value "globals_browser" d.globalsBrowser
  globalsUser : NamesGiven value "globals_user" d.globalsUser

/-- An option is given as a stray number. -/
def GivesStray (value : Json) : Prop :=
  ∃ members, value.member? "options" = some (.object members) ∧
    ∃ m ∈ members, OptionValue.IsStray m.2

theorem namesGiven_strings (hname : name ∈ ["globals", "globals_browser", "globals_user"])
    (h : isAdmitted value = true) : NamesGiven value name (strings (value.member? name)) := by
  cases hmember : value.member? name with
  | none => exact .inr ⟨hmember, rfl⟩
  | some member =>
    have hchecked := isAdmittedMember_of_member? h hmember
    have hlist : isStringList member = true := by
      simp only [List.mem_cons, List.not_mem_nil, or_false] at hname
      rcases hname with rfl | rfl | rfl <;> exact hchecked
    obtain ⟨names, rfl⟩ := exists_names_of_isStringList hlist
    rw [strings_stringsToJson]
    exact .inl hmember

theorem optionsGiven_of_options? {options : List (String × OptionValue)}
    (h : isAdmitted value = true)
    (hoptions : options? (value.member? "options") = some options) :
    OptionsGiven value options := by
  cases hmember : value.member? "options" with
  | none =>
    rw [hmember] at hoptions
    cases hoptions
    exact .inr ⟨hmember, rfl⟩
  | some member =>
    obtain ⟨members, rfl, -⟩ := exists_members_of_options h hmember
    rw [hmember] at hoptions
    refine .inl ⟨members, hmember, (mapM_eq_some_iff.mp hoptions).imp ?_⟩
    intro given held hread
    obtain ⟨option, hoption, rfl⟩ := Option.map_eq_some_iff.mp hread
    exact ⟨rfl, OptionValue.ofJson?_eq_some_iff.mp hoption⟩

/-- The options can be read unless one of them is a stray number. -/
theorem options?_eq_none_iff (h : isAdmitted value = true) :
    options? (value.member? "options") = none ↔ GivesStray value := by
  unfold GivesStray
  cases hmember : value.member? "options" with
  | none => simp [options?]
  | some member =>
    obtain ⟨members, rfl, hchecked⟩ := exists_members_of_options h hmember
    have hread : options? (some (.object members)) = none ↔
        ∃ m ∈ members, OptionValue.IsStray m.2 := by
      refine mapM_eq_none_iff.trans (exists_congr fun m => and_congr_right fun hm => ?_)
      rw [Option.map_eq_none_iff, OptionValue.ofJson?_eq_none_iff (hchecked m hm)]
    simp [hread]

/-- **Reading a value** has three outcomes: the schema refuses it, or a stray number makes it
invalid, or there is a document that holds what is given. -/
theorem ofJson_cases (value : Json) :
    (¬ schema.Admits value ∧ ofJson value = .error .refused) ∨
      (schema.Admits value ∧ GivesStray value ∧ ofJson value = .error .invalid) ∨
      (schema.Admits value ∧ ¬ GivesStray value ∧ ∃ d, ofJson value = .ok d ∧ d.Holds value) := by
  rw [← isAdmitted_iff_document]
  unfold ofJson
  cases h : isAdmitted value with
  | false => exact .inl ⟨nofun, rfl⟩
  | true =>
    rw [← options?_eq_none_iff h]
    cases hoptions : options? (value.member? "options") with
    | none => exact .inr (.inl ⟨rfl, rfl, rfl⟩)
    | some options =>
      refine .inr (.inr ⟨rfl, nofun, _, rfl, ?_⟩)
      exact ⟨optionsGiven_of_options? h hoptions, namesGiven_strings (by simp) h,
        namesGiven_strings (by simp) h, namesGiven_strings (by simp) h⟩

/-! ### Writing and reading back -/

theorem isAdmitted_toJson (d : Document) : isAdmitted d.toJson = true := by
  simp [toJson, isAdmitted, isAdmittedMember, isStringList_stringsToJson,
    OptionValue.isAdmitted_toJson]

theorem options?_toJson (options : List (String × OptionValue)) :
    options? (some (.object (options.map fun (name, value) => (name, value.toJson)))) =
      some options := by
  refine mapM_eq_some_iff.mpr ?_
  rw [List.forall₂_map_left_iff, List.forall₂_same]
  intro entry _
  rw [OptionValue.ofJson?_toJson]
  rfl

/-- **What is written is read back.** -/
theorem ofJson_toJson (d : Document) : ofJson d.toJson = .ok d := by
  have hoptions : d.toJson.member? "options" =
      some (.object (d.options.map fun (name, value) => (name, value.toJson))) := by
    rfl
  have hglobals : d.toJson.member? "globals" = some (stringsToJson d.globals) := by rfl
  have hbrowser : d.toJson.member? "globals_browser" = some (stringsToJson d.globalsBrowser) := by
    rfl
  have huser : d.toJson.member? "globals_user" = some (stringsToJson d.globalsUser) := by rfl
  unfold ofJson
  rw [isAdmitted_toJson, hoptions, options?_toJson, hglobals, hbrowser, huser,
    strings_stringsToJson, strings_stringsToJson, strings_stringsToJson]
  rfl

/-! ### The schema and the reading agree -/

/-- A value cannot be read, and this is the text of the error. -/
def FailsWith (value : Json) (text : String) : Prop :=
  ∃ e, ofJson value = .error e ∧ e.message = text

theorem failsWith_iff {e : ConfigError} (h : ofJson value = .error e) (text : String) :
    FailsWith value text ↔ e.message = text := by
  unfold FailsWith
  simp [h]

theorem not_failsWith {d : Document} (h : ofJson value = .ok d) (text : String) :
    ¬ FailsWith value text := by
  unfold FailsWith
  simp [h]

/-- **Reading by the schema**: what the schema and the reading of a value make of it. -/
structure ReadsBySchema (value : Json) : Prop where
  /-- What the schema does not admit is refused, and nothing else. -/
  refused : FailsWith value "Configuration error: Config validation failed" ↔
    ¬ schema.Admits value
  /-- What it admits is invalid if an option is a stray number. -/
  invalid : FailsWith value "Configuration error: Invalid config" ↔
    schema.Admits value ∧ GivesStray value
  /-- Otherwise there is a document, and it holds what is given. -/
  read : schema.Admits value → ¬ GivesStray value → ∃ d, ofJson value = .ok d ∧ d.Holds value

/-- **The schema and the reading agree** on every value, and a document that is written is read
back. -/
theorem read_by_schema :
    (∀ value, ReadsBySchema value) ∧ ∀ d : Document, ofJson d.toJson = .ok d := by
  refine ⟨fun value => ?_, ofJson_toJson⟩
  rcases ofJson_cases value with
    ⟨hschema, h⟩ | ⟨hschema, hstray, h⟩ | ⟨hschema, hstray, d, h, hholds⟩
  · refine ⟨?_, ?_, fun hadmits => absurd hadmits hschema⟩
    · exact iff_of_true ((failsWith_iff h _).mpr rfl) hschema
    · refine iff_of_false (fun hfails => ?_) fun hinvalid => hschema hinvalid.1
      exact absurd ((failsWith_iff h _).mp hfails) (by decide)
  · refine ⟨?_, ?_, fun _ hnone => absurd hstray hnone⟩
    · refine iff_of_false (fun hfails => ?_) (not_not_intro hschema)
      exact absurd ((failsWith_iff h _).mp hfails) (by decide)
    · exact iff_of_true ((failsWith_iff h _).mpr rfl) ⟨hschema, hstray⟩
  · refine ⟨?_, ?_, fun _ _ => ⟨d, h, hholds⟩⟩
    · exact iff_of_false (not_failsWith h _) (not_not_intro hschema)
    · exact iff_of_false (not_failsWith h _) fun hinvalid => hstray hinvalid.2

-- Forty as a fraction is admitted and cannot be read.
example : ofJson (.object [("options", .object [("max_line_length",
    .number (.real ⟨false, 80, -1⟩))])]) = .error .invalid := by
  decide

end Document

end ScriptLint
