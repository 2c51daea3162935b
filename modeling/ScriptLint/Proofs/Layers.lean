import ScriptLint.Proofs.ActiveDirectives
import ScriptLint.Proofs.Scan.Growth

/-!
# The last layer wins

The globals of a pass are put together in **layers**: the names of the language, those of the
environments switched on, the configured ones, and what the entries of the active directives
add.  Of two layers with a name the later one counts.  A directive that is not active adds no
layer, names no property and sets nothing else.

## Main definitions

* `Layer`, `originIn` — names with one origin, and where a name comes from
* `Globals.Layered` — globals that are those of some layers
* `Settings.layers` — the layers of a configuration
* `DirectiveItem.layer?` — the layer that an entry adds
* `ActsInWindow` — what the directives of a text do to a pass

## Main statements

* `layered_globals` — the globals of a configuration are those of its layers
* `layered_setAll` — every active entry adds its layer
* `directives_act_in_window` — directives act in their window, and the last layer wins
-/

namespace ScriptLint

/-! ### Layers -/

/-- **Layer**: names that come from one origin. -/
structure Layer where
  /-- The names. -/
  names : List String
  /-- Where they come from. -/
  origin : Origin
deriving DecidableEq, Repr

/-- The names that come with an origin. -/
def Origin.layer (origin : Origin) : Layer := ⟨origin.names, origin⟩

/-- **The origin of a name** in layers, the first at the bottom: that of the last layer with the
name. -/
def originIn (layers : List Layer) (name : String) : Option Origin :=
  (layers.reverse.find? (name ∈ ·.names)).map (·.origin)

theorem originIn_append (below above : List Layer) (name : String) :
    originIn (below ++ above) name = (originIn above name).or (originIn below name) := by
  unfold originIn
  rw [List.reverse_append, List.find?_append, Option.map_or]

theorem originIn_singleton (layer : Layer) (name : String) :
    originIn [layer] name = if name ∈ layer.names then some layer.origin else none := by
  unfold originIn
  by_cases h : name ∈ layer.names
  · simp [h]
  · simp [h]

/-- A name has an origin if it is in a layer. -/
theorem isSome_originIn {layers : List Layer} {name : String} :
    (originIn layers name).isSome ↔ ∃ layer ∈ layers, name ∈ layer.names := by
  unfold originIn
  rw [Option.isSome_map, List.find?_isSome]
  simp

/-- **Layered**: globals that know the names of some layers, and no other. -/
def Globals.Layered (g : Globals) (layers : List Layer) : Prop :=
  ∀ name, g.origin? name = originIn layers name

/-- Without a declaration there is no layer. -/
theorem Globals.layered_empty : ({} : Globals).Layered [] := fun _ => rfl

namespace Globals.Layered

variable {g : Globals} {layers : List Layer}

/-- Names that are declared make a layer on top. -/
theorem declareAll (h : g.Layered layers) (names : List String) (origin : Origin) :
    (g.declareAll names origin).Layered (layers ++ [⟨names, origin⟩]) := by
  intro name
  rw [origin?_declareAll, originIn_append, originIn_singleton, h name]
  by_cases hname : name ∈ names
  · simp [hname]
  · simp [hname]

theorem overlay (h : g.Layered layers) (origin : Origin) :
    (g.overlay origin).Layered (layers ++ [origin.layer]) :=
  h.declareAll origin.names origin

theorem declare (h : g.Layered layers) (name : String) (origin : Origin) :
    (g.declare name origin).Layered (layers ++ [⟨[name], origin⟩]) :=
  h.declareAll [name] origin

end Globals.Layered

/-! ### The layers of a configuration -/

/-- The layer of the environment that a flag stands for, if it stands for one. -/
def OptionFlag.layer? (flag : OptionFlag) : Option Layer := flag.environment?.map Origin.layer

namespace Settings

/-- The layers of the environments that are switched on. -/
def environmentLayers (s : Settings) : List Layer :=
  (environmentFlags.filter (s.flag ·)).filterMap OptionFlag.layer?

/-- The layer of the names for browsers, if browsers are switched on. -/
def browserLayers (s : Settings) : List Layer :=
  if s.flag .browser then [⟨s.browserGlobals, .browser⟩] else []

/-- **The layers of a configuration**, the first at the bottom. -/
def layers (s : Settings) : List Layer :=
  [Origin.language.layer] ++ s.environmentLayers ++ [⟨s.languageGlobals, .language⟩] ++
    s.browserLayers ++ [⟨s.userGlobals, .user⟩]

variable (s : Settings)

/-- The environments switched on make their layers. -/
theorem layered_overlayEnvironments {g : Globals} {below : List Layer} (h : g.Layered below) :
    (s.overlayEnvironments g).Layered (below ++ s.environmentLayers) := by
  unfold overlayEnvironments environmentLayers
  induction environmentFlags generalizing g below with
  | nil => simpa using h
  | cons flag flags ih =>
    rw [List.foldl_cons]
    by_cases hon : s.flag flag = true
    · rw [List.filter_cons_of_pos hon, List.filterMap_cons]
      cases henvironment : flag.environment? with
      | none => simpa [OptionFlag.layer?, henvironment] using ih h
      | some origin =>
        simpa [OptionFlag.layer?, henvironment, hon] using ih (h.overlay origin)
    · rw [List.filter_cons_of_neg hon]
      cases henvironment : flag.environment? with
      | none => exact ih h
      | some origin => simpa [hon] using ih h

/-- **The globals of a configuration** are those of its layers. -/
theorem layered_globals : s.globals.Layered s.layers := by
  have hlanguage : (({} : Globals).overlay .language).Layered [Origin.language.layer] :=
    Globals.layered_empty.overlay .language
  have hnamed := (s.layered_overlayEnvironments hlanguage).declareAll s.languageGlobals .language
  unfold globals layers browserLayers
  extract_lets g h
  refine Globals.Layered.declareAll ?_ s.userGlobals .user
  by_cases hbrowser : s.flag .browser = true
  · simp only [h, if_pos hbrowser]
    exact hnamed.declareAll s.browserGlobals .browser
  · simp only [h, if_neg hbrowser, List.append_nil]
    exact hnamed

end Settings

/-! ### The layers of directives -/

/-- **The layer that an entry adds**, if it adds one: a declared global, or the environment of a
flag that is not switched off. -/
def DirectiveItem.layer? (item : DirectiveItem) (directive : Directive) : Option Layer :=
  match directive with
  | .globals => some ⟨[item.key], .user⟩
  | .property => none
  | .options =>
    if item.value = some false then none
    else (OptionFlag.ofName? item.key).bind OptionFlag.layer?

/-- The layers that the active directives of tokens add, one for each entry that adds one. -/
def directiveLayers (tokens : List Token) : List Layer :=
  (activeItems tokens).filterMap fun x => x.2.layer? x.1

namespace Account

variable (source : Source) (settings : Settings) {a : Account} {layers : List Layer}

/-- A flag that is switched on adds its environment. -/
theorem layered_flagSet (h : a.globals.Layered layers) (flag : OptionFlag) (on : Bool) :
    (a.record source settings (.flagSet flag on)).globals.Layered
      (layers ++ (if on then flag.layer? else none).toList) := by
  rw [OptionFlag.layer?]
  cases henvironment : flag.environment? with
  | none =>
    have hglobals : (a.record source settings (.flagSet flag on)).globals = a.globals := by
      simp only [record, henvironment]
    rw [hglobals]
    simpa using h
  | some origin =>
    have hglobals : (a.record source settings (.flagSet flag on)).globals =
        if on then a.globals.overlay origin else a.globals := by
      simp only [record, henvironment]
    rw [hglobals]
    cases on with
    | true => exact h.overlay origin
    | false => simpa using h

/-- **An entry adds its layer.** -/
theorem layered_set (h : a.globals.Layered layers) (x : Directive × DirectiveItem) :
    (a.set source settings x).globals.Layered (layers ++ (x.2.layer? x.1).toList) := by
  obtain ⟨directive, key, value⟩ := x
  have hnone {b : Account} (hb : b.globals = a.globals) :
      b.globals.Layered (layers ++ (none : Option Layer).toList) := by
    rw [hb, Option.toList_none, List.append_nil]
    exact h
  unfold set DirectiveItem.change? DirectiveItem.layer?
  cases directive with
  | globals => exact h.declare key .user
  | property => exact hnone rfl
  | options =>
    dsimp only
    cases OptionFlag.ofName? key with
    | some flag =>
      have hflag := layered_flagSet source settings h flag (value.getD true)
      cases value with
      | none => exact hflag
      | some on => cases on <;> exact hflag
    | none =>
      have hlayer : (if value = some false then none
          else (none : Option OptionFlag).bind OptionFlag.layer?) = none := by
        split <;> rfl
      rw [hlayer]
      cases Rule.ofName? key with
      | none => exact hnone rfl
      | some rule => exact hnone rfl

/-- **Entries add their layers**, one on top of the other. -/
theorem layered_setAll (h : a.globals.Layered layers) (items : List (Directive × DirectiveItem)) :
    (a.setAll source settings items).globals.Layered
      (layers ++ items.filterMap fun x => x.2.layer? x.1) := by
  induction items generalizing a layers with
  | nil =>
    rw [List.filterMap_nil, List.append_nil]
    exact h
  | cons x items ih =>
    have hrest := ih (layered_set source settings h x)
    rw [setAll_cons, List.filterMap_cons]
    cases hlayer : x.2.layer? x.1 with
    | none => simpa [hlayer] using hrest
    | some layer => simpa [hlayer] using hrest

/-- An entry of a directive for properties names one, and no other entry does. -/
theorem properties_set (x : Directive × DirectiveItem) :
    (a.set source settings x).properties =
      if x.1 = .property then x.2.key :: a.properties else a.properties := by
  obtain ⟨directive, key, value⟩ := x
  unfold set DirectiveItem.change?
  cases directive with
  | globals => rfl
  | property => rfl
  | options =>
    dsimp only
    cases OptionFlag.ofName? key with
    | some flag => rfl
    | none => cases Rule.ofName? key <;> rfl

/-- **Entries name their properties.** -/
theorem mem_properties_setAll {name : String} (items : List (Directive × DirectiveItem)) :
    name ∈ (a.setAll source settings items).properties ↔
      name ∈ a.properties ∨ ∃ item, (.property, item) ∈ items ∧ item.key = name := by
  induction items generalizing a with
  | nil => simp [setAll]
  | cons x items ih =>
    obtain ⟨directive, item⟩ := x
    rw [setAll_cons, ih, properties_set]
    by_cases hproperty : directive = .property
    · subst hproperty
      rw [if_pos rfl, List.mem_cons]
      constructor
      · rintro ((rfl | hold) | ⟨other, hmem, rfl⟩)
        · exact .inr ⟨item, List.mem_cons_self, rfl⟩
        · exact .inl hold
        · exact .inr ⟨other, List.mem_cons_of_mem _ hmem, rfl⟩
      · rintro (hold | ⟨other, hmem, rfl⟩)
        · exact .inl (.inr hold)
        · rcases List.mem_cons.mp hmem with heq | hmem
          · obtain rfl := (Prod.mk.inj heq).2
            exact .inl (.inl rfl)
          · exact .inr ⟨other, hmem, rfl⟩
    · simp [hproperty, Ne.symm hproperty]

end Account

/-! ### The window -/

section

variable (settings : Settings) (text : String)

/-- **The properties of a pass** are those that the active directives name. -/
theorem mem_properties_iff {name : String} :
    name ∈ (Pass.run settings text).properties ↔
      ∃ item, (.property, item) ∈ activeItems (Pass.run settings text).tokens ∧
        item.key = name := by
  have hproperties := congrArg Account.properties (Account.settled_ofScan settings text)
  show name ∈ List.mergeSort (List.eraseDups (Account.settled _).properties) _ ↔ _
  rw [List.mem_mergeSort, List.mem_eraseDups, hproperties, Account.mem_properties_setAll]
  simp

/-- **The globals of a pass** are those of the layers of its configuration and, above these, of its
active directives. -/
theorem layered_run :
    (Pass.run settings text).globals.Layered
      (settings.layers ++ directiveLayers (Pass.run settings text).tokens) := by
  have hglobals := congrArg Account.globals (Account.settled_ofScan settings text)
  show (Account.settled _).globals.Layered _
  rw [hglobals]
  exact Account.layered_setAll _ _ settings.layered_globals _

variable {settings text} {s u : State}

/-- **Behind a token that is no comment** nothing is set any more. -/
theorem settled_of_tokens (hs : s.Heeds) (hu : u.Heeds) (hkept : s.tokens <:+ u.tokens)
    (hother : ∃ t ∈ s.tokens, t.kind ≠ .comment) :
    (Account.upTo (.ofString text) settings u).settled =
      (Account.upTo (.ofString text) settings s).settled := by
  obtain ⟨newer, hnewer⟩ := hkept
  obtain ⟨t, ht, hkind⟩ := hother
  rw [Account.settled_upTo _ _ hs, Account.settled_upTo _ _ hu, ← hnewer, List.reverse_append,
    activeItems_append ⟨t, List.mem_reverse.mpr ht, hkind⟩]

end

/-- **Acting in a window**: what the directives of a text do to a pass, and what they do not. -/
structure ActsInWindow (settings : Settings) (text : String) : Prop where
  /-- The properties are those that the active directives name. -/
  properties : ∀ name, name ∈ (Pass.run settings text).properties ↔
    ∃ item, (.property, item) ∈ activeItems (Pass.run settings text).tokens ∧ item.key = name
  /-- A global has the origin of the last layer with its name, those of the active directives
  coming after those of the configuration; a name that is in none is no global. -/
  globals : ∀ name, (Pass.run settings text).globals.origin? name =
    originIn (settings.layers ++ directiveLayers (Pass.run settings text).tokens) name
  /-- Once a token is read that is no comment, what is set stays as it is, whatever the scan
  reaches, and up to its end. -/
  closed : ∀ s, State.Reaches (.initial (Source.ofString text).lines.toList) s →
    (∃ t ∈ s.tokens, t.kind ≠ .comment) →
    (∀ u, State.Reaches s u → (Account.upTo (.ofString text) settings u).settled =
      (Account.upTo (.ofString text) settings s).settled) ∧
    (Account.atEnd settings text).settled = (Account.upTo (.ofString text) settings s).settled

/-- **Directives act in their window, and the last layer wins.**  Under any settings, what a pass
knows of properties and globals comes from its configuration and from the directives that only
comments stand before; the others set nothing. -/
theorem directives_act_in_window (settings : Settings) (text : String) :
    ActsInWindow settings text where
  properties := fun _ => mem_properties_iff settings text
  globals := layered_run settings text
  closed := by
    intro s hreach hother
    have hs := State.heeds_of_reaches hreach (State.heeds_initial _)
    refine ⟨fun u hu => ?_, ?_⟩
    · exact settled_of_tokens hs (State.heeds_of_reaches hu hs) (State.tokens_of_reaches hu) hother
    · rw [Account.atEnd_eq_upTo, State.run_of_reaches hreach]
      exact settled_of_tokens hs (State.run_keeps (fun _ => State.heeds_step) hs) s.tokens_run
        hother

-- Browsers know `fetch`, and the later directive wins.
example : (Pass.run {} "/*jslint browser*/ /*global fetch*/").globals.origin? "fetch" =
    some .user := by
  decide +kernel

end ScriptLint
