import ScriptLint.Proofs.Layers

/-!
# Environments, named or configured

An environment flag can be switched on by the configuration or by a directive.  Either way the
built-in names of its environment make a layer, so the two ways know the same names, with one
difference: the configuration may bring further names for browsers, and these are declared
where the configuration switches browsers on, not where a directive does.

## Main statements

* `mem_layers_setFlag` — the layers that a flag adds to those of a configuration
* `layer_mem_directiveLayers` — the layer that a directive for a flag adds
* `known_setFlag_iff` — what the configuration knows beyond the directive
-/

namespace ScriptLint

/-! ### Flags in a configuration -/

namespace Settings

variable (s : Settings) {flag : OptionFlag} {layer : Layer}

theorem flag_setFlag (flag other : OptionFlag) :
    (s.setFlag flag true).flag other = (decide (other = flag) || s.flag other) := by
  unfold setFlag Settings.flag
  by_cases h : other = flag
  · simp [h]
  · simp [h]

/-- The environments are those of the flags that are switched on. -/
theorem mem_environmentLayers :
    layer ∈ s.environmentLayers ↔
      ∃ flag ∈ environmentFlags, s.flag flag = true ∧ flag.layer? = some layer := by
  unfold environmentLayers
  simp only [List.mem_filterMap, List.mem_filter]
  constructor
  · rintro ⟨flag, ⟨hmem, hon⟩, hlayer⟩
    exact ⟨flag, hmem, hon, hlayer⟩
  · rintro ⟨flag, hmem, hon, hlayer⟩
    exact ⟨flag, ⟨hmem, hon⟩, hlayer⟩

/-- A flag that is switched on adds the layer of its environment. -/
theorem mem_environmentLayers_setFlag (hflag : flag ∈ environmentFlags) :
    layer ∈ (s.setFlag flag true).environmentLayers ↔
      layer ∈ s.environmentLayers ∨ flag.layer? = some layer := by
  rw [mem_environmentLayers, mem_environmentLayers]
  constructor
  · rintro ⟨other, hmem, hon, hlayer⟩
    rw [flag_setFlag, Bool.or_eq_true, decide_eq_true_eq] at hon
    rcases hon with rfl | hon
    · exact .inr hlayer
    · exact .inl ⟨other, hmem, hon, hlayer⟩
  · rintro (⟨other, hmem, hon, hlayer⟩ | hlayer)
    · exact ⟨other, hmem, by simp [flag_setFlag, hon], hlayer⟩
    · exact ⟨flag, hflag, by simp [flag_setFlag], hlayer⟩

/-- Browsers that are switched on add the configured names for browsers. -/
theorem mem_browserLayers_setFlag :
    layer ∈ (s.setFlag flag true).browserLayers ↔
      layer ∈ s.browserLayers ∨ flag = .browser ∧ layer = ⟨s.browserGlobals, .browser⟩ := by
  have hnames : (s.setFlag flag true).browserGlobals = s.browserGlobals := rfl
  unfold browserLayers
  rw [flag_setFlag, hnames]
  by_cases hflag : flag = .browser
  · by_cases hon : s.flag .browser = true
    · simp [hflag, hon]
    · simp [hflag, hon]
  · simp [hflag, Ne.symm hflag]

/-- **What a flag adds** to the layers of a configuration: its environment, and for browsers the
configured names. -/
theorem mem_layers_setFlag (hflag : flag ∈ environmentFlags) :
    layer ∈ (s.setFlag flag true).layers ↔
      layer ∈ s.layers ∨ flag.layer? = some layer ∨
        flag = .browser ∧ layer = ⟨s.browserGlobals, .browser⟩ := by
  have hlanguage : (s.setFlag flag true).languageGlobals = s.languageGlobals := rfl
  have huser : (s.setFlag flag true).userGlobals = s.userGlobals := rfl
  unfold layers
  simp only [List.mem_append, s.mem_environmentLayers_setFlag hflag, s.mem_browserLayers_setFlag,
    hlanguage, huser]
  tauto

end Settings

/-! ### Flags in a directive -/

/-- **What a directive for a flag adds**: its environment. -/
theorem layer_mem_directiveLayers {tokens : List Token} {flag : OptionFlag} {layer : Layer}
    (hfirst : ∃ t ∈ tokens.head?, t.IsEntry .options ⟨flag.key, none⟩)
    (hlayer : flag.layer? = some layer) : layer ∈ directiveLayers tokens := by
  obtain ⟨t, ht, hentry⟩ := hfirst
  obtain ⟨rest, rfl⟩ := List.head?_eq_some_iff.mp ht
  refine List.mem_filterMap.mpr ⟨(.options, ⟨flag.key, none⟩), ?_, ?_⟩
  · rw [activeItems_cons_of_isEntry hentry flag.isIdentifier_key]
    exact List.mem_cons_self
  · simp [DirectiveItem.layer?, OptionFlag.ofName?_key, hlayer]

/-! ### The two ways -/

/-- **What the configuration knows beyond the directive.**  Under a directive for an environment a
configuration that switches it on as well knows the same names, and for browsers the names that
it brings for them. -/
theorem known_setFlag_iff (settings : Settings) {text : String} {flag : OptionFlag}
    (hflag : flag ∈ environmentFlags)
    (hfirst : ∃ t ∈ (Pass.run settings text).tokens.head?, t.IsEntry .options ⟨flag.key, none⟩)
    (name : String) :
    ((Pass.run (settings.setFlag flag true) text).globals.origin? name).isSome ↔
      ((Pass.run settings text).globals.origin? name).isSome ∨
        flag = .browser ∧ name ∈ settings.browserGlobals := by
  have htokens : (Pass.run (settings.setFlag flag true) text).tokens =
      (Pass.run settings text).tokens := rfl
  rw [layered_run, layered_run, isSome_originIn, isSome_originIn, htokens]
  simp only [List.mem_append, settings.mem_layers_setFlag hflag]
  constructor
  · rintro ⟨layer, ((hlayer | hlayer | ⟨hbrowser, rfl⟩) | hlayer), hname⟩
    · exact .inl ⟨layer, .inl hlayer, hname⟩
    · exact .inl ⟨layer, .inr (layer_mem_directiveLayers hfirst hlayer), hname⟩
    · exact .inr ⟨hbrowser, hname⟩
    · exact .inl ⟨layer, .inr hlayer, hname⟩
  · rintro (⟨layer, hlayer | hlayer, hname⟩ | ⟨hbrowser, hname⟩)
    · exact ⟨layer, .inl (.inl hlayer), hname⟩
    · exact ⟨layer, .inr hlayer, hname⟩
    · exact ⟨_, .inl (.inr (.inr ⟨hbrowser, rfl⟩)), hname⟩

/-- A name for browsers is known where the configuration switches browsers on, and not where a
directive alone does. -/
theorem browserGlobal_beyond_directive :
    ((Pass.run (({ browserGlobals := ["$"] } : Settings).setFlag .browser true)
        "/*jslint browser*/").globals.origin? "$").isSome ∧
      ((Pass.run { browserGlobals := ["$"] } "/*jslint browser*/").globals.origin? "$") = none :=
  ⟨(known_setFlag_iff { browserGlobals := ["$"] } (by decide) (by decide +kernel) "$").mpr
      (.inr ⟨rfl, by decide⟩), by decide +kernel⟩

end ScriptLint
