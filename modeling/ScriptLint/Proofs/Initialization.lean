import ScriptLint.CommandLine.Run
import ScriptLint.Proofs.Defaults

/-!
# Initialization

A run may write the configuration that a project starts from. It makes a new file, so whatever
stands in the place of the configuration is in the way; if it may be replaced it is removed and the
file is tried again. A directory is not removed, and a link goes itself, so what it leads to stays.

What is written sets only what holds anyway: rules that are off by default are off, flags are not
set, and the length limit is the default. So under it every pass is the same as without any
configuration.

## Main definitions

* `Tree.Resolved` — a place without links at it or above it
* `Settings.Restates` — settings that set what holds anyway
* `writtenDocument` — what the written configuration says
* `Initializes` — what a run that writes a configuration comes to

## Main statements

* `Tree.write_fails_iff`, `Tree.file_of_write`, `Tree.others_of_write` — writing a new file
* `Pass.run_of_restates` — restating changes no pass
* `initializes_run` — a run writes a configuration safely, and to no effect
-/

namespace ScriptLint

/-! ### Writing a new file -/

namespace Tree

variable {t u : Tree} {components : List OsString} {name : OsString} {content : ByteArray}
  {replace : Bool}

/-- Nothing but what is removed is missing. -/
theorem entry?_erase_of_ne (hne : components ≠ [name]) :
    Tree.entry? (t.erase [name]) components = t.entry? components := by
  have hother : (components == [name]) = false := beq_eq_false_iff_ne.mpr hne
  unfold entry? erase
  congr 1
  induction t.entries with
  | nil => rfl
  | cons entry entries ih =>
    obtain ⟨there, entry⟩ := entry
    by_cases hname : there = [name]
    · rw [List.filter_cons_of_neg (by simp [hname]), ih, List.lookup_cons, hname, hother]
    · rw [List.filter_cons_of_pos (by simp [hname]), List.lookup_cons, List.lookup_cons, ih]

/-- What is put somewhere stands there. -/
theorem entry?_put_self (entry : Entry) : Tree.entry? (t.put [name] entry) [name] = some entry := by
  unfold put Tree.entry?
  rw [if_neg (List.cons_ne_nil _ _), List.lookup_cons_self]

/-- Nothing else is changed. -/
theorem entry?_put_of_ne (hne : components ≠ [name]) (entry : Entry) :
    Tree.entry? (t.put [name] entry) components = t.entry? components := by
  have hother : (components == [name]) = false := beq_eq_false_iff_ne.mpr hne
  rw [← entry?_erase_of_ne (t := t) hne]
  unfold entry? put
  rw [List.lookup_cons, hother]

/-- A file is made where nothing stands, and nothing else is changed. -/
theorem of_create (h : t.create name content = .ok u) :
    t.entry? [name] = none ∧ u = t.put [name] (.file content) := by
  unfold create at h
  split at h
  · next hnone => exact ⟨hnone, (Except.ok.inj h).symm⟩
  · cases h

/-- **Nothing else is changed** by writing a new file. -/
theorem others_of_write (h : t.write name content replace = .ok u) (hne : components ≠ [name]) :
    u.entry? components = t.entry? components := by
  fun_induction write t name content replace with
  | case1 t v hcreate =>
    obtain rfl := Except.ok.inj h
    obtain ⟨-, rfl⟩ := of_create hcreate
    exact entry?_put_of_ne hne _
  | case2 t hcreate hreplace v hremove ih =>
    obtain ⟨-, rfl⟩ := entry?_of_remove hremove
    exact (ih h).trans (entry?_erase_of_ne hne)
  | case3 t hcreate hreplace hremove ih => exact ih h
  | case4 => cases h
  | case5 => cases h
  | case6 => cases h

/-- **A file stands** where it has been written. -/
theorem file_of_write (h : t.write name content replace = .ok u) :
    u.entry? [name] = some (.file content) := by
  fun_induction write t name content replace with
  | case1 t v hcreate =>
    obtain rfl := Except.ok.inj h
    obtain ⟨-, rfl⟩ := of_create hcreate
    exact entry?_put_self _
  | case2 t hcreate hreplace v hremove ih => exact ih h
  | case3 t hcreate hreplace hremove ih => exact ih h
  | case4 => cases h
  | case5 => cases h
  | case6 => cases h

/-- A directory is not removed. -/
theorem ne_directory_of_remove (h : t.remove name = .ok u) :
    t.entry? [name] ≠ some .directory := by
  intro hdirectory
  unfold remove at h
  rw [hdirectory] at h
  cases h

/-- Nothing but a directory is in the way of a removal. -/
theorem directory_of_remove {refusal : Refusal} (h : t.remove name = .error refusal)
    (hfound : refusal ≠ .notFound) : t.entry? [name] = some .directory := by
  unfold remove at h
  split at h
  · exact absurd (Except.error.inj h).symm hfound
  · assumption
  · cases h

/-- **When writing fails**: something stands there, and it may not be replaced or is a directory. -/
theorem write_fails_iff :
    (∃ refusal, t.write name content replace = .error refusal) ↔
      (t.entry? [name]).isSome = true ∧
        (replace = false ∨ t.entry? [name] = some .directory) := by
  fun_induction write t name content replace with
  | case1 t v hcreate =>
    obtain ⟨hnone, -⟩ := of_create hcreate
    simp [hnone]
  | case2 t hcreate hreplace v hremove ih =>
    -- It is tried again where nothing stands any more.
    have hfile : t.entry? [name] ≠ some .directory := ne_directory_of_remove hremove
    obtain ⟨-, rfl⟩ := entry?_of_remove hremove
    rw [ih, entry?_erase_self]
    simp [hreplace, hfile]
  | case3 t hcreate hreplace hremove ih => exact ih
  | case4 t hcreate hreplace refusal hfound hremove =>
    have hdirectory := directory_of_remove hremove hfound
    simp [hdirectory]
  | case5 t hcreate hreplace =>
    simp [isSome_of_create hcreate, hreplace]
  | case6 t refusal hother hcreate =>
    unfold create at hcreate
    split at hcreate
    · cases hcreate
    · exact absurd (Except.error.inj hcreate).symm hother

end Tree

/-! ### Where links lead -/

namespace Tree

variable {t : Tree} {place there : Place} {links : Nat} {parts : List OsString}

/-- **Resolved**: no link stands at a place or above it. -/
def Resolved (t : Tree) : Place → Prop
  | .inside components => ∀ above, above <+: components → ∀ target,
      t.entry? above ≠ some (.link target)
  | .outside => True

/-- The working directory is no link. -/
theorem resolved_root : t.Resolved (.inside []) := by
  intro above habove target
  obtain rfl := List.prefix_nil.mp habove
  exact fun h => nomatch h

theorem resolved_origin (path : OsString) (h : t.Resolved place) :
    t.Resolved (origin path place) := by
  unfold origin
  split
  · trivial
  · exact h

theorem resolved_up (h : t.Resolved place) : t.Resolved place.up := by
  cases place with
  | outside => trivial
  | inside components =>
    cases components with
    | nil => trivial
    | cons first rest =>
      intro above habove
      exact h above (habove.trans (List.dropLast_prefix _))

/-- What stands in a place that is resolved is resolved, if it is no link. -/
theorem resolved_concat {components : List OsString} {part : OsString}
    (h : t.Resolved (.inside components))
    (hpart : ∀ target, t.entry? (components ++ [part]) ≠ some (.link target)) :
    t.Resolved (.inside (components ++ [part])) := by
  intro above habove
  rcases List.prefix_concat_iff.mp habove with rfl | habove
  · exact hpart
  · exact h above habove

/-- **Where a path leads is resolved.** -/
theorem resolved_follow (h : t.Resolved place) (hfollow : t.follow links place parts = .ok there) :
    t.Resolved there := by
  fun_induction follow t links place parts with
  | case1 links place => exact Except.ok.inj hfollow ▸ h
  | case3 links place part rest hdirectory hidle ih => exact ih h hfollow
  | case4 links place rest hdirectory hidle ih => exact ih (resolved_up h) hfollow
  | case9 part rest hidle hup hlength components target links hlink hdirectory ih =>
    exact ih (resolved_origin target h) hfollow
  | case10 part rest hidle hup hlength components entry links hzero hsucc hentry hdirectory ih =>
    refine ih (resolved_concat h fun target hlink => ?_) hfollow
    obtain rfl := Option.some.inj (hentry.symm.trans hlink)
    cases links with
    | zero => exact hzero target rfl rfl
    | succ links => exact hsucc target links rfl rfl
  | case2 | case5 | case6 | case7 | case8 => cases hfollow

/-- A path leads past a link, and not to it. -/
theorem ne_of_follow {components : List OsString} {target : OsString}
    (hlink : t.entry? components = some (.link target)) (h : t.Resolved place)
    (hfollow : t.follow links place parts = .ok there) : there ≠ .inside components := by
  rintro rfl
  exact resolved_follow h hfollow components List.prefix_rfl target hlink

/-- The file of a configuration is read by its name. -/
theorem read_writtenName {content : ByteArray}
    (h : t.entry? [writtenName] = some (.file content)) :
    t.find.read writtenName = .ok content := by
  have hparts : Path.parts writtenName = [writtenName] := by decide +kernel
  have hhere : origin writtenName (.inside []) = .inside [] := by decide +kernel
  have hreach : t.reach writtenName = .ok (.inside [writtenName]) := by
    have hroot : (!t.isDirectory (.inside [])) = false := rfl
    have hentry : t.entry? ([] ++ [writtenName]) = some (.file content) := h
    unfold reach
    rw [if_neg (by decide +kernel), if_neg (by decide +kernel), if_neg (by decide +kernel), hparts,
      hhere]
    unfold follow
    rw [if_neg (by simp [hroot]), if_neg (by decide +kernel), if_neg (by decide +kernel),
      if_neg (by decide +kernel)]
    simp only [hentry]
    rw [follow]
    rfl
  simp only [find, hreach, entryAt?, h]

end Tree

/-! ### Settings that restate others -/

/-- No rule that may stop a scan is off by default. -/
theorem Rule.Fatal.defaultLevel_ne {rule : Rule} (h : rule.Fatal) : rule.defaultLevel ≠ .off := by
  revert h
  cases rule <;> decide

/-- **Restating**: settings that set what holds anyway under others. A rule may be set to its
default level, but for the one whose findings do not all report at it. -/
structure Settings.Restates (c d : Settings) : Prop where
  level? : ∀ rule, c.level? rule = d.level? rule ∨
    c.level? rule = some rule.defaultLevel ∧ d.level? rule = none ∧ rule ≠ .unexpectedA
  flag : ∀ flag, c.flag flag = d.flag flag
  maxLineLength : c.maxLineLength = d.maxLineLength
  languageGlobals : c.languageGlobals = d.languageGlobals
  browserGlobals : c.browserGlobals = d.browserGlobals
  userGlobals : c.userGlobals = d.userGlobals

namespace Settings.Restates

variable {c d : Settings}

theorem refl (c : Settings) : c.Restates c where
  level? _ := .inl rfl
  flag _ := rfl
  maxLineLength := rfl
  languageGlobals := rfl
  browserGlobals := rfl
  userGlobals := rfl

/-- To set an unset rule to its default level. -/
theorem setLevel (h : c.Restates d) (rule : Rule) (hunset : d.level? rule = none)
    (hne : rule ≠ .unexpectedA) : (c.setLevel rule rule.defaultLevel).Restates d where
  level? other := by
    by_cases hother : other = rule
    · subst hother
      exact .inr ⟨if_pos rfl, hunset, hne⟩
    · rw [show (c.setLevel rule rule.defaultLevel).level? other = c.level? other from
        if_neg hother]
      exact h.level? other
  flag := h.flag
  maxLineLength := h.maxLineLength
  languageGlobals := h.languageGlobals
  browserGlobals := h.browserGlobals
  userGlobals := h.userGlobals

/-- To set a flag to the value it has. -/
theorem setFlag (h : c.Restates d) (flag : OptionFlag) :
    (c.setFlag flag (d.flag flag)).Restates d where
  level? := h.level?
  flag other := by
    by_cases hother : other = flag
    · subst hother
      simp [Settings.setFlag, Settings.flag]
    · refine Eq.trans ?_ (h.flag other)
      simp [Settings.setFlag, Settings.flag, hother]
  maxLineLength := h.maxLineLength
  languageGlobals := h.languageGlobals
  browserGlobals := h.browserGlobals
  userGlobals := h.userGlobals

/-- The same globals are known before a source is read. -/
theorem globals (h : c.Restates d) : c.globals = d.globals := by
  unfold Settings.globals overlayEnvironments
  simp only [h.flag, h.languageGlobals, h.browserGlobals, h.userGlobals]

variable {source : Source} {a : Account}

/-- A rule has the same level, if what is asked for is its default or it is not restated. -/
theorem level (h : c.Restates d) {rule : Rule} {unset : Level}
    (hunset : unset = rule.defaultLevel ∨ rule = .unexpectedA) :
    a.level c rule unset = a.level d rule unset := by
  unfold Account.level
  rcases h.level? rule with hsame | ⟨hset, hnone, hne⟩
  · rw [hsame]
  · rw [hset, hnone, hunset.resolve_right hne]
    cases a.level? rule with
    | none => rfl
    | some level => rfl

theorem report (h : c.Restates d) {finding : Finding} (hregular : finding.Regular) :
    a.report source c finding = a.report source d finding := by
  unfold Account.report
  rw [h.level (hregular.2.imp_right And.left)]

/-- **Every event is noted the same.** -/
theorem record (h : c.Restates d) {event : Event}
    (hregular : ∀ finding, event = .found finding → finding.Regular) :
    a.record source c event = a.record source d event := by
  cases event with
  | found finding => exact h.report (hregular finding rfl)
  | lineLeft line =>
    simp only [Account.record, Account.report]
    rw [h.maxLineLength, h.level (.inl rfl)]
  | todo line column =>
    have hdevel : a.flag c .devel = a.flag d .devel := congrArg _ (h.flag .devel)
    simp only [Account.record, Account.report]
    rw [hdevel, h.level (.inl rfl)]
  | levelSet _ _ | flagSet _ _ | globalDeclared _ | propertyNamed _ => rfl

/-- A fault is reported the same. -/
theorem reportFault (h : c.Restates d) {fault : Finding} (hfatal : fault.rule.Fatal) :
    a.reportFault source c fault = a.reportFault source d fault := by
  have hon : fault.rule.defaultLevel ≠ .off := hfatal.defaultLevel_ne
  have hoff : a.level c fault.rule .error = .off ↔ a.level d fault.rule .error = .off := by
    unfold Account.level
    rcases h.level? fault.rule with hsame | ⟨hset, hnone, -⟩
    · rw [hsame]
    · rw [hset, hnone]
      cases a.level? fault.rule with
      | none => exact iff_of_false hon (by decide)
      | some level => rfl
  unfold Account.reportFault
  simp only [hoff]

/-- The whole account of a scan is the same. -/
theorem ofScan (h : c.Restates d) (text : String) :
    Account.ofScan (.ofString text) c (scan (.ofString text)) =
      Account.ofScan (.ofString text) d (scan (.ofString text)) := by
  have hrecord : ∀ (a : Account), a.recordAll (.ofString text) c (scan (.ofString text)).events =
      a.recordAll (.ofString text) d (scan (.ofString text)).events := by
    intro a
    refine List.foldl_ext _ _ _ fun a event hevent => h.record ?_
    rintro finding rfl
    exact regular_of_found text hevent
  unfold Account.ofScan
  simp only [h.globals, hrecord]
  cases hfault : (scan (.ofString text)).fault with
  | none => rfl
  | some fault => exact h.reportFault (State.fatal_of_run hfault)

end Settings.Restates

/-- **Restating changes no pass.** -/
theorem Pass.run_of_restates {c d : Settings} (h : c.Restates d) (text : String) :
    Pass.run c text = Pass.run d text := by
  simp only [Pass.run, Pass.ofSource, h.ofScan text]

/-! ### The configuration written -/

/-- What the written configuration says. -/
def writtenDocument : Document where
  options :=
    [("max_line_length", .number defaultMaxLineLength), ("no_long_lines", .level .off),
      ("no_tabs", .level .off), ("browser", .flag false), ("node", .flag false)]

/-- The written configuration is read as this. -/
theorem ofText_writtenText : Document.ofText writtenText = .ok writtenDocument := by
  decide +kernel

/-- It restates the settings of no configuration. -/
theorem restates_writtenDocument : writtenDocument.resolve.Restates {} := by
  have hlevels : ((({} : Settings).setLevel .noLongLines .off).setLevel .noTabs .off).Restates {} :=
    ((Settings.Restates.refl {}).setLevel .noLongLines rfl (by decide)).setLevel .noTabs rfl
      (by decide)
  exact (hlevels.setFlag .browser).setFlag .node

/-! ### Runs that write a configuration -/

/-- **Initialization**: what a run that writes a configuration comes to in a working directory,
where what stands in the place of it may be replaced or not. -/
structure Initializes (t : Tree) (args : List OsString) (force : Bool) : Prop where
  /-- It fails if something stands there that may not be replaced, or a directory. -/
  fails_iff : (t.run args).1 = .failure ↔
    (t.entry? [writtenName]).isSome = true ∧
      (force = false ∨ t.entry? [writtenName] = some .directory)
  /-- If it fails it changes nothing. -/
  unchanged : (t.run args).1 = .failure → (t.run args).2 = t
  /-- Else a regular file stands there, with the configuration. -/
  written : (t.run args).1 ≠ .failure →
    (t.run args).1 = { exitCode := 0 } ∧
      Tree.entry? (t.run args).2 [writtenName] = some (.file writtenText.toUTF8)
  /-- The configuration is read back. -/
  readBack : (t.run args).1 ≠ .failure →
    Document.ofFile (Tree.find (t.run args).2) writtenName = .ok writtenDocument
  /-- Nothing else is changed: what stands elsewhere stays, and where nothing stands nothing
  appears. -/
  others : ∀ components, components ≠ [writtenName] →
    Tree.entry? (t.run args).2 components = t.entry? components
  /-- What a link led to that stood there stays. -/
  target : ∀ target there, t.entry? [writtenName] = some (.link target) →
    t.follow Tree.maxLinks (Tree.origin target (.inside [])) (Path.parts target) = .ok there →
    Tree.entryAt? (t.run args).2 there = t.entryAt? there
  /-- Under the configuration every pass is as without any. -/
  neutral : ∀ text, Pass.run writtenDocument.resolve text = Pass.run {} text

/-- A run that is to write a configuration writes it, and fails if it may not. -/
theorem run_init (t : Tree) {args : List OsString} {i : Invocation} {force : Bool}
    (hparse : Invocation.parse args = .ok i) (hinit : i.command = .init force) :
    (∃ refusal, t.write writtenName writtenText.toUTF8 force = .error refusal ∧
      t.run args = (.failure, t)) ∨
    ∃ u, t.write writtenName writtenText.toUTF8 force = .ok u ∧
      t.run args = ({ exitCode := 0 }, u) := by
  have hrun : t.run args = t.perform (.write writtenName writtenText force) := by
    unfold Tree.run ScriptLint.run
    simp only [hparse, Invocation.run, hinit]
  rw [hrun]
  simp only [Tree.perform]
  cases hwrite : t.write writtenName writtenText.toUTF8 force with
  | error refusal => exact .inl ⟨refusal, rfl, rfl⟩
  | ok u => exact .inr ⟨u, rfl, rfl⟩

/-- **Initialization is safe and neutral.** A run that writes a configuration fails, changing
nothing, exactly if something is in its way that may not be replaced; else it leaves a file with
the configuration and changes nothing else. Under that configuration every pass is the same as
without any. -/
theorem initializes_run (t : Tree) {args : List OsString} {i : Invocation} {force : Bool}
    (hparse : Invocation.parse args = .ok i) (hinit : i.command = .init force) :
    Initializes t args force := by
  have hneutral : ∀ text, Pass.run writtenDocument.resolve text = Pass.run {} text :=
    Pass.run_of_restates restates_writtenDocument
  rcases run_init t hparse hinit with ⟨refusal, hwrite, hrun⟩ | ⟨u, hwrite, hrun⟩
  case inl =>
    have hfailure : (t.run args).1 = .failure := by rw [hrun]
    have hsame : (t.run args).2 = t := by rw [hrun]
    exact
      { fails_iff := iff_of_true hfailure (Tree.write_fails_iff.mp ⟨refusal, hwrite⟩)
        unchanged := fun _ => hsame
        written := fun h => absurd hfailure h
        readBack := fun h => absurd hfailure h
        others := fun _ _ => by rw [hsame]
        target := fun _ _ _ _ => by rw [hsame]
        neutral := hneutral }
  case inr =>
    have hsuccess : (t.run args).1 ≠ .failure := by
      rw [hrun]
      exact show ({ exitCode := 0 } : Outcome) ≠ .failure by decide
    have hu : (t.run args).2 = u := by rw [hrun]
    have hfile := Tree.file_of_write hwrite
    have hwritten : ¬ ∃ refusal,
        t.write writtenName writtenText.toUTF8 force = .error refusal := by
      rintro ⟨refusal, herror⟩
      cases hwrite.symm.trans herror
    have hothers : ∀ components, components ≠ [writtenName] →
        u.entry? components = t.entry? components :=
      fun _ hne => Tree.others_of_write hwrite hne
    refine
      { fails_iff := iff_of_false hsuccess fun h => hwritten (Tree.write_fails_iff.mpr h)
        unchanged := fun h => absurd h hsuccess
        written := fun _ => ⟨by rw [hrun], hu ▸ hfile⟩
        readBack := fun _ => ?readBack
        others := fun _ hne => hu ▸ hothers _ hne
        target := ?target
        neutral := hneutral }
    case readBack =>
      unfold Document.ofFile
      rw [hu, Lookup.readText_eq_ok_iff.mpr (Tree.read_writtenName hfile)]
      exact ofText_writtenText
    case target =>
      intro target there hlink hfollow
      rw [hu]
      cases there with
      | outside => rfl
      | inside components =>
        refine hothers components ?_
        rintro rfl
        exact Tree.ne_of_follow hlink (Tree.resolved_origin target Tree.resolved_root) hfollow rfl

/-- Forced, a run replaces a link that leads nowhere by the configuration, and nothing appears where
the link led. -/
theorem initializes_dangling :
    let t : Tree := ⟨[([writtenName], .link "nowhere")]⟩
    Initializes t ["init", "--force"] true ∧ (t.run ["init", "--force"]).1 ≠ .failure ∧
      Tree.entry? (t.run ["init", "--force"]).2 ["nowhere"] = none := by
  intro t
  have h : Initializes t ["init", "--force"] true :=
    initializes_run t (i := ⟨.init true, none⟩) (by decide +kernel) rfl
  refine ⟨h, fun hfailure => ?_, h.others ["nowhere"] (by decide)⟩
  obtain ⟨-, hforce | hdirectory⟩ := h.fails_iff.mp hfailure
  · cases hforce
  · cases hdirectory

end ScriptLint
