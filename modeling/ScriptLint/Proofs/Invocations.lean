import Mathlib.Data.List.Basic
import ScriptLint.CommandLine.Arguments

/-!
# Invocations that can be given

An invocation that lints can be given as arguments exactly if it names some paths, none of them
empty, and its configuration, if it names one, has a path that is not empty.  Any bytes will do for
a path: behind the end of the options everything is one.

## Main definitions

* `Arguments.spelled` — an invocation that lints, as arguments
* `Arguments.Progress.Filled` — nothing empty has been read

## Main statements

* `Arguments.parse_spelled` — what is spelled is read
* `Arguments.exists_parse_iff` — which invocations can be given
-/

namespace ScriptLint

/-- The name of a form. -/
def Format.name : Format → String
  | text => "text"
  | json => "json"
  | report => "report"

namespace Arguments

/-! ### Spelling an invocation -/

/-- The arguments that ask for files to be linted in a form, and end the options. -/
def asked (format : Format) : List OsString := ["lint", "--format", format.name, "--"]

/-- **Arguments that ask for files to be linted**, the paths behind the end of the options. -/
def spelled (paths : List OsString) (format : Format) : Option OsString → List OsString
  | none => asked format ++ paths
  | some path => (("--config=" : OsString) ++ path) :: (asked format ++ paths)

/-- Naming a configuration. -/
theorem read_config {path : OsString} (hpath : path ≠ "") :
    read {} (("--config=" : OsString) ++ path) = .ok { config := some path } := by
  generalize harg : ("--config=" : OsString) ++ path = arg
  have hbytes : arg.bytes = [0x2D, 0x2D, 0x63, 0x6F, 0x6E, 0x66, 0x69, 0x67, 0x3D] ++ path.bytes :=
    harg ▸ rfl
  have hlong {other : OsString} (hshort : other.bytes.length < 9) : arg ≠ other := by
    rintro rfl
    rw [hbytes, List.length_append] at hshort
    exact absurd hshort (Nat.not_lt.mpr (Nat.le_add_right 9 _))
  have hisOption : isOption arg = true := by
    rw [isOption, hbytes, Bool.and_eq_true, bne_iff_ne]
    exact ⟨rfl, hlong (by decide)⟩
  have hended : arg ≠ "--" := hlong (by decide)
  have hafter : arg.after? "--" =
      some ⟨[0x63, 0x6F, 0x6E, 0x66, 0x69, 0x67, 0x3D] ++ path.bytes⟩ := by
    rw [OsString.after?, hbytes]
    rfl
  have hname : (OsString.mk [0x63, 0x6F, 0x6E, 0x66, 0x69, 0x67]) = "config" := rfl
  have hsign : '='.toUInt8 = 0x3D := rfl
  simp [read, hisOption, hended, hafter, readLong, hname, hsign, valued?, setValue, hpath]

theorem foldlM_read_asked (config : Option OsString) (format : Format) :
    (asked format).foldlM read { config } = .ok
      { scope := .lint, outerConfig := config, format := some format, optionsEnded := true } := by
  cases format <;> rfl

/-- Once no more options come, everything is a path. -/
theorem foldlM_read_paths {paths : List OsString} (hpaths : ∀ path ∈ paths, path ≠ "")
    {p : Progress} (hscope : p.scope = .lint) (hpending : p.pending = none)
    (hended : p.optionsEnded = true) :
    paths.foldlM read p = .ok { p with paths := paths.reverse ++ p.paths } := by
  induction paths generalizing p with
  | nil => rfl
  | cons path paths ih =>
    obtain ⟨hpath, hpaths⟩ := List.forall_mem_cons.mp hpaths
    have hread : read p path = .ok { p with paths := path :: p.paths } := by
      simp [read, readPlain, hscope, hpending, hended, hpath]
    rw [List.foldlM_cons, hread]
    refine (ih (p := { p with paths := path :: p.paths }) hpaths hscope hpending hended).trans ?_
    simp only [List.reverse_cons, List.append_assoc, List.singleton_append]

/-- **What is spelled is read**, if it names some paths and nothing that it names is empty. -/
theorem parse_spelled {paths : List OsString} (format : Format) {config : Option OsString}
    (hsome : paths ≠ []) (hpaths : ∀ path ∈ paths, path ≠ "") (hconfig : config ≠ some ("" : OsString)) :
    Invocation.parse (spelled paths format config) = .ok ⟨.lint paths format, config⟩ := by
  have hlint : (asked format ++ paths).foldlM read { config } =
        .ok { scope := .lint, outerConfig := config, format := some format, optionsEnded := true,
              paths := paths.reverse } := by
    rw [List.foldlM_append, foldlM_read_asked]
    refine (foldlM_read_paths hpaths rfl rfl rfl).trans ?_
    simp only [List.append_nil]
  have hread : (spelled paths format config).foldlM read {} =
      .ok { scope := .lint, outerConfig := config, format := some format, optionsEnded := true,
            paths := paths.reverse } := by
    cases config with
    | none => exact hlint
    | some path =>
      have hpath : path ≠ "" := fun h => hconfig (congrArg some h)
      rw [spelled, List.foldlM_cons, read_config hpath]
      exact hlint
  simp [Invocation.parse, hread, finish, hsome]

/-! ### Nothing empty is read -/

/-- **Nothing empty has been read**: no path, and no path of a configuration. -/
structure Progress.Filled (p : Progress) : Prop where
  paths : ∀ path ∈ p.paths, path ≠ ""
  config : p.config ≠ some ("" : OsString)
  outerConfig : p.outerConfig ≠ some ("" : OsString)

namespace Progress.Filled

variable {p q : Progress}

theorem empty : Progress.Filled {} := ⟨nofun, nofun, nofun⟩

theorem setValue {option : Valued} {value : OsString} (h : setValue p option value = .ok q)
    (hp : p.Filled) : q.Filled := by
  unfold Arguments.setValue at h
  cases option with
  | config =>
    dsimp only at h
    split at h
    · cases h
    · next hvalue =>
      cases h
      exact ⟨hp.paths, fun hempty => hvalue (.inr (Option.some.inj hempty)), hp.outerConfig⟩
  | format =>
    dsimp only at h
    split at h
    · cases h
      exact ⟨hp.paths, hp.config, hp.outerConfig⟩
    · cases h

theorem setVerbose (h : setVerbose p = .ok q) (hp : p.Filled) : q.Filled := by
  unfold Arguments.setVerbose at h
  split at h
  · cases h
  · cases h
    exact ⟨hp.paths, hp.config, hp.outerConfig⟩

theorem setForce (h : setForce p = .ok q) (hp : p.Filled) : q.Filled := by
  unfold Arguments.setForce at h
  split at h
  · cases h
  · cases h
    exact ⟨hp.paths, hp.config, hp.outerConfig⟩

/-- An option whose value comes next. -/
theorem pending (hp : p.Filled) (option : Valued) :
    Progress.Filled { p with pending := some option } :=
  ⟨hp.paths, hp.config, hp.outerConfig⟩

theorem readLong {name : OsString} {value : Option OsString} (h : readLong p name value = .ok q)
    (hp : p.Filled) : q.Filled := by
  unfold Arguments.readLong at h
  split at h
  · exact hp.setValue h
  · cases h
    exact hp.pending _
  · cases h
  · split_ifs at h
    · exact hp.setVerbose h
    · exact hp.setForce h

theorem readShorts {letters : List UInt8} (h : readShorts p letters = .ok q) (hp : p.Filled) :
    q.Filled := by
  induction letters generalizing p with
  | nil =>
    cases h
    exact hp
  | cons b rest ih =>
    unfold Arguments.readShorts at h
    dsimp only at h
    split at h
    · cases h
      exact hp.pending _
    · exact hp.setValue h
    · split_ifs at h
      split at h
      · next hverbose => exact ih h (hp.setVerbose hverbose)
      · cases h

/-- Entering a command. -/
theorem enter (hp : p.Filled) (scope : Scope) : (enter p scope).Filled :=
  ⟨nofun, nofun, hp.config⟩

theorem readPlain {arg : OsString} (h : readPlain p arg = .ok q) (hp : p.Filled) : q.Filled := by
  unfold Arguments.readPlain at h
  split at h
  · split_ifs at h <;> cases h <;> exact hp.enter _
  · split_ifs at h with hempty
    cases h
    exact ⟨List.forall_mem_cons.mpr ⟨hempty, hp.paths⟩, hp.config, hp.outerConfig⟩
  · cases h

theorem readTopic {arg : OsString} (h : readTopic p arg = .ok q) (hp : p.Filled) : q.Filled := by
  unfold Arguments.readTopic at h
  split_ifs at h
  cases h
  exact ⟨hp.paths, hp.config, hp.outerConfig⟩

/-- An argument. -/
theorem read {arg : OsString} (h : read p arg = .ok q) (hp : p.Filled) : q.Filled := by
  unfold Arguments.read at h
  split at h
  · exact hp.readTopic h
  split at h
  · cases h
  split at h
  · split at h
    · cases h
    · exact hp.setValue h
  split at h
  · exact hp.readPlain h
  split at h
  · cases h
    exact ⟨hp.paths, hp.config, hp.outerConfig⟩
  split at h
  · dsimp only at h
    split at h
    · exact hp.readLong h
    · exact hp.readLong h
  · exact hp.readShorts h

/-- Any arguments. -/
theorem foldlM_read {args : List OsString} (h : args.foldlM Arguments.read p = .ok q)
    (hp : p.Filled) : q.Filled := by
  induction args generalizing p with
  | nil =>
    cases h
    exact hp
  | cons arg args ih =>
    rw [List.foldlM_cons] at h
    cases hread : Arguments.read p arg with
    | error stop =>
      rw [hread] at h
      cases h
    | ok p' =>
      rw [hread] at h
      exact ih h (hp.read hread)

end Progress.Filled

/-- **What an invocation that lints names**: some paths, and nothing empty. -/
theorem filled_of_parse {args paths : List OsString} {format : Format} {config : Option OsString}
    (h : Invocation.parse args = .ok ⟨.lint paths format, config⟩) :
    paths ≠ [] ∧ (∀ path ∈ paths, path ≠ "") ∧ config ≠ some ("" : OsString) := by
  unfold Invocation.parse at h
  split at h
  · cases h
  next p hread =>
  have hp : p.Filled := Progress.Filled.empty.foldlM_read hread
  have hconfig : p.config.or p.outerConfig ≠ some ("" : OsString) := by
    rw [ne_eq, Option.or_eq_some_iff]
    rintro (hconfig | ⟨-, hconfig⟩)
    · exact hp.config hconfig
    · exact hp.outerConfig hconfig
  unfold finish at h
  split at h
  · cases h
  dsimp only at h
  split at h
  case h_2 =>
    split at h
    · cases h
    next hsome =>
    cases h
    refine ⟨fun hnil => hsome (List.reverse_eq_nil_iff.mp hnil), fun path hpath => ?_, hconfig⟩
    exact hp.paths path (List.mem_reverse.mp hpath)
  all_goals cases h

/-- **Which invocations that lint can be given** as arguments. -/
theorem exists_parse_iff {paths : List OsString} {format : Format} {config : Option OsString} :
    (∃ args, Invocation.parse args = .ok ⟨.lint paths format, config⟩) ↔
      paths ≠ [] ∧ (∀ path ∈ paths, path ≠ "") ∧ config ≠ some ("" : OsString) :=
  ⟨fun ⟨_, h⟩ => filled_of_parse h,
    fun ⟨hsome, hpaths, hconfig⟩ => ⟨_, parse_spelled format hsome hpaths hconfig⟩⟩

end Arguments

end ScriptLint
