import Mathlib.Algebra.GroupWithZero.Nat
import Mathlib.Data.List.Find
import ScriptLint.CommandLine.Run
import ScriptLint.Proofs.Documents
import ScriptLint.Proofs.Invocations

/-!
# Linting many files

A run that lints loads its configuration, the one named or else the nearest, and stops if that
cannot be done.  Otherwise it lints the file at each path as if it were the only one: what stands
there must be a regular file of no more than the limit, that can be read and holds text.  Each path
goes to the results or, with the reason, to the failures, and neither list loses, doubles or
reorders any.  So the exit code tells whether a path failed or an error was found, and the summary
counts what stands in the results.

The results are printed in whatever form, but for one case: editor reports name their files, and a
path that is no text cannot be written.  Then the run fails although it has linted everything.

## Main definitions

* `Unmarked` — a text without its byte order mark
* `LintsFile` — what linting the file at a path comes to
* `Dealt` — paths dealt out to results and failures
* `Summary.Counts` — a summary that counts what stands in some results
* `Disk.Configures`, `Disk.Loads` — the configuration of a run, and what it gives
* `Trouble` — paths of which one cannot be linted or has an error
* `Unprintable` — paths whose results cannot be printed
* `LintsPaths`, `Lints` — a run that lints as it should, and the part of it after loading

## Main statements

* `lintsFile_iff` — which refusal a path meets, or its diagnostics
* `dealt_lintFiles`, `Dealt.unique` — how paths are dealt out
* `counts_ofResults` — what a summary counts
* `Disk.loads_iff` — what loading gives
* `render_eq_none_iff` — which results cannot be printed
* `lints_run` — what comes of a run that lints
-/

namespace ScriptLint

/-! ### One file -/

/-- **Without its mark**: a text that starts with a byte order mark is linted without it, any other
as it is. -/
inductive Unmarked : String → String → Prop
  | marked (text : String) : Unmarked ("\uFEFF" ++ text) text
  | plain {text : String} (h : ∀ rest, text ≠ "\uFEFF" ++ rest) : Unmarked text text

theorem eq_mark_append {text : String} {rest : List Char} (h : text.toList = '\uFEFF' :: rest) :
    text = "\uFEFF" ++ .ofList rest := by
  rw [← String.toList_inj, h, String.toList_append]
  simp

/-- A text without its mark is what linting takes of it. -/
theorem unmarked_iff {text source : String} :
    Unmarked text source ↔ dropByteOrderMark text = source := by
  constructor
  · rintro (_ | hplain)
    · simp [dropByteOrderMark, String.toList_append]
    · unfold dropByteOrderMark
      split
      · next rest htext => exact absurd (eq_mark_append htext) (hplain _)
      · rfl
  · rintro rfl
    unfold dropByteOrderMark
    split
    · next rest htext =>
      nth_rewrite 1 [eq_mark_append htext]
      exact .marked _
    · next hplain =>
      refine .plain fun rest hmarked => hplain rest.toList ?_
      rw [hmarked, String.toList_append]
      rfl

/-- **What linting the file at a path comes to.** -/
inductive LintsFile (find : Lookup) (settings : Settings) (path : OsString) :
    Except FileError LintResult → Prop
  /-- The system does not say what stands there. -/
  | noMetadata {cause : PathError} (h : find.metadata path = .error cause) :
      LintsFile find settings path (.error (.noMetadata path cause))
  /-- It is no regular file. -/
  | notRegular {found : Found} (h : find.metadata path = .ok found)
      (hother : ∀ size, found ≠ .file size) :
      LintsFile find settings path (.error (.notRegular path))
  /-- It has too many bytes. -/
  | tooLarge {size : Nat} (h : find.metadata path = .ok (.file size)) (hsize : maxFileSize < size) :
      LintsFile find settings path (.error (.tooLarge path))
  /-- It cannot be read. -/
  | refused {size : Nat} {cause : PathError} (h : find.metadata path = .ok (.file size))
      (hsize : size ≤ maxFileSize) (hread : find.read path = .error cause) :
      LintsFile find settings path (.error (.unreadable path (.refused cause)))
  /-- What is read is no text. -/
  | notText {size : Nat} {content : ByteArray} (h : find.metadata path = .ok (.file size))
      (hsize : size ≤ maxFileSize) (hread : find.read path = .ok content)
      (htext : ∀ text : String, content ≠ text.toUTF8) :
      LintsFile find settings path (.error (.unreadable path .notText))
  /-- The text that is read, without its mark, has its diagnostics. -/
  | linted {size : Nat} {text source : String} (h : find.metadata path = .ok (.file size))
      (hsize : size ≤ maxFileSize) (hread : find.read path = .ok text.toUTF8)
      (hsource : Unmarked text source) :
      LintsFile find settings path (.ok ⟨path, verify settings source⟩)

section OneFile

variable {find : Lookup} {settings : Settings} {path : OsString}
  {outcome : Except FileError LintResult}

/-- What linting comes to is described. -/
theorem lintsFile_lintFile (find : Lookup) (settings : Settings) (path : OsString) :
    LintsFile find settings path (lintFile find settings path) := by
  unfold lintFile
  cases h : find.metadata path with
  | error cause => exact .noMetadata h
  | ok found =>
    cases found with
    | directory => exact .notRegular h nofun
    | special => exact .notRegular h nofun
    | file size =>
      dsimp only
      split
      · next hsize => exact .tooLarge h hsize
      next hsize =>
      have hsize : size ≤ maxFileSize := Nat.le_of_not_lt hsize
      cases htext : find.readText path with
      | ok text =>
        exact .linted h hsize (Lookup.readText_eq_ok_iff.mp htext) (unmarked_iff.mpr rfl)
      | error cause =>
        cases cause with
        | refused cause => exact .refused h hsize (Lookup.readText_eq_refused_iff.mp htext)
        | notText =>
          obtain ⟨content, hread, hcontent⟩ := Lookup.readText_eq_notText_iff.mp htext
          exact .notText h hsize hread hcontent

/-- **Linting a file** comes to what it is described to, and to nothing else. -/
theorem lintsFile_iff :
    LintsFile find settings path outcome ↔ lintFile find settings path = outcome := by
  refine ⟨fun h => ?_, fun h => h ▸ lintsFile_lintFile find settings path⟩
  unfold lintFile
  cases h with
  | noMetadata h => rw [h]
  | @notRegular found h hother =>
    rw [h]
    cases found with
    | file size => exact absurd rfl (hother size)
    | directory => rfl
    | special => rfl
  | tooLarge h hsize =>
    rw [h]
    exact if_pos hsize
  | refused h hsize hread =>
    simp only [h, if_neg (Nat.not_lt.mpr hsize), Lookup.readText_eq_refused_iff.mpr hread]
  | notText h hsize hread htext =>
    have hnotText := Lookup.readText_eq_notText_iff.mpr ⟨_, hread, htext⟩
    simp only [h, if_neg (Nat.not_lt.mpr hsize), hnotText]
  | linted h hsize hread hsource =>
    simp only [h, if_neg (Nat.not_lt.mpr hsize), Lookup.readText_eq_ok_iff.mpr hread,
      unmarked_iff.mp hsource, lintText]

/-- A result has the path of its file. -/
theorem path_of_lintFile {result : LintResult} (h : lintFile find settings path = .ok result) :
    result.path = path := by
  obtain - | - | - | - | - | _ := lintsFile_iff.mpr h
  rfl

end OneFile

/-! ### Paths dealt out -/

namespace Batch

variable (path : OsString) (outcomes : List (OsString × Except FileError LintResult))

theorem ofOutcomes_ok (result : LintResult) :
    ofOutcomes ((path, .ok result) :: outcomes) =
      { ofOutcomes outcomes with results := result :: (ofOutcomes outcomes).results } := rfl

theorem ofOutcomes_error (reason : FileError) :
    ofOutcomes ((path, .error reason) :: outcomes) =
      { ofOutcomes outcomes with failures := (path, reason) :: (ofOutcomes outcomes).failures } :=
  rfl

end Batch

/-- **Paths dealt out** in their order: the ones that are linted give the results, the others go
to the failures with the reason. -/
inductive Dealt (lint : OsString → Except FileError LintResult) :
    List OsString → List LintResult → List (OsString × FileError) → Prop
  | nil : Dealt lint [] [] []
  | linted {path : OsString} {result : LintResult} {paths : List OsString}
      {results : List LintResult} {failures : List (OsString × FileError)} (h : lint path = .ok result)
      (rest : Dealt lint paths results failures) :
      Dealt lint (path :: paths) (result :: results) failures
  | failed {path : OsString} {reason : FileError} {paths : List OsString}
      {results : List LintResult} {failures : List (OsString × FileError)} (h : lint path = .error reason)
      (rest : Dealt lint paths results failures) :
      Dealt lint (path :: paths) results ((path, reason) :: failures)

namespace Dealt

variable {lint : OsString → Except FileError LintResult} {paths : List OsString}
  {results results' : List LintResult} {failures failures' : List (OsString × FileError)}

/-- Every path is dealt out once. -/
theorem length_add (h : Dealt lint paths results failures) :
    results.length + failures.length = paths.length := by
  induction h with
  | nil => rfl
  | linted _ _ ih => simp only [List.length_cons]; omega
  | failed _ _ ih => simp only [List.length_cons]; omega

/-- The results are those of the paths that are linted. -/
theorem mem_results (h : Dealt lint paths results failures) {result : LintResult} :
    result ∈ results ↔ ∃ path ∈ paths, lint path = .ok result := by
  induction h with
  | nil => simp
  | linted h _ ih => simp [h, ih, eq_comm]
  | failed h _ ih => simp [h, ih]

/-- The failures are those of the paths that are not. -/
theorem mem_failures (h : Dealt lint paths results failures) {path : OsString} {reason : FileError} :
    (path, reason) ∈ failures ↔ path ∈ paths ∧ lint path = .error reason := by
  induction h with
  | nil => simp
  | @linted linted _ _ _ _ h _ ih =>
    rw [ih, List.mem_cons]
    constructor
    · exact fun ⟨hmem, hreason⟩ => ⟨.inr hmem, hreason⟩
    · rintro ⟨rfl | hmem, hreason⟩
      · rw [h] at hreason
        cases hreason
      · exact ⟨hmem, hreason⟩
  | @failed failed _ _ _ _ h _ ih =>
    rw [List.mem_cons, List.mem_cons, ih]
    constructor
    · rintro (hfirst | ⟨hmem, hreason⟩)
      · cases hfirst
        exact ⟨.inl rfl, h⟩
      · exact ⟨.inr hmem, hreason⟩
    · rintro ⟨rfl | hmem, hreason⟩
      · rw [h] at hreason
        cases hreason
        exact .inl rfl
      · exact .inr ⟨hmem, hreason⟩

/-- How paths are dealt out can be computed. -/
theorem batch_eq (h : Dealt lint paths results failures) :
    Batch.ofOutcomes (paths.map fun path => (path, lint path)) = ⟨results, failures⟩ := by
  induction h with
  | nil => rfl
  | linted h _ ih => rw [List.map_cons, h, Batch.ofOutcomes_ok, ih]
  | failed h _ ih => rw [List.map_cons, h, Batch.ofOutcomes_error, ih]

/-- There is one way to deal paths out. -/
theorem unique (h : Dealt lint paths results failures) (h' : Dealt lint paths results' failures') :
    results = results' ∧ failures = failures' :=
  Batch.mk.inj (h.batch_eq.symm.trans h'.batch_eq)

end Dealt

/-- **A batch** deals its paths out by what linting each of them alone gives. -/
theorem dealt_lintFiles (find : Lookup) (settings : Settings) (paths : List OsString) :
    Dealt (lintFile find settings) paths (lintFiles find settings paths).results
      (lintFiles find settings paths).failures := by
  induction paths with
  | nil => exact .nil
  | cons path paths ih =>
    unfold lintFiles at ih ⊢
    rw [List.map_cons]
    cases h : lintFile find settings path with
    | ok result =>
      rw [Batch.ofOutcomes_ok]
      exact .linted h ih
    | error reason =>
      rw [Batch.ofOutcomes_error]
      exact .failed h ih

/-! ### Counts -/

theorem LintResult.hasErrors_iff (r : LintResult) :
    r.hasErrors = true ↔ ∃ d ∈ r.diagnostics, d.severity = .error := by
  simp [hasErrors, Diagnostic.isError]

/-- Diagnostics of one severity are counted one result at a time. -/
theorem countP_flatMap_diagnostics (results : List LintResult) (severity : Severity) :
    (results.flatMap (·.diagnostics)).countP (·.severity == severity) =
      (results.map (·.count severity)).sum := by
  rw [List.countP_flatMap]
  rfl

/-- **A summary counts** what stands in some results. -/
structure Summary.Counts (s : Summary) (results : List LintResult) : Prop where
  /-- Its files are the results. -/
  filesChecked : s.filesChecked = results.length
  /-- Its diagnostics are those of all results. -/
  totalDiagnostics : s.totalDiagnostics = (results.map (·.diagnostics.length)).sum
  /-- Its errors are those of all results. -/
  errors : s.errors = (results.map (·.errors)).sum
  /-- Its warnings are those of all results. -/
  warnings : s.warnings = (results.map (·.warnings)).sum
  /-- A diagnostic is an error or a warning. -/
  errors_add_warnings : s.errors + s.warnings = s.totalDiagnostics
  /-- No file is counted twice as one with errors. -/
  filesWithErrors_le : s.filesWithErrors ≤ s.filesChecked
  /-- There is a file with errors exactly when there is an error. -/
  filesWithErrors_pos : 0 < s.filesWithErrors ↔ 0 < s.errors

/-- **The summary of some results** counts what stands in them. -/
theorem counts_ofResults (results : List LintResult) :
    (Summary.ofResults results).Counts results where
  filesChecked := rfl
  totalDiagnostics := List.length_flatMap
  errors := countP_flatMap_diagnostics results .error
  warnings := countP_flatMap_diagnostics results .warning
  errors_add_warnings := by
    have hwarning : (fun d : Diagnostic => d.severity == .warning) =
        fun d => decide ¬ (d.severity == .error) = true := by
      funext d
      cases d.severity <;> rfl
    simp only [Summary.ofResults]
    rw [hwarning]
    exact (List.length_eq_countP_add_countP _).symm
  filesWithErrors_le := List.countP_le_length
  filesWithErrors_pos := by
    simp only [Summary.ofResults, List.countP_pos_iff, List.mem_flatMap, LintResult.hasErrors_iff,
      beq_iff_eq]
    constructor
    · rintro ⟨result, hresult, d, hd, herror⟩
      exact ⟨d, ⟨result, hresult, hd⟩, herror⟩
    · rintro ⟨d, ⟨result, hresult, hd⟩, herror⟩
      exact ⟨result, hresult, d, hd, herror⟩

/-! ### The configuration of a run -/

/-- **The same answers** about a path. -/
structure Lookup.AgreesAt (other find : Lookup) (path : OsString) : Prop where
  metadata : other.metadata path = find.metadata path
  read : other.read path = find.read path

namespace Disk

/-- **The configuration of a run** is at the path named.  If none is named it is at the first of the
candidates at which there is a file, and if there is no such candidate the run has none. -/
inductive Configures (disk : Disk) : Option OsString → Option OsString → Prop
  | named (path : OsString) : disk.Configures (some path) (some path)
  | nearest {here : OsString} {before after : List OsString} {path : OsString}
      (hhere : disk.here = .ok here) (h : Document.candidates here = before ++ path :: after)
      (hfile : disk.find.isFile path = true)
      (hbefore : ∀ other ∈ before, disk.find.isFile other = false) :
      disk.Configures none (some path)
  | absent {here : OsString} (hhere : disk.here = .ok here)
      (h : ∀ path ∈ Document.candidates here, disk.find.isFile path = false) :
      disk.Configures none none

/-- **Loading** gives the settings of the configuration, or the reason why it cannot be used, and
the defaults if there is no configuration.  A run that is lost cannot look for one. -/
inductive Loads (disk : Disk) (config : Option OsString) : Except LoadError Settings → Prop
  | lost {cause : PathError} (hconfig : config = none) (hhere : disk.here = .error cause) :
      disk.Loads config (.error (.lost cause))
  | defaults (h : disk.Configures config none) : disk.Loads config (.ok {})
  | loaded {path : OsString} {d : Document} (h : disk.Configures config (some path))
      (hread : Document.ofFile disk.find path = .ok d) : disk.Loads config (.ok d.resolve)
  | failed {path : OsString} {reason : ConfigError} (h : disk.Configures config (some path))
      (hread : Document.ofFile disk.find path = .error reason) :
      disk.Loads config (.error (.unusable reason))

variable {disk : Disk} {config : Option OsString} {loaded : Except LoadError Settings}

/-- A configuration is loaded from its path. -/
theorem settings_of_configures {path : OsString} (h : disk.Configures config (some path)) :
    disk.settings config = disk.load path := by
  cases h with
  | named => rfl
  | @nearest here before after _ hhere h hfile hbefore =>
    have hdiscover : Document.discover disk.find here = some path := by
      refine List.find?_eq_some_iff_append.mpr ⟨hfile, before, after, h, fun other hother => ?_⟩
      rw [hbefore other hother]
      rfl
    simp only [settings, hhere, hdiscover]

theorem settings_of_absent (h : disk.Configures config none) : disk.settings config = .ok {} := by
  cases h with
  | @absent here hhere h =>
    have hdiscover : Document.discover disk.find here = none :=
      List.find?_eq_none.mpr fun path hpath => by simp [h path hpath]
    simp only [settings, hhere, hdiscover]
    rfl

/-- What is read at the path of the configuration is what loading gives. -/
theorem loads_load {path : OsString} (h : disk.Configures config (some path)) :
    disk.Loads config (disk.load path) := by
  unfold load
  cases hread : Document.ofFile disk.find path with
  | ok d => exact .loaded h hread
  | error reason => exact .failed h hread

theorem loads_settings (disk : Disk) (config : Option OsString) :
    disk.Loads config (disk.settings config) := by
  cases config with
  | some path => exact loads_load (.named path)
  | none =>
    unfold settings
    cases hhere : disk.here with
    | error cause => exact .lost rfl hhere
    | ok here =>
      dsimp only
      cases h : Document.discover disk.find here with
      | none =>
        refine .defaults (.absent hhere fun path hpath => ?_)
        simpa using List.find?_eq_none.mp h path hpath
      | some path =>
        obtain ⟨hfile, before, after, hcandidates, hbefore⟩ := List.find?_eq_some_iff_append.mp h
        exact loads_load (.nearest hhere hcandidates hfile fun other hother => by
          simpa using hbefore other hother)

/-- **What loading gives** is what the run goes on with. -/
theorem loads_iff : disk.Loads config loaded ↔ disk.settings config = loaded := by
  constructor
  · rintro (⟨rfl, hhere⟩ | h | ⟨h, hread⟩ | ⟨h, hread⟩)
    · simp only [settings, hhere]
    · exact settings_of_absent h
    · rw [settings_of_configures h, load, hread]
    · rw [settings_of_configures h, load, hread]
  · rintro rfl
    exact disk.loads_settings config

theorem Loads.unique {loaded' : Except LoadError Settings} (h : disk.Loads config loaded)
    (h' : disk.Loads config loaded') : loaded = loaded' :=
  (loads_iff.mp h).symm.trans (loads_iff.mp h')

theorem existsUnique_loads (disk : Disk) (config : Option OsString) :
    ∃! loaded, disk.Loads config loaded :=
  ⟨disk.settings config, loads_iff.mpr rfl, fun _ h => (loads_iff.mp h).symm⟩

/-- A run whose disk has the same at these paths has the same configuration. -/
theorem settings_congr {other : Disk} (hhere : other.here = disk.here)
    (hfind : ∀ path ∈ configurationPaths disk.here config,
      other.find.AgreesAt disk.find path) :
    other.settings config = disk.settings config := by
  have hload {path : OsString} (hpath : other.find.AgreesAt disk.find path) :
      other.load path = disk.load path := by
    simp only [load, Document.ofFile, Lookup.readText, hpath.read]
  cases config with
  | some path => exact hload (hfind path (List.mem_singleton.mpr rfl))
  | none =>
    unfold settings
    rw [hhere]
    cases h : disk.here with
    | error cause => rfl
    | ok here =>
      rw [h] at hfind
      have hdiscover : Document.discover other.find here = Document.discover disk.find here := by
        refine List.find?_congr fun path hpath => ?_
        simp only [Lookup.isFile, (hfind path hpath).metadata]
      simp only [hdiscover]
      cases hfound : Document.discover disk.find here with
      | none => rfl
      | some path => exact hload (hfind path (List.mem_of_find?_eq_some hfound))

end Disk

/-! ### Printing results -/

/-- **Which results cannot be printed**: as reports, those with a diagnostic and a path that is no
text. -/
theorem render_eq_none_iff {format : Format} {results : List LintResult} :
    render format results = none ↔ format = .report ∧ ∃ result ∈ results,
      result.diagnostics ≠ [] ∧ ∀ text, result.path ≠ .ofText text := by
  cases format with
  | text => simp [render]
  | json => simp [render]
  | report =>
    have hmapM : render .report results = none ↔
        (results.flatMap (·.editorReports)).mapM EditorReport.toJson? = none := by
      cases h : (results.flatMap (·.editorReports)).mapM EditorReport.toJson? <;> simp [render, h]
    rw [hmapM, mapM_eq_none_iff]
    simp only [EditorReport.toJson?_eq_none_iff, List.mem_flatMap, true_and]
    constructor
    · rintro ⟨report, ⟨result, hresult, hreport⟩, htext⟩
      obtain ⟨d, hd, rfl⟩ := List.mem_map.mp hreport
      exact ⟨result, hresult, List.ne_nil_of_mem hd, htext⟩
    · rintro ⟨result, hresult, hsome, htext⟩
      obtain ⟨d, hd⟩ := List.exists_mem_of_ne_nil _ hsome
      exact ⟨_, ⟨result, hresult, List.mem_map_of_mem hd⟩, htext⟩

/-! ### The outcome of a run -/

/-- **Trouble** with some paths: one cannot be linted, or an error is found at one. -/
def Trouble (lint : OsString → Except FileError LintResult) (paths : List OsString) : Prop :=
  ∃ path ∈ paths, (∃ reason, lint path = .error reason) ∨
    ∃ result, lint path = .ok result ∧ ∃ d ∈ result.diagnostics, d.severity = .error

/-- **Unprintable paths**: reports are asked for, and something is found at a path that is no
text. -/
def Unprintable (format : Format) (lint : OsString → Except FileError LintResult)
    (paths : List OsString) : Prop :=
  format = .report ∧ ∃ path ∈ paths, (∀ text, path ≠ .ofText text) ∧
    ∃ result, lint path = .ok result ∧ result.diagnostics ≠ []

/-- **Linting the paths** of a run under its settings: what it comes to, with the results and
failures. -/
structure LintsPaths (find : Lookup) (settings : Settings) (paths : List OsString)
    (format : Format) (outcome : Outcome) (results : List LintResult)
    (failures : List (OsString × FileError)) : Prop where
  /-- What linting a path comes to depends on what stands there alone. -/
  lints : ∀ path, LintsFile find settings path (lintFile find settings path)
  /-- The paths are dealt out by that, -/
  dealt : Dealt (lintFile find settings) paths results failures
  /-- in this way alone, -/
  only : ∀ results' failures', Dealt (lintFile find settings) paths results' failures' →
    results' = results ∧ failures' = failures
  /-- none lost and none doubled. -/
  length_add : results.length + failures.length = paths.length
  /-- The failures are listed. -/
  failures : outcome.failures = Batch.listed ⟨results, failures⟩
  /-- The summary counts the results, -/
  counts : (Summary.ofResults results).Counts results
  /-- and a listing ends with it. -/
  summary : format = .text →
    ∃ listing, outcome.output = listing ++ (Summary.ofResults results).listed
  /-- Results that cannot be printed are not. -/
  unprinted : Unprintable format (lintFile find settings) paths →
    outcome.exitCode = 2 ∧ outcome.output = ""
  /-- All others are printed in the form given. -/
  printed : ¬ Unprintable format (lintFile find settings) paths →
    render format results = some outcome.output
  /-- Then the exit code tells whether there is trouble. -/
  exits_one : outcome.exitCode = 1 ↔ ¬ Unprintable format (lintFile find settings) paths ∧
    Trouble (lintFile find settings) paths
  exits_zero : outcome.exitCode = 0 ↔ ¬ Unprintable format (lintFile find settings) paths ∧
    ¬ Trouble (lintFile find settings) paths

/-- **A run lints as it should**: what it comes to, with the configuration named and the paths and
form given. -/
structure Lints (disk : Disk) (config : Option OsString) (paths : List OsString) (format : Format)
    (outcome : Outcome) : Prop where
  /-- Loading gives settings, or it fails, not both. -/
  loads : ∃! loaded, disk.Loads config loaded
  /-- The run exits with 2 exactly when loading fails or the results cannot be printed. -/
  exits_two : outcome.exitCode = 2 ↔ (∃ reason, disk.Loads config (.error reason)) ∨
    ∃ settings, disk.Loads config (.ok settings) ∧
      Unprintable format (lintFile disk.find settings) paths
  /-- If loading fails nothing is printed, -/
  of_failed : ∀ reason, disk.Loads config (.error reason) → outcome = .failure
  /-- and whatever else is on the disk is not looked at. -/
  of_failed_alike : ∀ reason, disk.Loads config (.error reason) → ∀ other : Disk,
    other.here = disk.here →
    (∀ path ∈ configurationPaths disk.here config, other.find.AgreesAt disk.find path) →
    (Invocation.mk (.lint paths format) config).run other = .report .failure
  /-- If it succeeds the paths are linted. -/
  of_loaded : ∀ settings, disk.Loads config (.ok settings) → ∃ results failures,
    LintsPaths disk.find settings paths format outcome results failures

namespace Dealt

variable {lint : OsString → Except FileError LintResult} {paths : List OsString}
  {results : List LintResult} {failures : List (OsString × FileError)}

/-- The trouble with some paths shows in how they are dealt out. -/
theorem trouble_iff (h : Dealt lint paths results failures) :
    Trouble lint paths ↔ failures ≠ [] ∨ results.any (·.hasErrors) = true := by
  simp only [List.any_eq_true, LintResult.hasErrors_iff, h.mem_results]
  constructor
  · rintro ⟨path, hpath, ⟨reason, hreason⟩ | ⟨result, hresult, herror⟩⟩
    · exact .inl (List.ne_nil_of_mem (h.mem_failures.mpr ⟨hpath, hreason⟩))
    · exact .inr ⟨result, ⟨path, hpath, hresult⟩, herror⟩
  · rintro (hfailures | ⟨result, ⟨path, hpath, hresult⟩, herror⟩)
    · obtain ⟨⟨path, reason⟩, hfailure⟩ := List.exists_mem_of_ne_nil _ hfailures
      obtain ⟨hpath, hreason⟩ := h.mem_failures.mp hfailure
      exact ⟨path, hpath, .inl ⟨reason, hreason⟩⟩
    · exact ⟨path, hpath, .inr ⟨result, hresult, herror⟩⟩

/-- So does whether they are unprintable, if every result has the path that it is for. -/
theorem unprintable_iff (h : Dealt lint paths results failures)
    (hlint : ∀ {path result}, lint path = .ok result → result.path = path) (format : Format) :
    Unprintable format lint paths ↔ render format results = none := by
  rw [render_eq_none_iff]
  refine and_congr_right fun _ => ?_
  simp only [h.mem_results]
  constructor
  · rintro ⟨path, hpath, htext, result, hresult, hsome⟩
    exact ⟨result, ⟨path, hpath, hresult⟩, hsome, hlint hresult ▸ htext⟩
  · rintro ⟨result, ⟨path, hpath, hresult⟩, hsome, htext⟩
    exact ⟨path, hpath, hlint hresult ▸ htext, result, hresult, hsome⟩

end Dealt

section Outcomes

variable (disk : Disk) (settings : Settings) (paths : List OsString) (format : Format)

/-- **The exit code** of a run whose configuration was loaded. -/
theorem exitCode_runLint :
    ((runLint disk settings paths format).exitCode = 2 ↔
        Unprintable format (lintFile disk.find settings) paths) ∧
      ((runLint disk settings paths format).exitCode = 1 ↔
        ¬ Unprintable format (lintFile disk.find settings) paths ∧
          Trouble (lintFile disk.find settings) paths) ∧
      ((runLint disk settings paths format).exitCode = 0 ↔
        ¬ Unprintable format (lintFile disk.find settings) paths ∧
          ¬ Trouble (lintFile disk.find settings) paths) := by
  have hdealt := dealt_lintFiles disk.find settings paths
  rw [hdealt.unprintable_iff path_of_lintFile, hdealt.trouble_iff]
  simp only [runLint]
  cases hrender : render format (lintFiles disk.find settings paths).results with
  | none => simp
  | some output =>
    dsimp only
    split
    · next hbad =>
      exact ⟨iff_of_false (show (1 : UInt8) ≠ 2 by decide) nofun, iff_of_true rfl ⟨nofun, hbad⟩,
        iff_of_false (show (1 : UInt8) ≠ 0 by decide) fun h => h.2 hbad⟩
    · next hgood =>
      exact ⟨iff_of_false (show (0 : UInt8) ≠ 2 by decide) nofun,
        iff_of_false (show (0 : UInt8) ≠ 1 by decide) fun h => hgood h.2,
        iff_of_true rfl ⟨nofun, hgood⟩⟩

/-- **A run whose configuration was loaded** lints its paths. -/
theorem lintsPaths_runLint :
    LintsPaths disk.find settings paths format (runLint disk settings paths format)
      (lintFiles disk.find settings paths).results
      (lintFiles disk.find settings paths).failures := by
  have hdealt := dealt_lintFiles disk.find settings paths
  have hunprintable := hdealt.unprintable_iff path_of_lintFile format
  obtain ⟨htwo, hone, hzero⟩ := exitCode_runLint disk settings paths format
  refine ⟨lintsFile_lintFile disk.find settings, hdealt, fun _ _ hother => hother.unique hdealt,
    hdealt.length_add, ?_, counts_ofResults _, ?_, fun hbad => ⟨htwo.mpr hbad, ?_⟩,
    fun hgood => ?_, hone, hzero⟩
  · unfold runLint
    dsimp only
    split <;> rfl
  · rintro rfl
    exact ⟨_, rfl⟩
  · simp only [runLint, hunprintable.mp hbad]
  · obtain ⟨output, hrender⟩ := Option.ne_none_iff_exists'.mp (hgood ∘ hunprintable.mpr)
    simp only [runLint, hrender]

end Outcomes

section Runs

variable {disk : Disk} {config : Option OsString}

theorem run_lint_of_failed {reason : LoadError} (h : disk.Loads config (.error reason))
    (paths : List OsString) (format : Format) :
    (Invocation.mk (.lint paths format) config).run disk = .report .failure := by
  simp only [Invocation.run, Disk.withSettings, Disk.loads_iff.mp h]

theorem run_lint_of_loaded {settings : Settings} (h : disk.Loads config (.ok settings))
    (paths : List OsString) (format : Format) :
    (Invocation.mk (.lint paths format) config).run disk =
      .report (runLint disk settings paths format) := by
  simp only [Invocation.run, Disk.withSettings, Disk.loads_iff.mp h]

variable (paths : List OsString) (format : Format)

/-- A run that fails when loading fails. -/
theorem lints_failure {reason : LoadError} (h : disk.Loads config (.error reason)) :
    Lints disk config paths format .failure where
  loads := disk.existsUnique_loads config
  exits_two := iff_of_true rfl (.inl ⟨reason, h⟩)
  of_failed _ _ := rfl
  of_failed_alike _ _ other hhere hfind := by
    have hother : other.settings config = .error reason :=
      (Disk.settings_congr hhere hfind).trans (Disk.loads_iff.mp h)
    exact run_lint_of_failed (Disk.loads_iff.mpr hother) paths format
  of_loaded settings hloaded := by cases h.unique hloaded

/-- A run that lints the files when loading succeeds. -/
theorem lints_runLint {settings : Settings} (h : disk.Loads config (.ok settings)) :
    Lints disk config paths format (runLint disk settings paths format) where
  loads := disk.existsUnique_loads config
  exits_two := by
    rw [(exitCode_runLint disk settings paths format).1]
    constructor
    · exact fun hbad => .inr ⟨settings, h, hbad⟩
    · rintro (⟨reason, hfailed⟩ | ⟨settings', hloaded, hbad⟩)
      · cases h.unique hfailed
      · obtain rfl := Except.ok.inj (h.unique hloaded)
        exact hbad
  of_failed reason hfailed := by cases h.unique hfailed
  of_failed_alike reason hfailed := by cases h.unique hfailed
  of_loaded settings' hloaded := by
    obtain rfl := Except.ok.inj (h.unique hloaded)
    exact ⟨_, _, lintsPaths_runLint disk settings paths format⟩

/-- **What comes of an invocation that lints**: whatever the disk, the configuration named, the
paths and the form, and however the arguments spell them.  Arguments can spell it if it names some
paths and nothing that it names is empty. -/
theorem lints_run (disk : Disk) (config : Option OsString) :
    (∃ outcome, Lints disk config paths format outcome ∧
      (Invocation.mk (.lint paths format) config).run disk = .report outcome ∧
      ∀ args, Invocation.parse args = .ok ⟨.lint paths format, config⟩ →
        run disk args = .report outcome) ∧
    ((∃ args, Invocation.parse args = .ok ⟨.lint paths format, config⟩) ↔
      paths ≠ [] ∧ (∀ path ∈ paths, path ≠ "") ∧ config ≠ some ("" : OsString)) := by
  refine ⟨?_, Arguments.exists_parse_iff⟩
  have hargs : ∀ args, Invocation.parse args = .ok ⟨.lint paths format, config⟩ →
      run disk args = (Invocation.mk (.lint paths format) config).run disk := by
    intro args h
    simp only [run, h]
  obtain ⟨loaded, hloaded, -⟩ := disk.existsUnique_loads config
  cases loaded with
  | error reason =>
    have hrun := run_lint_of_failed hloaded paths format
    exact ⟨_, lints_failure paths format hloaded, hrun, fun args h => (hargs args h).trans hrun⟩
  | ok settings =>
    have hrun := run_lint_of_loaded hloaded paths format
    exact ⟨_, lints_runLint paths format hloaded, hrun, fun args h => (hargs args h).trans hrun⟩

end Runs

/-- A disk with one file, of an unclosed string, at a path that is no text: its report cannot be
printed, so a run that loads its settings fails.  So does a run with no path. -/
theorem fails_though_loaded :
    let disk : Disk :=
      { find :=
          { metadata := fun path =>
              if path = ⟨[0xFF]⟩ then .ok (.file 1) else .error .notFound
            read := fun path => if path = ⟨[0xFF]⟩ then .ok "'".toUTF8 else .error .notFound }
        here := .ok "" }
    disk.Loads none (.ok {}) ∧
      run disk (Arguments.spelled [⟨[0xFF]⟩] .report none) = .report .failure ∧
      run disk (Arguments.spelled [] .text none) = .report .failure := by
  refine ⟨Disk.loads_iff.mpr rfl, ?_⟩
  decide +kernel

end ScriptLint
