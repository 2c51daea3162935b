import ScriptLint.Lint
import ScriptLint.Proofs.Regions
import ScriptLint.Proofs.Reports

/-!
# Editor reports lose nothing

An editor counts lines and columns from 0 and takes the character at a place, not the place.
Counting from 0 is invertible because a diagnostic of a pass never stands at a line or column
0: it points into its source.  So every report tells its diagnostic, and its character is in
the file.

A diagnostic that was read back may stand anywhere in the numbers of a machine word.  There
the conversion stops at 0 and never wraps around at the other end, and what is written of a
report is read back.  A path that is no text cannot be written, and then the report is not either.

## Main definitions

* `EditorReport.Tells` — what a report says of a diagnostic
* `EditorReport.Inside` — the character of a report is one of the file
* `wordBelow` — counting from 0 in machine words
* `EditorReport.FitsWords` — the report of a diagnostic at a place of two machine words
* `LosesNothing` — what the reports of a text are

## Main statements

* `EditorReport.exists_written` — a report in machine words is read back
* `editorReports_lossless` — the reports of every text lose nothing
-/

namespace ScriptLint

/-! ### What a report says -/

/-- **Telling a diagnostic**: a report has all of it but the text of its line, at the place
counted from 0 and up to the next column. -/
structure EditorReport.Tells (file : OsString) (d : Diagnostic) (r : EditorReport) : Prop where
  severity : r.severity = d.severity
  message : r.message = d.message
  code : r.code = d.rule.key
  file : r.file = file
  line : r.start.line + 1 = d.line
  column : r.start.column + 1 = d.column
  stop : r.stop = ⟨r.start.line, r.start.column + 1⟩

/-- **Inside the file**: the line of a report is a physical line of a text, and its column is
before the end of that line, or the first of an empty one.  The same holds of the line as it is
linted, which is empty in a disabled region. -/
structure EditorReport.Inside (text : String) (r : EditorReport) : Prop where
  line : r.start.line < (rawLines text).length
  column : ∀ line, (rawLines text)[r.start.line]? = some line →
    r.start.column < max 1 line.length
  linted : r.start.column < max 1 ((Source.ofString text).lengthAt (r.start.line + 1))

/-- A diagnostic with a line and a column is told by its report. -/
theorem EditorReport.tells_ofDiagnostic (file : OsString) {d : Diagnostic} (hline : 1 ≤ d.line)
    (hcolumn : 1 ≤ d.column) : (ofDiagnostic file d).Tells file d where
  severity := rfl
  message := rfl
  code := rfl
  file := rfl
  line := Nat.sub_add_cancel hline
  column := Nat.sub_add_cancel hcolumn
  stop := rfl

/-- A line of a source is no longer than the physical line. -/
theorem lengthAt_le_of_rawLines {text : String} {n : Nat} {line : List Char}
    (h : (rawLines text)[n]? = some line) :
    (Source.ofString text).lengthAt (n + 1) ≤ line.length := by
  rw [Source.lengthAt, line?_ofString text h, Option.getD_some]
  split
  · exact Nat.zero_le _
  · exact Nat.le_of_eq String.length_ofList

/-- The report of a place to show is inside the file. -/
theorem Source.Shows.inside {text : String} {file : OsString} {d : Diagnostic}
    (h : (Source.ofString text).Shows d.line d.column) :
    (EditorReport.ofDiagnostic file d).Inside text := by
  obtain ⟨hline, hlast, hcolumn, hlength⟩ := h
  have hdown : d.line - 1 + 1 = d.line := Nat.sub_add_cancel hline
  have hlinted : d.column - 1 < max 1 ((Source.ofString text).lengthAt (d.line - 1 + 1)) := by
    rw [hdown]
    omega
  refine ⟨?_, fun line hraw => ?_, hlinted⟩
  · show d.line - 1 < (rawLines text).length
    rw [lastIndex_ofString] at hlast
    omega
  · have hlength : (Source.ofString text).lengthAt (d.line - 1 + 1) ≤ line.length :=
      lengthAt_le_of_rawLines hraw
    show d.column - 1 < _
    omega

/-! ### Machine words -/

/-- A machine word counted from 0 instead of 1; 0 stays 0. -/
def wordBelow (w : UInt64) : UInt64 := if w = 0 then 0 else w - 1

/-- Counting from 0 in machine words is counting from 0. -/
theorem toNat_wordBelow (w : UInt64) : (wordBelow w).toNat = w.toNat - 1 := by
  unfold wordBelow
  split
  · next hzero =>
    rw [hzero]
    rfl
  · next hpos =>
    have hone : 1 ≤ w.toNat := by
      rw [Nat.one_le_iff_ne_zero]
      exact fun hzero => hpos (UInt64.toNat_inj.mp hzero)
    exact UInt64.toNat_sub_of_le w 1 (UInt64.le_iff_toNat_le.mpr hone)

/-- What was counted from 0 can be counted from 1 again, without wrapping around. -/
theorem toNat_wordBelow_add_one (w : UInt64) :
    (wordBelow w + 1).toNat = (wordBelow w).toNat + 1 := by
  have hbound := w.toNat_lt
  rw [UInt64.toNat_add, toNat_wordBelow]
  exact Nat.mod_eq_of_lt (by show w.toNat - 1 + 1 < _; omega)

/-- **Numbers of a machine word** are written and read back. -/
theorem Json.asNat?_ofNat {n : Nat} (h : n < UInt64.size) : (ofNat n).asNat? = some n := by
  have hword : Number.ofInt (.ofNat n) = .natural n.toUInt64 := if_pos h
  show (Json.number (.ofInt (.ofNat n))).asNat? = some n
  rw [hword]
  exact congrArg some (UInt64.toNat_ofNat_of_lt' h)

/-! ### Reading back -/

theorem Severity.ofName?_key (severity : Severity) : ofName? severity.key = some severity := by
  cases severity <;> rfl

/-- A place in machine words. -/
structure EditorPosition.IsWords (p : EditorPosition) : Prop where
  line : p.line < UInt64.size
  column : p.column < UInt64.size

theorem EditorPosition.ofJson?_toJson {p : EditorPosition} (h : p.IsWords) :
    ofJson? p.toJson = some p := by
  have hline : p.toJson.member? "line" = some (.ofNat p.line) := rfl
  have hcolumn : p.toJson.member? "column" = some (.ofNat p.column) := rfl
  simp only [ofJson?, hline, hcolumn, Option.bind_eq_bind, Option.bind_some,
    Json.asNat?_ofNat h.line, Json.asNat?_ofNat h.column]
  rfl

/-- A report in machine words is read back with the text that was written for its path. -/
theorem EditorReport.ofJson?_toJsonWith {r : EditorReport} (hstart : r.start.IsWords)
    (hstop : r.stop.IsWords) (file : String) :
    ofJson? (r.toJsonWith file) = some { r with file := .ofText file } := by
  have hseverity : (r.toJsonWith file).member? "severity" = some (.string r.severity.key) := rfl
  have hfile : (r.toJsonWith file).member? "file" = some (.string file) := rfl
  have hfrom : (r.toJsonWith file).member? "start" = some r.start.toJson := rfl
  have hto : (r.toJsonWith file).member? "end" = some r.stop.toJson := rfl
  have hmessage : (r.toJsonWith file).member? "message" = some (.string r.message) := rfl
  have hcode : (r.toJsonWith file).member? "code" = some (.string r.code) := rfl
  simp only [ofJson?, hseverity, hfile, hfrom, hto, hmessage, hcode, Option.bind_eq_bind,
    Option.bind_some, Json.asString?, Json.asChoice?, Severity.ofName?_key,
    EditorPosition.ofJson?_toJson hstart, EditorPosition.ofJson?_toJson hstop]
  rfl

/-- **A report in machine words is read back** from what is written of it, if its path is a text. -/
theorem EditorReport.exists_written {r : EditorReport} (hstart : r.start.IsWords)
    (hstop : r.stop.IsWords) {file : String} (hfile : r.file = .ofText file) :
    ∃ json, r.toJson? = some json ∧ ofJson? json = some r := by
  refine ⟨r.toJsonWith file, ?_, ?_⟩
  · rw [toJson?, hfile, OsString.text?_ofText]
    rfl
  · rw [ofJson?_toJsonWith hstart hstop, ← hfile]

/-- **Fitting machine words**: the report of a diagnostic that stands at a line and column of any
two words. -/
structure EditorReport.FitsWords (file : OsString) (d : Diagnostic) (line column : UInt64) :
    Prop where
  /-- Counting from 0 stops at 0 and does not wrap around. -/
  start : (ofDiagnostic file d).start = ⟨(wordBelow line).toNat, (wordBelow column).toNat⟩
  /-- The first line or column is that of 1, and that of 0. -/
  counted : (ofDiagnostic file d).start.line + 1 = max 1 line.toNat ∧
    (ofDiagnostic file d).start.column + 1 = max 1 column.toNat
  /-- The next column is a word: adding does not wrap around. -/
  stop : (ofDiagnostic file d).stop =
    ⟨(wordBelow line).toNat, (wordBelow column + 1).toNat⟩
  /-- What is written is read back, and it is written if the path is a text. -/
  readBack : ∀ path, file = .ofText path → ∃ json,
    (ofDiagnostic file d).toJson? = some json ∧ ofJson? json = some (ofDiagnostic file d)
  /-- Else it is not written. -/
  refused : (∀ path, file ≠ .ofText path) → (ofDiagnostic file d).toJson? = none

theorem EditorReport.fitsWords (file : OsString) (d : Diagnostic) (line column : UInt64) :
    FitsWords file { d with line := line.toNat, column := column.toNat } line column := by
  have hstart : (ofDiagnostic file { d with line := line.toNat, column := column.toNat }).start =
      ⟨(wordBelow line).toNat, (wordBelow column).toNat⟩ := by
    rw [toNat_wordBelow, toNat_wordBelow]
    rfl
  have hstop : (ofDiagnostic file { d with line := line.toNat, column := column.toNat }).stop =
      ⟨(wordBelow line).toNat, (wordBelow column + 1).toNat⟩ := by
    rw [toNat_wordBelow_add_one, toNat_wordBelow, toNat_wordBelow]
    rfl
  refine ⟨hstart, ⟨?_, ?_⟩, hstop, fun path hpath => ?_,
    fun hfile => toJson?_eq_none_iff.mpr hfile⟩
  · show line.toNat - 1 + 1 = _
    omega
  · show column.toNat - 1 + 1 = _
    omega
  · refine exists_written ?_ ?_ hpath
    · rw [hstart]
      exact ⟨UInt64.toNat_lt _, UInt64.toNat_lt _⟩
    · rw [hstop]
      exact ⟨UInt64.toNat_lt _, UInt64.toNat_lt _⟩

/-! ### The reports of a text -/

/-- **Losing nothing**: what the editor reports of a text are. -/
structure LosesNothing (settings : Settings) (path : OsString) (text : String) : Prop where
  /-- There is one report for each diagnostic, in order, and it tells the diagnostic. -/
  tells : List.Forall₂ (fun d r => EditorReport.Tells path d r)
    (lintText settings path text).diagnostics (lintText settings path text).editorReports
  /-- Every report is inside the file. -/
  inside : ∀ r ∈ (lintText settings path text).editorReports, r.Inside text
  /-- The diagnostics of any machine words have a report that fits them. -/
  words : ∀ (d : Diagnostic) (line column : UInt64), EditorReport.FitsWords path
    { d with line := line.toNat, column := column.toNat } line column

/-- The diagnostics of a pass stand at places to show. -/
theorem shows_of_mem_verify {settings : Settings} {text : String} {d : Diagnostic}
    (h : d ∈ verify settings text) : (Source.ofString text).Shows d.line d.column := by
  obtain ⟨finding, severity, rfl⟩ := exists_finding_of_mem_verify h
  exact (Account.shows_diagnostic (Source.one_le_lastIndex text) finding severity).1

/-- **Editor reports lose nothing and stay in the file**, under any settings and path. -/
theorem editorReports_lossless (settings : Settings) (path : OsString) (text : String) :
    LosesNothing settings path text where
  tells := by
    refine List.forall₂_map_right_iff.mpr (List.forall₂_same.mpr fun d hd => ?_)
    have hshows := shows_of_mem_verify hd
    exact EditorReport.tells_ofDiagnostic path hshows.one_le_line hshows.one_le_column
  inside := by
    intro r hr
    obtain ⟨d, hd, rfl⟩ := List.mem_map.mp hr
    exact (shows_of_mem_verify hd).inside
  words := EditorReport.fitsWords path

/-- A path of one byte, which is no text: the report of the one diagnostic there is not written, so it
is not read back either. -/
theorem report_not_written :
    let reports := (lintText {} ⟨[0xFF]⟩ "'").editorReports
    reports.map (·.toJson?.isSome) = [false] ∧
      reports.map (·.toJson?.bind EditorReport.ofJson?) ≠ reports.map some := by
  decide +kernel

-- The first and the last word: no number below 0 and none above the last.
example : (EditorReport.ofDiagnostic "a" ⟨.error, .expectedA, "", 0, UInt64.size - 1, ""⟩).stop =
    ⟨0, UInt64.size - 1⟩ := rfl

end ScriptLint
