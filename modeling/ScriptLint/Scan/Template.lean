import ScriptLint.Scan.State

/-!
# Template literals in a scan

The text of a template is kept verbatim, over as many lines as it takes, up to the
closing backtick or the next interpolation.

## Main definitions

* `templateChunk` — the text that one line adds
* `State.templateText` — the text up to what stops it
-/

namespace ScriptLint

/-- What ends the text of a template on a line. -/
inductive TemplateStop
  /-- `${`. -/
  | interpolation
  /-- A backtick. -/
  | close
  /-- The end of the line. -/
  | lineEnd
deriving DecidableEq, Repr

/-- The template text at the start of a line, newest first after `taken`, up to a backtick
or `${`, which is left. A backslash takes the next character of its line with it. -/
def templateChunk (taken : List Char) : List Char → List Char × TemplateStop
  | [] => (taken, .lineEnd)
  | '\x60' :: _ => (taken, .close)
  | '$' :: '{' :: _ => (taken, .interpolation)
  | '\\' :: c :: rest => templateChunk (c :: '\\' :: taken) rest
  | c :: rest => templateChunk (c :: taken) rest

namespace State

/-- The text of a template up to what stops it, after the text on earlier lines, newest
first. Each line end in it counts as a newline. The result is the text, what stops it and
the state there, or the state at the end of the source. -/
def templateText (text : List Char) (s : State) :
    Except State (List Char × TemplateStop × State) :=
  let read := templateChunk [] s.rest
  if read.2 = .lineEnd then
    match _h : s.nextLine? with
    | some t => templateText ('\n' :: (read.1 ++ text)) t
    | none => .error s
  else .ok (read.1 ++ text, read.2, s.advance read.1.length)
termination_by s.below.length
decreasing_by exact below_of_nextLine? _h

/-! ### The stop is left -/

theorem length_templateChunk_lt {taken text : List Char}
    (hstop : (templateChunk taken text).2 ≠ .lineEnd) :
    (templateChunk taken text).1.length < taken.length + text.length := by
  fun_induction templateChunk taken text with
  | case1 => simp at hstop
  | case2 => simp
  | case3 => simp
  | case4 taken c rest ih =>
    have := ih hstop
    simp only [List.length_cons] at this ⊢
    omega
  | case5 taken c rest _ _ _ ih =>
    have := ih hstop
    simp only [List.length_cons] at this ⊢
    omega

theorem size_of_templateText {text text' : List Char} {stop : TemplateStop} {s t : State}
    (h : s.templateText text = .ok (text', stop, t)) : t.size ≤ s.size ∧ t.rest ≠ [] := by
  fun_induction templateText text s with
  | case1 text s read hread u hu ih =>
    have := size_of_nextLine? hu
    have := ih h
    exact ⟨by omega, this.2⟩
  | case2 => simp at h
  | case3 text s read hread =>
    simp only [Except.ok.injEq, Prod.mk.injEq] at h
    obtain ⟨-, -, rfl⟩ := h
    refine ⟨size_advance_le _ _, ?_⟩
    have : read.1.length < s.rest.length := by simpa [read] using length_templateChunk_lt hread
    simp only [advance, ne_eq, List.drop_eq_nil_iff]
    omega

end State

end ScriptLint
