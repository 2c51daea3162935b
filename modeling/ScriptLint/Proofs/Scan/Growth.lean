import ScriptLint.Proofs.Scan.Additions
import ScriptLint.Proofs.Scan.Placement

/-!
# Tokens are never taken back

A scan adds tokens and forgets none, whatever a step ends in.  What a step adds stops on the
line on which the step ends, and where a step fails it adds no comment.  So every token of a
scan was once the newest, and if the first token is a comment then the scan stood behind it
with nothing else read.

## Main statements

* `Track.tokens_of_leg` — a leg adds tokens that stop on the line it ends on
* `State.tokens_step` — no step takes a token back
* `State.tokens_run` — no run takes a token back
* `State.exists_first_comment` — a scan that begins with a comment stands behind it
-/

namespace ScriptLint

open Track

/-- A leg adds tokens that stop on the line it ends on. -/
theorem Track.tokens_of_leg {s u : Track} (h : Leg s u) :
    ∃ new, u.tokens = new ++ s.tokens ∧ ∀ t ∈ new, t.stop.line = u.line := by
  have hstops {s u : Track} {t : Token} (hspans : Spans s u t) : t.stop.line = (u.add t).line :=
    congrArg Position.line hspans.stop
  have hlexeme {s u : Track} (hlex : Lexeme s u) :
      ∃ t, u.tokens = t :: s.tokens ∧ t.stop.line = u.line := by
    obtain @⟨n, t, -, -, hspans, -, -⟩ := hlex
    exact ⟨t, rfl, hstops hspans⟩
  cases h with
  | move _ hmove =>
    cases hmove with
    | line _ _ => exact ⟨[], rfl, by simp⟩
    | blanks _ _ _ => exact ⟨[], rfl, by simp⟩
    | lexeme hlex =>
      obtain ⟨t, htokens, ht⟩ := hlexeme hlex
      exact ⟨[t], htokens, List.forall_mem_singleton.mpr ht⟩
    | @lineComment value t _ hspans _ _ =>
      exact ⟨[t], rfl, List.forall_mem_singleton.mpr (hstops hspans)⟩
    | @blockComment text v n t _ hcross _ hspans _ =>
      refine ⟨[t], ?_, List.forall_mem_singleton.mpr (hstops hspans)⟩
      exact congrArg (t :: ·) (crosses_tokens (s := s.advance 2) (t := v) hcross)
  | @template v _ hpart hstop =>
    obtain ⟨x, htokens, hx⟩ := hlexeme hstop
    have hline : v.line = u.line := by
      obtain ⟨-, -, -, -, -⟩ := hstop
      rfl
    obtain @⟨w, n, t, opening, -, hcross, -, hspans, -, -⟩ := hpart
    refine ⟨[x, t], ?_, ?_⟩
    · rw [htokens, show ((w.advance n).add t).tokens = t :: w.tokens from rfl,
        crosses_tokens hcross]
      rfl
    · have ht : t.stop.line = u.line := (hstops hspans).trans hline
      simpa using ⟨hx, ht⟩

theorem Track.line_le_of_leg {s u : Track} (h : Leg s u) : s.line ≤ u.line :=
  Position.line_le_of_le (position_lt_of_leg h).le

namespace State

variable {s t : State}

/-- The last step of a scan adds no token, or one that is no comment. -/
theorem tokens_of_last (h : ∀ t, s.step ≠ .next t) :
    s.step.state.tokens = s.tokens ∨
      ∃ new : Token, new.kind ≠ .comment ∧ s.step.state.tokens = new :: s.tokens := by
  cases hstep : s.step with
  | next t => exact absurd hstep (h t)
  | completed t =>
    obtain ⟨-, -, -, e, heof, -, htrack⟩ := completed_of_step hstep
    exact .inr ⟨e, by simp [heof], congrArg Track.tokens htrack⟩
  | failed t fault =>
    cases stops_of_step hstep with
    | @crossing n u hle hcross => exact .inl (crosses_tokens (s := s.track.advance n) hcross)
    | lexeme hlex =>
      generalize hu : t.track = u at hlex
      obtain @⟨n, new, -, -, -, hspelled, -⟩ := hlex
      refine .inr ⟨new, ?_, congrArg Track.tokens hu⟩
      cases hspelled with
      | verbatim hkind _ =>
        intro hcomment
        rw [hcomment] at hkind
        cases hkind
      | quoted quote _ hkind _ _ =>
        rw [hkind]
        decide

/-- **No step takes a token back**, whatever its outcome. -/
theorem tokens_step (s : State) : s.tokens <:+ s.step.state.tokens := by
  by_cases hnext : ∃ t, s.step = .next t
  · obtain ⟨t, hstep⟩ := hnext
    obtain ⟨new, hnew, -⟩ := tokens_of_leg (leg_of_step hstep)
    rw [hstep]
    exact ⟨new, hnew.symm⟩
  · rcases tokens_of_last (not_exists.mp hnext) with htokens | ⟨new, -, htokens⟩
    · exact htokens ▸ List.suffix_refl _
    · exact htokens ▸ List.suffix_cons new _

/-- **No run takes a token back.** -/
theorem tokens_run (s : State) : s.tokens <:+ s.run.1.tokens :=
  run_keeps (P := fun u => s.tokens <:+ u.tokens) (fun u hu => hu.trans u.tokens_step)
    (List.suffix_refl _)

theorem tokens_of_reaches (h : Reaches s t) : s.tokens <:+ t.tokens :=
  h.keeps (P := fun u => s.tokens <:+ u.tokens) (fun u hu => hu.trans u.tokens_step)
    (List.suffix_refl _)

/-- The first token of a scan is read in a step that adds no other, unless it is text of a
template. -/
theorem tokens_of_reaches_initial {lines : List Line} (h : Reaches (.initial lines) s) :
    s.tokens = [] ∨ ∃ u first, Reaches (.initial lines) u ∧ Reaches u s ∧ u.tokens = [first] ∧
      u.line = first.stop.line := by
  induction h with
  | refl => exact .inl (tokens_initial lines)
  | @tail u v hreach hstep ih =>
    rcases ih with hnone | ⟨w, first, hw, hon, htokens⟩
    · have hmode : u.mode = .code := by
        rw [mode_of_reaches hreach, hnone]
        rfl
      obtain ⟨new, hnew, hstops⟩ := tokens_of_leg (leg_of_step hstep)
      cases adds_of_step hstep with
      | none htokens => exact .inl (htokens.trans hnone)
      | @read _ first _ _ htokens =>
        rw [hnone] at htokens
        refine .inr ⟨v, first, hreach.tail hstep, .refl, htokens, ?_⟩
        refine (hstops first ?_).symm
        have hsame : new ++ u.tokens = v.tokens := hnew.symm
        rw [hnone, List.append_nil] at hsame
        rw [hsame, htokens]
        exact List.mem_singleton.mpr rfl
      | part hopen =>
        rw [hmode] at hopen
        cases hopen
    · exact .inr ⟨w, first, hw, hon.tail hstep, htokens⟩

/-- The last step of a run ends in its last state. -/
theorem exists_last (s : State) :
    ∃ t, Reaches s t ∧ (∀ u, t.step ≠ .next u) ∧ s.run.1 = t.step.state := by
  obtain ⟨t, hreach, ⟨u, hstep, hrun⟩ | ⟨u, fault, hstep, hrun⟩⟩ := run_outcome s
  · refine ⟨t, hreach, ?_, ?_⟩
    · simp [hstep]
    · rw [hrun, hstep]
      rfl
  · refine ⟨t, hreach, ?_, ?_⟩
    · simp [hstep]
    · rw [hrun, hstep]
      rfl

/-- **A scan that begins with a comment** stands behind it with no other token read. -/
theorem exists_first_comment {lines : List Line} {first : Token} {newer : List Token}
    (htokens : (initial lines).run.1.tokens = newer ++ [first]) (hkind : first.kind = .comment) :
    ∃ u, Reaches (.initial lines) u ∧ u.tokens = [first] ∧ u.line = first.stop.line := by
  obtain ⟨w, hreach, hlast, hrun⟩ := exists_last (initial lines)
  rcases tokens_of_reaches_initial hreach with hnone | ⟨u, x, hu, -, hx, hline⟩
  · -- The first token would be that of the last step, which adds no comment.
    exfalso
    rw [hrun] at htokens
    rcases tokens_of_last hlast with hsame | ⟨e, he, hadded⟩
    · rw [hsame, hnone] at htokens
      simp at htokens
    · rw [hadded, hnone, ← List.nil_append [e]] at htokens
      obtain ⟨-, hfirst⟩ := List.append_inj' htokens rfl
      obtain rfl := (List.cons.inj hfirst).1
      exact he hkind
  · have hkept : u.tokens <:+ (initial lines).run.1.tokens := run_of_reaches hu ▸ u.tokens_run
    rw [htokens, hx] at hkept
    obtain ⟨front, hfront⟩ := hkept
    obtain ⟨-, hfirst⟩ := List.append_inj' hfront rfl
    obtain rfl := (List.cons.inj hfirst).1
    exact ⟨u, hu, hx, hline⟩

end State

end ScriptLint
