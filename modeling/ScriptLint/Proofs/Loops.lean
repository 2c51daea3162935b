import ScriptLint.Scan

/-!
# Loops consume input

Every loop of a scan is the iteration of a **turn**, which ends the loop or goes on with
less of the input left.  The turns are written out here beside the loops, so that what is
said of a turn — how much it takes — is said of the body of the loop and not of its result.

A strand never backs up, so the characters left after a turn are what it leaves net.

## Main definitions

* `Turn` — the outcome of one turn
* `IsLoop` — a function that iterates a turn, of which each consumes
* `Strand.quotedTurn`, `Strand.classTurn`, `Strand.patternTurn`, `Strand.flagsTurn`,
  `templateTurn`, `State.templateLineTurn`, `State.commentLineTurn` — the turns

## Main statements

* `IsLoop.natural` — what commutes with the turns commutes with the loop
* `Strand.isLoop_quoted`, `Strand.isLoop_classMembers`, `Strand.isLoop_pattern` and so on —
  the loops are loops
-/

namespace ScriptLint

/-! ### Turns -/

/-- **Turn**: what one turn of a loop comes to. -/
inductive Turn (σ ρ : Type)
  /-- The loop goes on. -/
  | again (s : σ)
  /-- The loop ends. -/
  | done (r : ρ)

/-- **Loop**: a function that iterates a turn, and what is left of the input in the eyes of the
loop. -/
structure IsLoop {σ ρ : Type} (loop : σ → ρ) (turn : σ → Turn σ ρ) (left : σ → Nat) : Prop where
  /-- The loop is its turn, and itself again if that goes on. -/
  iterates : ∀ s, loop s =
    match turn s with
    | .again t => loop t
    | .done r => r
  /-- Every turn that goes on consumes. -/
  consumes : ∀ s t, turn s = .again t → left t < left s

/-- A loop that goes on is itself again. -/
theorem IsLoop.eq_of_again {σ ρ : Type} {loop : σ → ρ} {turn : σ → Turn σ ρ} {left : σ → Nat}
    (h : IsLoop loop turn left) {s t : σ} (hturn : turn s = .again t) : loop s = loop t := by
  rw [h.iterates, hturn]

/-- A turn with its outcomes mapped. -/
def Turn.map {σ σ' ρ ρ' : Type} (go : σ → σ') (result : ρ → ρ') : Turn σ ρ → Turn σ' ρ'
  | again s => again (go s)
  | done r => done (result r)

/-- **Loops go along with their turns**: maps that take each turn of a loop to one of another take
the loop to the other.  It is enough that they do so where a condition holds that the loop
keeps. -/
theorem IsLoop.natural_of {σ σ' ρ ρ' : Type} {loop : σ → ρ} {loop' : σ' → ρ'}
    {turn : σ → Turn σ ρ} {turn' : σ' → Turn σ' ρ'} {left : σ → Nat} {left' : σ' → Nat}
    (h : IsLoop loop turn left) (h' : IsLoop loop' turn' left') (go : σ → σ') (result : ρ → ρ')
    (P : σ → Prop) (hkeep : ∀ s t, P s → turn s = .again t → P t)
    (hturn : ∀ s, P s → turn' (go s) = (turn s).map go result) {s : σ} (hs : P s) :
    loop' (go s) = result (loop s) := by
  induction hleft : left s using Nat.strongRecOn generalizing s with
  | ind k ih =>
    rw [h'.iterates, h.iterates, hturn s hs]
    cases ht : turn s with
    | done r => rfl
    | again t => exact ih (left t) (hleft ▸ h.consumes s t ht) (hkeep s t hs ht) rfl

/-- The same without a condition. -/
theorem IsLoop.natural {σ σ' ρ ρ' : Type} {loop : σ → ρ} {loop' : σ' → ρ'} {turn : σ → Turn σ ρ}
    {turn' : σ' → Turn σ' ρ'} {left : σ → Nat} {left' : σ' → Nat} (h : IsLoop loop turn left)
    (h' : IsLoop loop' turn' left') {go : σ → σ'} {result : ρ → ρ'}
    (hturn : ∀ s, turn' (go s) = (turn s).map go result) (s : σ) :
    loop' (go s) = result (loop s) :=
  h.natural_of h' go result (fun _ => True) (fun _ _ _ _ => trivial) (fun s _ => hturn s) trivial

/-! ### Literals -/

namespace Strand

variable (around : Surroundings)

/-- One turn of the contents of a string: a character, an escape, or the closing quote. -/
def quotedTurn (quote : Char) (s : Strand) : Turn Strand (Reading Strand) :=
  match s.rest with
  | [] => .done (s.halt around .unclosedString (s.nextColumn around))
  | c :: _ =>
    if c = '\\' then
      match s.escape around [quote] with
      | .error halt => .done (.error halt)
      | .ok t => .again t
    else if c = quote then .done (.ok s)
    else
      .again (s.noteIf around (c == '\x60' && around.inTemplate) .unexpectedA
        (s.nextColumn around) ["\x60"]).take

theorem isLoop_quoted (quote : Char) :
    IsLoop (quoted around quote) (quotedTurn around quote) (·.rest.length) := by
  constructor
  case iterates =>
    intro s
    rw [quoted]
    split
    · next hs => simp [quotedTurn, hs]
    · next c rest hs =>
      split
      · next hc =>
        split
        · next he => simp [quotedTurn, hs, hc, he]
        · next he => simp [quotedTurn, hs, hc, he]
      · next hc =>
        split
        · next hq => simp [quotedTurn, hs, hq ▸ hc, hq]
        · next hq => simp [quotedTurn, hs, hc, hq]
  case consumes =>
    intro s t h
    unfold quotedTurn at h
    split at h
    · cases h
    · next c rest hs =>
      split at h
      · split at h
        · cases h
        · next u hu =>
          obtain rfl := Turn.again.inj h
          exact length_rest_of_escape around (by simp [hs]) hu
      · split at h
        · cases h
        · obtain rfl := Turn.again.inj h
          simp [hs]

/-- One turn of the members of a character class: a member, and a hyphen behind it, or the closing
bracket. -/
def classTurn (s : Bool × Strand) : Turn (Bool × Strand) (Reading Strand) :=
  match s.2.rest with
  | [] =>
    .done ((s.2.noteIf around s.1 .invalidRegex (s.2.lastColumn around) ["]"]).expect around ']')
  | c :: _ =>
    if c = ']' then
      .done (.ok (s.2.noteIf around s.1 .invalidRegex (s.2.lastColumn around) ["]"]).take)
    else
      match s.2.classAtom around c with
      | .error halt => .done (.error halt)
      | .ok t => if t.rest.head? = some '-' then .again (true, t.take) else .again (false, t)

theorem isLoop_classMembers :
    IsLoop (fun s => classMembers around s.1 s.2) (classTurn around) (·.2.rest.length) := by
  constructor
  case iterates =>
    rintro ⟨range, s⟩
    show classMembers around range s = _
    rw [classMembers]
    split
    · next hs => simp [classTurn, hs]
    · next c rest hs =>
      split
      · next hc => simp [classTurn, hs, hc]
      · next hc =>
        split
        · next ha => simp [classTurn, hs, hc, ha]
        · next ha =>
          split
          · next hhyphen => simp [classTurn, hs, hc, ha, hhyphen]
          · next hhyphen => simp [classTurn, hs, hc, ha, hhyphen]
  case consumes =>
    rintro ⟨range, s⟩ t h
    unfold classTurn at h
    split at h
    · cases h
    · next c rest hs =>
      have hne : s.rest ≠ [] := by simp [show s.rest = _ from hs]
      split at h
      · cases h
      · split at h
        · cases h
        · next u hu =>
          have hlt := length_rest_of_classAtom around hne hu
          split at h
          · obtain rfl := Turn.again.inj h
            show u.take.rest.length < s.rest.length
            rw [rest_take, List.length_tail]
            omega
          · obtain rfl := Turn.again.inj h
            exact hlt

/-- One turn of a pattern: a factor with its quantifier, or what opens or closes a group, or the
closing slash. -/
def patternTurn (s : Nat × Bool × Strand) :
    Turn (Nat × Bool × Strand) (Reading (Strand × Bool)) :=
  let (depth, anchored, s) := s
  match s.rest with
  | [] => .done (s.missing around (pattern.closing depth))
  | c :: _ =>
    if c = '/' ∧ depth = 0 then .done (.ok (s, anchored))
    else if c = ')' ∧ depth ≠ 0 then
      match s.take.quantifier around with
      | .error halt => .done (.error halt)
      | .ok t => .again (depth - 1, anchored, t)
    else if c = '/' ∨ c = ')' ∨ c = ']' then .done (s.missing around (pattern.closing depth))
    else if c = '(' then
      match s.groupOpening around with
      | .error halt => .done (.error halt)
      | .ok t => .again (depth + 1, anchored, t.noteEmptyGroup around)
    else
      match s.factor around c with
      | .error halt => .done (.error halt)
      | .ok t =>
        match t.quantifier around with
        | .error halt => .done (.error halt)
        | .ok u => .again (depth, anchored || s.anchorsLine c, u)

theorem isLoop_pattern :
    IsLoop (fun s => pattern around s.1 s.2.1 s.2.2) (patternTurn around)
      (·.2.2.rest.length) := by
  constructor
  case iterates =>
    rintro ⟨depth, anchored, s⟩
    show pattern around depth anchored s = _
    rw [pattern]
    split
    · next hs => simp [patternTurn, hs]
    · next c rest hs =>
      split
      · next hend => simp [patternTurn, hs, hend]
      · next hend =>
        split
        · next hclose =>
          split
          · next hq => simp [patternTurn, hs, hclose, hq]
          · next hq => simp [patternTurn, hs, hclose, hq]
        · next hclose =>
          split
          · next hstray => simp only [patternTurn, hs, hend, hclose, hstray, if_true, if_false]
          · next hstray =>
            split
            · next hopen =>
              split
              · next hg => simp [patternTurn, hs, hopen, hg]
              · next hg => simp [patternTurn, hs, hopen, hg]
            · next hopen =>
              split
              · next hf => simp only [patternTurn, hs, hend, hclose, hstray, hopen, hf, if_false]
              · next hf =>
                split
                · next hq =>
                  simp only [patternTurn, hs, hend, hclose, hstray, hopen, hf, hq, if_false]
                · next hq =>
                  simp only [patternTurn, hs, hend, hclose, hstray, hopen, hf, hq, if_false]
  case consumes =>
    rintro ⟨depth, anchored, s⟩ t h
    simp only [patternTurn] at h
    split at h
    · cases h
    · next c rest hs =>
      have hne : s.rest ≠ [] := by simp [show s.rest = _ from hs]
      have hlength : rest.length < s.rest.length := by simp [show s.rest = _ from hs]
      split at h
      · cases h
      · split at h
        · split at h
          · cases h
          · next u hu =>
            obtain rfl := Turn.again.inj h
            have hle := length_rest_of_quantifier around hu
            rw [rest_take, show s.rest = _ from hs, List.tail_cons] at hle
            exact Nat.lt_of_le_of_lt hle hlength
        · split at h
          · cases h
          · split at h
            · split at h
              · cases h
              · next u hu =>
                obtain rfl := Turn.again.inj h
                show (u.noteEmptyGroup around).rest.length < s.rest.length
                rw [rest_noteEmptyGroup]
                exact length_rest_of_groupOpening around hne hu
            · split at h
              · cases h
              · next u hu =>
                split at h
                · cases h
                · next v hv =>
                  obtain rfl := Turn.again.inj h
                  exact Nat.lt_of_le_of_lt (length_rest_of_quantifier around hv)
                    (length_rest_of_factor around hne hu)

/-- One turn of the flags: a letter, or what follows the last one. -/
def flagsTurn (body : String) (s : List Char × Strand) :
    Turn (List Char × Strand) (Strand × List Char) :=
  let (seen, s) := s
  match s.rest with
  | [] => .done (s, seen)
  | c :: _ =>
    if c.isAlpha then
      let bad := !patternFlags.contains c || seen.contains c
      .again (c :: seen,
        (s.noteIf around bad .invalidRegex (s.nextColumn around) [body, c.toString]).take)
    else .done (s, seen)

theorem isLoop_flags (body : String) :
    IsLoop (fun s => flags around body s.1 s.2) (flagsTurn around body) (·.2.rest.length) := by
  constructor
  case iterates =>
    rintro ⟨seen, s⟩
    show flags around body seen s = _
    rw [flags]
    split
    · next hs => simp [flagsTurn, hs]
    · next c rest hs =>
      split
      · next hc => simp [flagsTurn, hs, hc]
      · next hc => simp [flagsTurn, hs, hc]
  case consumes =>
    rintro ⟨seen, s⟩ t h
    simp only [flagsTurn] at h
    split at h
    · cases h
    · next c rest hs =>
      split at h
      · obtain rfl := Turn.again.inj h
        simp [show s.rest = _ from hs]
      · cases h

end Strand

/-! ### Templates and comments -/

/-- One turn of the text of a template on a line: a character, a backslash with the character
behind it, or what stops the text. -/
def templateTurn (s : List Char × List Char) :
    Turn (List Char × List Char) (List Char × TemplateStop) :=
  match s with
  | (taken, []) => .done (taken, .lineEnd)
  | (taken, '\x60' :: _) => .done (taken, .close)
  | (taken, '$' :: '\x7b' :: _) => .done (taken, .interpolation)
  | (taken, '\\' :: c :: rest) => .again (c :: '\\' :: taken, rest)
  | (taken, c :: rest) => .again (c :: taken, rest)

theorem isLoop_templateChunk :
    IsLoop (fun s => templateChunk s.1 s.2) templateTurn (·.2.length) := by
  constructor
  case iterates =>
    rintro ⟨taken, text⟩
    fun_cases templateTurn (taken, text)
    all_goals simp_all [templateChunk]
  case consumes =>
    intro s t h
    unfold templateTurn at h
    split at h
    case h_4 =>
      obtain rfl := Turn.again.inj h
      simp only [List.length_cons]
      omega
    case h_5 =>
      obtain rfl := Turn.again.inj h
      simp
    all_goals cases h

namespace State

/-- One turn of the text of a template over lines: what the line adds, and the next line unless the
text stops. -/
def templateLineTurn (s : List Char × State) :
    Turn (List Char × State) (Except State (List Char × TemplateStop × State)) :=
  let read := templateChunk [] s.2.rest
  if read.2 = .lineEnd then
    match s.2.nextLine? with
    | some t => .again ('\n' :: (read.1 ++ s.1), t)
    | none => .done (.error s.2)
  else .done (.ok (read.1 ++ s.1, read.2, s.2.advance read.1.length))

theorem isLoop_templateText :
    IsLoop (fun s => templateText s.1 s.2) templateLineTurn (·.2.size) := by
  constructor
  case iterates =>
    rintro ⟨text, s⟩
    show templateText text s = _
    rw [templateText]
    split
    · next hread =>
      split
      · next ht => simp [templateLineTurn, hread, ht]
      · next ht => simp [templateLineTurn, hread, ht]
    · next hread => simp [templateLineTurn, hread]
  case consumes =>
    rintro ⟨text, s⟩ t h
    unfold templateLineTurn at h
    extract_lets read at h
    split at h
    · split at h
      · next u hu =>
        obtain rfl := Turn.again.inj h
        exact size_of_nextLine? hu
      · cases h
    · cases h

/-- One turn of a block comment: what the line adds, and the next line unless the comment is
closed. -/
def commentLineTurn (s : List String × State) :
    Turn (List String × State) (Except State (String × State)) :=
  let (parts, s) := s
  match findPair '*' '/' s.rest with
  | some i =>
    let part := s.rest.take i
    let text := " ".intercalate (String.ofList part :: parts).reverse
    .done (.ok (text, (s.noteNestedLast part).advance (i + 2)))
  | none =>
    match (s.noteNested s.rest).nextLine? with
    | some t => .again (String.ofList s.rest :: parts, t)
    | none => .done (.error (s.noteNested s.rest))

theorem size_noteNested (s : State) (part : List Char) : (s.noteNested part).size = s.size := by
  unfold noteNested
  split <;> rfl

theorem isLoop_closeComment :
    IsLoop (fun s => closeComment s.1 s.2) commentLineTurn (·.2.size) := by
  constructor
  case iterates =>
    rintro ⟨parts, s⟩
    show closeComment parts s = _
    rw [closeComment]
    split
    · next i hi => simp [commentLineTurn, hi]
    · next hi =>
      extract_lets u
      split
      · next ht => simp [commentLineTurn, hi, show (s.noteNested s.rest).nextLine? = _ from ht]
      · next ht =>
        simp [commentLineTurn, hi, show (s.noteNested s.rest).nextLine? = _ from ht, u]
  case consumes =>
    rintro ⟨parts, s⟩ t h
    simp only [commentLineTurn] at h
    split at h
    · cases h
    · split at h
      · next u hu =>
        obtain rfl := Turn.again.inj h
        have hlt := size_of_nextLine? hu
        rwa [size_noteNested] at hlt
      · cases h

end State

end ScriptLint
