import ScriptLint.Proofs.Literal.Escaping

/-!
# The outline of a pattern

What a pattern is made of outside of its escapes and character classes: its **outline**.
Groups, their prefixes, and the slash that closes the pattern are in the outline; a
character that an escape takes is not, and neither is a member of a class nor the bracket
that closes one.

## Main definitions

* `Zone` — whether a character stands in an escape or a class
* `Zone.outline` — the characters outside of both
* `Nested` — parentheses of which some are still open
* `Patterned` — a pattern up to its closing slash
* `AnchorsInside` — a pattern that speaks of the ends of lines
* `RegexAhead` — a text that begins with a regular expression
* `Zone.Harmless` — a piece that adds no structure

## Main statements

* `Zone.exists_close` — a class that is closed has its bracket
* `Zone.Harmless.of_digits`, `Zone.Harmless.of_inert` — pieces that are harmless
* `RegexAhead.unique` — a text begins with one regular expression at most
-/

namespace ScriptLint

/-! ### Zones -/

/-- **Zone**: what the next character of a pattern stands in. -/
structure Zone where
  /-- How far an escape has come. -/
  stage : Stage := .outside
  /-- A character class is open. -/
  inClass : Bool := false
deriving DecidableEq, Repr

namespace Zone

/-- A character is **bare** if neither an escape nor a class takes it.  The bracket that opens a
class is. -/
def bares (zone : Zone) (c : Char) : Bool := !zone.inClass && !zone.stage.takes c

/-- The zone behind one more character.  An opening bracket that no escape takes opens a class, and
the next closing one that no escape takes closes it. -/
def after (zone : Zone) (c : Char) : Zone where
  stage := zone.stage.after c
  inClass :=
    if zone.stage.takes c then zone.inClass else if zone.inClass then c != ']' else c == '['

/-- The zone behind a text. -/
def behind (zone : Zone) (text : List Char) : Zone := text.foldl after zone

/-- The bare characters of a text. -/
def outline (zone : Zone) (text : List Char) : List Char := picked after bares zone text

@[simp] theorem behind_nil (zone : Zone) : zone.behind [] = zone := rfl

@[simp] theorem behind_cons (zone : Zone) (c : Char) (text : List Char) :
    zone.behind (c :: text) = (zone.after c).behind text := rfl

@[simp] theorem behind_append (zone : Zone) (front back : List Char) :
    zone.behind (front ++ back) = (zone.behind front).behind back :=
  List.foldl_append

@[simp] theorem stage_behind (zone : Zone) (text : List Char) :
    (zone.behind text).stage = zone.stage.behind text := by
  induction text generalizing zone with
  | nil => rfl
  | cons c text ih => exact ih (zone.after c)

@[simp] theorem outline_nil (zone : Zone) : zone.outline [] = [] := rfl

@[simp] theorem outline_append (zone : Zone) (front back : List Char) :
    zone.outline (front ++ back) = zone.outline front ++ (zone.behind front).outline back :=
  picked_append zone front back

theorem outline_cons_of_bares {zone : Zone} {c : Char} (h : zone.bares c = true)
    (text : List Char) : zone.outline (c :: text) = c :: (zone.after c).outline text := by
  simp [outline, picked, h]

theorem outline_cons_of_not_bares {zone : Zone} {c : Char} (h : zone.bares c = false)
    (text : List Char) : zone.outline (c :: text) = (zone.after c).outline text := by
  simp [outline, picked, h]

/-- A character is in the outline of a text if it is bare at one of its places. -/
theorem mem_outline_iff {zone : Zone} {text : List Char} {c : Char} :
    c ∈ zone.outline text ↔
      ∃ front back, text = front ++ c :: back ∧ (zone.behind front).bares c = true :=
  mem_picked_iff

/-- Behind a character that no escape takes only a class may be open. -/
theorem after_of_not_takes {zone : Zone} {c : Char} (h : zone.stage.takes c = false) :
    zone.after c = { inClass := if zone.inClass then c != ']' else c == '[' } := by
  rw [after, Stage.after_of_not_takes h, if_neg (by simp [h])]

/-- Behind a bare character nothing is open, but for a class that a bracket opens. -/
theorem after_of_bares {zone : Zone} {c : Char} (h : zone.bares c = true) :
    zone.after c = { inClass := c == '[' } := by
  obtain ⟨hclass, htakes⟩ : zone.inClass = false ∧ zone.stage.takes c = false := by
    simpa [bares] using h
  rw [after_of_not_takes htakes, hclass]
  rfl

theorem mem_of_mem_outline {zone : Zone} {text : List Char} {c : Char}
    (h : c ∈ zone.outline text) : c ∈ text := by
  obtain ⟨front, back, rfl, -⟩ := mem_outline_iff.mp h
  simp

/-- A text whose loose characters are no brackets leaves a class open or closed; what it adds to
the outline is loose, and in a class it adds nothing. -/
theorem keeps_class {zone : Zone} {text : List Char}
    (h : ∀ c ∈ zone.stage.loose text, c ≠ '[' ∧ c ≠ ']') :
    (zone.behind text).inClass = zone.inClass ∧
      zone.outline text = if zone.inClass then [] else zone.stage.loose text := by
  induction text generalizing zone with
  | nil => simp
  | cons c text ih =>
    cases htakes : zone.stage.takes c with
    | true =>
      rw [Stage.loose_cons_of_takes htakes] at h ⊢
      have hclass : (zone.after c).inClass = zone.inClass := if_pos htakes
      have hbares : zone.bares c = false := by
        simp [bares, htakes]
      obtain ⟨hsame, houtline⟩ := @ih (zone.after c) h
      rw [behind_cons, outline_cons_of_not_bares hbares, hsame, houtline, hclass]
      exact ⟨rfl, rfl⟩
    | false =>
      rw [Stage.loose_cons_of_not_takes htakes] at h ⊢
      obtain ⟨⟨hopen, hclose⟩, h⟩ := List.forall_mem_cons.mp h
      have hclass : (zone.after c).inClass = zone.inClass := by
        rw [after_of_not_takes htakes]
        cases zone.inClass <;> simp [hopen, hclose]
      obtain ⟨hsame, houtline⟩ := @ih (zone.after c) h
      rw [behind_cons, hsame, hclass]
      refine ⟨rfl, ?_⟩
      cases hin : zone.inClass with
      | true =>
        rw [outline_cons_of_not_bares (by simp [bares, hin]), houtline, hclass, hin]
        rfl
      | false =>
        rw [outline_cons_of_bares (by simp [bares, hin, htakes]), houtline, hclass, hin]
        rfl

/-- **A class that is open** where a text begins and closed where it ends has its closing bracket in
the text. -/
theorem exists_close {zone : Zone} {text : List Char} (hopen : zone.inClass = true)
    (hclosed : (zone.behind text).inClass = false) :
    ∃ members back, text = members ++ ']' :: back ∧ ']' ∉ zone.stage.loose members ∧
      (zone.stage.behind members).takes ']' = false := by
  induction text generalizing zone with
  | nil => exact absurd (hopen.symm.trans hclosed) (by simp)
  | cons c text ih =>
    by_cases hends : zone.stage.takes c = false ∧ c = ']'
    · obtain ⟨htakes, rfl⟩ := hends
      exact ⟨[], text, rfl, by simp, htakes⟩
    · have hstill : (zone.after c).inClass = true := by
        cases htakes : zone.stage.takes c with
        | true => simp [after, htakes, hopen]
        | false => simpa [after, htakes, hopen] using hends
      obtain ⟨members, back, rfl, hnone, htakes⟩ := ih hstill hclosed
      refine ⟨c :: members, back, rfl, ?_, htakes⟩
      cases hc : zone.stage.takes c with
      | true =>
        rw [Stage.loose_cons_of_takes hc]
        exact hnone
      | false =>
        rw [Stage.loose_cons_of_not_takes hc, List.mem_cons, not_or]
        exact ⟨fun heq => hends ⟨hc, heq.symm⟩, hnone⟩

/-- A bare bracket that opens a class has the one that closes it, if no class is open at the end. -/
theorem exists_close_of_bares {zone : Zone} {front back : List Char}
    (hbares : (zone.behind front).bares '[' = true)
    (hclosed : (zone.behind (front ++ '[' :: back)).inClass = false) :
    ∃ members rest, back = members ++ ']' :: rest ∧ ']' ∉ Stage.outside.loose members ∧
      (Stage.outside.behind members).takes ']' = false := by
  rw [behind_append, behind_cons, after_of_bares hbares] at hclosed
  exact exists_close rfl hclosed

end Zone

/-! ### Nesting -/

/-- **Nested parentheses**: never are more closed than were opened, and `depth` of them are open at
the end. -/
structure Nested (depth : Nat) (word : List Char) : Prop where
  count : word.count '(' = word.count ')' + depth
  front : ∀ front, front <+: word → front.count ')' ≤ front.count '('

namespace Nested

variable {depth : Nat} {word : List Char}

theorem nil : Nested 0 [] := by
  refine ⟨rfl, fun front h => ?_⟩
  rw [List.prefix_nil.mp h]
  exact Nat.le_refl _

/-- One more character is right if its count is. -/
theorem concat {depth' : Nat} (h : Nested depth word) {c : Char}
    (hcount : (word ++ [c]).count '(' = (word ++ [c]).count ')' + depth') :
    Nested depth' (word ++ [c]) := by
  refine ⟨hcount, fun front hfront => ?_⟩
  rcases List.prefix_concat_iff.mp hfront with rfl | hfront
  · rw [hcount]
    exact Nat.le_add_right _ _
  · exact h.front front hfront

theorem opened (h : Nested depth word) : Nested (depth + 1) (word ++ ['(']) := by
  refine h.concat ?_
  rw [List.count_append, List.count_append, h.count]
  rfl

theorem closed (h : Nested (depth + 1) word) : Nested depth (word ++ [')']) := by
  refine h.concat ?_
  rw [List.count_append, List.count_append, h.count]
  show _ + (depth + 1) + 0 = _ + 1 + depth
  omega

/-- What is no parenthesis changes nothing. -/
theorem append_plain (h : Nested depth word) {more : List Char} (hopen : '(' ∉ more)
    (hclose : ')' ∉ more) : Nested depth (word ++ more) := by
  induction more generalizing word with
  | nil => rwa [List.append_nil]
  | cons c more ih =>
    rw [List.mem_cons, not_or] at hopen hclose
    rw [List.append_cons]
    refine ih (h.concat ?_) hopen.2 hclose.2
    rw [List.count_append, List.count_append, h.count, List.count_singleton, List.count_singleton,
      if_neg (by simpa using Ne.symm hopen.1), if_neg (by simpa using Ne.symm hclose.1)]
    rfl

end Nested

/-! ### Harmless pieces -/

/-- **Anchors**: the characters that stand for the beginning and the end of a line. -/
def anchors : List Char := ['$', '^']

/-- Parentheses, the slash that closes a pattern and the bracket that closes a class. -/
def delimiters : List Char := ['(', ')', '/', ']']

/-- The characters that make the structure of a pattern. -/
def structural : List Char := delimiters ++ anchors

/-- **Harmless**: a piece of a pattern, or of a class in it, that adds no structure to the outline,
leaves a class open or closed as it was, and leaves its last escape. -/
structure Zone.Harmless (zone : Zone) (allowed piece rest : List Char) : Prop where
  plain : ∀ c ∈ zone.outline piece, c ∉ structural
  inClass : (zone.behind piece).inClass = zone.inClass
  released : (zone.behind piece).stage.Released allowed rest

namespace Zone.Harmless

variable {zone : Zone} {allowed piece piece' rest rest' : List Char} {c : Char}

theorem nil (h : zone.stage.Released allowed rest) : zone.Harmless allowed [] rest :=
  ⟨by simp, rfl, h⟩

theorem append (h : zone.Harmless allowed piece rest)
    (h' : (zone.behind piece).Harmless allowed piece' rest') :
    zone.Harmless allowed (piece ++ piece') rest' := by
  obtain ⟨hplain', hclass', hreleased'⟩ := h'
  rw [← behind_append] at hclass' hreleased'
  refine ⟨?_, hclass'.trans h.inClass, hreleased'⟩
  rw [outline_append, List.forall_mem_append]
  exact ⟨h.plain, hplain'⟩

/-- A single character that begins no escape: in a class not its end, outside none of the structure
and not the beginning of a class. -/
theorem single (hreleased : zone.stage.Released allowed (c :: rest')) (hslash : c ≠ '\\')
    (hc : zone.inClass = true ∧ c ≠ ']' ∨ zone.inClass = false ∧ c ∉ '[' :: structural) :
    zone.Harmless allowed [c] rest := by
  refine ⟨?_, ?_, ?_⟩
  · intro d hd
    obtain rfl := List.mem_singleton.mp (mem_of_mem_outline hd)
    obtain ⟨front, back, heq, hbares⟩ := mem_outline_iff.mp hd
    obtain rfl : front = [] := by
      cases front with
      | nil => rfl
      | cons e front => simp at heq
    rcases hc with ⟨hin, -⟩ | ⟨-, hplain⟩
    · simp [bares, hin] at hbares
    · exact fun hmem => hplain (List.mem_cons_of_mem _ hmem)
  · show (if zone.stage.takes c then zone.inClass
      else if zone.inClass then c != ']' else c == '[') = zone.inClass
    rcases hc with ⟨hin, hne⟩ | ⟨hin, hplain⟩
    · simp [hin, hne]
    · have hne : c ≠ '[' := fun heq => hplain (heq ▸ List.mem_cons_self)
      simp [hin, hne]
  · show (zone.stage.after c).Released allowed rest
    rw [hreleased.after_of_ne hslash]
    exact .outside _ _

/-- What an escape takes, with the digits behind it. -/
theorem of_digits (hloose : ∀ c ∈ zone.stage.loose piece, isHexDigit c = true)
    (hreleased : (zone.stage.behind piece).Released allowed rest) :
    zone.Harmless allowed piece rest := by
  have hbrackets : ∀ c ∈ zone.stage.loose piece, c ≠ '[' ∧ c ≠ ']' := fun c hc =>
    ⟨ne_of_isHexDigit (hloose c hc) (by decide), ne_of_isHexDigit (hloose c hc) (by decide)⟩
  obtain ⟨hclass, houtline⟩ := keeps_class hbrackets
  refine ⟨?_, hclass, by rwa [stage_behind]⟩
  intro c hc hmem
  have hdigit : isHexDigit c = true := by
    rw [houtline] at hc
    split at hc
    · cases hc
    · exact hloose c hc
  have hnone : structural.all (!isHexDigit ·) = true := by decide
  have hnot := List.all_eq_true.mp hnone c hmem
  rw [hdigit] at hnot
  cases hnot

end Zone.Harmless

/-- **Inert characters** begin no escape and no class and are none of the structure. -/
def Inert (c : Char) : Prop := c ∉ '\\' :: '[' :: structural

instance : DecidablePred Inert := fun _ => inferInstanceAs (Decidable (_ ∉ _))

/-- A run of inert characters is harmless outside of classes. -/
theorem Zone.Harmless.of_inert {zone : Zone} {allowed piece rest : List Char}
    (hclass : zone.inClass = false) (hreleased : zone.stage.Released allowed (piece ++ rest))
    (hpiece : ∀ c ∈ piece, Inert c) : zone.Harmless allowed piece rest := by
  induction piece generalizing zone with
  | nil => exact .nil hreleased
  | cons c piece ih =>
    obtain ⟨hc, hpiece⟩ := List.forall_mem_cons.mp hpiece
    obtain ⟨hslash, hplain⟩ := not_or.mp (List.mem_cons.not.mp hc)
    have hfirst : zone.Harmless allowed [c] (piece ++ rest) :=
      .single hreleased hslash (.inr ⟨hclass, hplain⟩)
    exact hfirst.append (ih (hfirst.inClass.trans hclass) hfirst.released hpiece)

/-- Digits are inert. -/
theorem inert_of_isDigit {c : Char} (h : c.isDigit = true) : Inert c := by
  intro hmem
  have hnone : ('\\' :: '[' :: structural).all (!Char.isDigit ·) = true := by decide
  have hnot := List.all_eq_true.mp hnone c hmem
  rw [h] at hnot
  cases hnot

/-! ### The pattern between its slashes -/

/-- **A pattern between its slashes**: what `body` is if the closing slash stands behind it. -/
structure Patterned (body : List Char) : Prop where
  /-- The closing slash is bare. -/
  slash : (({} : Zone).behind body).bares '/' = true
  /-- It is the first one. -/
  first : '/' ∉ ({} : Zone).outline body
  /-- Outside of escapes and classes parentheses are balanced and never close more than was
  opened. -/
  balanced : Nested 0 (({} : Zone).outline body)
  /-- A bracket that opens a class has the one that closes it. -/
  classes : ∀ front back, body = front ++ '[' :: back →
    (({} : Zone).behind front).bares '[' = true →
    ∃ members rest, back = members ++ ']' :: rest ∧ ']' ∉ Stage.outside.loose members ∧
      (Stage.outside.behind members).takes ']' = false
  /-- No other closing bracket stands outside of escapes and classes. -/
  noBracket : ']' ∉ ({} : Zone).outline body
  /-- What starts with `?` behind the parenthesis of a group is `?:`, `?=` or `?!`. -/
  prefixes : ∀ front back, body = front ++ '(' :: '?' :: back →
    (({} : Zone).behind front).bares '(' = true → ∃ c ∈ [':', '=', '!'], back.head? = some c

/-- **Anchors inside**: outside of escapes and classes a `$` that is not the last character of the
pattern, or a `^` that is not the first. -/
def AnchorsInside (body : List Char) : Prop :=
  ∃ front c back, body = front ++ c :: back ∧ (({} : Zone).behind front).bares c = true ∧
    (c = '$' ∧ back ≠ [] ∨ c = '^' ∧ front ≠ [])

/-- **A regular expression ahead**: a text begins with a pattern between slashes and a run of
letters, its flags.  Neither a slash nor a star comes next. -/
structure RegexAhead (text body flags back : List Char) : Prop where
  text_eq : text = '/' :: (body ++ '/' :: (flags ++ back))
  patterned : Patterned body
  letters : ∀ c ∈ flags, c.isAlpha = true
  next : ∀ c ∈ back.head?, c.isAlpha = false ∧ c ≠ '/' ∧ c ≠ '*'

/-- Of two patterns up to a closing slash none goes on behind the slash of the other. -/
theorem Patterned.length_le {body body' rest rest' : List Char} (h : Patterned body)
    (h' : Patterned body') (heq : body ++ '/' :: rest = body' ++ '/' :: rest') :
    body'.length ≤ body.length := by
  by_contra hlonger
  have hclosed : body ++ ['/'] <+: body' ++ '/' :: rest' := ⟨rest, by simp [heq]⟩
  obtain ⟨more, rfl⟩ := List.prefix_of_prefix_length_le hclosed (List.prefix_append _ _) (by
    rw [List.length_append]
    exact Nat.not_le.mp hlonger)
  -- The slash that closes the shorter one would be bare in the longer one.
  exact h'.first (Zone.mem_outline_iff.mpr ⟨body, more, by simp, h.slash⟩)

/-- **A text begins with one regular expression** at most. -/
theorem RegexAhead.unique {text body flags back body' flags' back' : List Char}
    (h : RegexAhead text body flags back) (h' : RegexAhead text body' flags' back') :
    body = body' ∧ flags = flags' ∧ back = back' := by
  have heq : body ++ '/' :: (flags ++ back) = body' ++ '/' :: (flags' ++ back') :=
    (List.cons.inj (h.text_eq.symm.trans h'.text_eq)).2
  have hlength : body.length = body'.length :=
    Nat.le_antisymm (h'.patterned.length_le h.patterned heq.symm)
      (h.patterned.length_le h'.patterned heq)
  obtain ⟨rfl, hrest⟩ := List.append_inj heq hlength
  have hletters : flags ++ back = flags' ++ back' := (List.cons.inj hrest).2
  have hrun {flags back : List Char} (hall : ∀ c ∈ flags, c.isAlpha = true)
      (hnext : ∀ c ∈ back.head?, c.isAlpha = false) :
      (flags ++ back).takeWhile Char.isAlpha = flags := by
    rw [List.takeWhile_append_of_pos hall]
    cases back with
    | nil => simp
    | cons c back => simp [hnext c rfl]
  have hflags : flags = flags' := by
    rw [← hrun h.letters fun c hc => (h.next c hc).1, hletters,
      hrun h'.letters fun c hc => (h'.next c hc).1]
  subst hflags
  exact ⟨rfl, rfl, List.append_cancel_left hletters⟩

end ScriptLint
