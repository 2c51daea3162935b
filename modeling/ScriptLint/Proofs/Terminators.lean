import ScriptLint.Proofs.Regions

/-!
# Line terminators

A line ends in a line feed, a carriage return, or the two in that order.  A text is **unified**
when every terminator is written as a line feed.  The physical lines of a text are then what its
unified form is split into at line feeds, so they can be joined again without loss, and the
terminators that a text is written with make no difference to a pass.

## Main definitions

* `feedPairs` — a line feed for every pair of carriage return and line feed
* `unifyTerminators`, `unified` — a line feed for every terminator
* `SplitsAtTerminators` — what the terminators of a text are to its lines and its passes

## Main statements

* `physicalLines_eq_splitOn` — the physical lines are the pieces between line feeds
* `splits_at_terminators` — lines hold no terminator, join to the unified text, and decide alone
-/

namespace ScriptLint

/-! ### Unified texts -/

/-- A line feed for every carriage return and line feed that follow each other. -/
def feedPairs : List Char → List Char
  | '\r' :: '\n' :: rest => '\n' :: feedPairs rest
  | c :: rest => c :: feedPairs rest
  | [] => []

/-- A line feed for a carriage return. -/
def feedReturn (c : Char) : Char := if c = '\r' then '\n' else c

/-- **Unifying terminators**: pairs first, then the carriage returns that remain. -/
def unifyTerminators (text : List Char) : List Char := (feedPairs text).map feedReturn

/-- A text with a line feed for every terminator. -/
def unified (text : String) : String := String.ofList (unifyTerminators text.toList)

theorem toList_unified (text : String) : (unified text).toList = unifyTerminators text.toList :=
  String.toList_ofList

theorem feedReturn_ne_return (c : Char) : feedReturn c ≠ '\r' := by
  unfold feedReturn
  split
  · decide
  · assumption

theorem feedReturn_eq_self {c : Char} (h : c ≠ '\r') : feedReturn c = c := if_neg h

@[simp] theorem unifyTerminators_nil : unifyTerminators [] = [] := rfl

@[simp] theorem unifyTerminators_pair (rest : List Char) :
    unifyTerminators ('\r' :: '\n' :: rest) = '\n' :: unifyTerminators rest := rfl

/-- Outside of pairs a text is unified one character at a time. -/
theorem unifyTerminators_cons {c : Char} {rest : List Char}
    (h : ∀ below, c = '\r' → rest ≠ '\n' :: below) :
    unifyTerminators (c :: rest) = feedReturn c :: unifyTerminators rest := by
  unfold unifyTerminators
  rw [feedPairs, List.map_cons]
  exact h

/-- A unified text has no carriage return. -/
theorem return_not_mem_unifyTerminators (text : List Char) : '\r' ∉ unifyTerminators text := by
  intro h
  obtain ⟨c, -, hc⟩ := List.mem_map.mp h
  exact feedReturn_ne_return c hc

/-- A text without carriage returns is unified as it stands. -/
theorem unifyTerminators_eq_self {text : List Char} (h : '\r' ∉ text) :
    unifyTerminators text = text := by
  induction text with
  | nil => rfl
  | cons c rest ih =>
    have hc : c ≠ '\r' := fun hc => h (hc ▸ List.mem_cons_self)
    have hrest : '\r' ∉ rest := fun hrest => h (List.mem_cons_of_mem c hrest)
    rw [unifyTerminators_cons fun _ hr => absurd hr hc, feedReturn_eq_self hc, ih hrest]

theorem unifyTerminators_idem (text : List Char) :
    unifyTerminators (unifyTerminators text) = unifyTerminators text :=
  unifyTerminators_eq_self (return_not_mem_unifyTerminators text)

/-! ### Pieces of a list -/

/-- What a list holds after its first element changed is that element or one of the others. -/
theorem exists_of_mem_modifyHead {α : Type*} {f : α → α} {l : List α} {x : α}
    (h : x ∈ l.modifyHead f) : ∃ y ∈ l, x = y ∨ x = f y := by
  cases l with
  | nil => cases h
  | cons y l =>
    rcases List.mem_cons.mp h with rfl | h
    · exact ⟨y, List.mem_cons_self, .inr rfl⟩
    · exact ⟨x, List.mem_cons_of_mem y h, .inl rfl⟩

section

variable {α : Type*} [BEq α] [LawfulBEq α] {a : α}

/-- What stands in a piece stands in the list and is no separator. -/
theorem of_mem_splitOn {list piece : List α} (h : piece ∈ list.splitOn a) {b : α}
    (hb : b ∈ piece) : b ≠ a ∧ b ∈ list := by
  induction list generalizing piece with
  | nil =>
    rw [List.splitOn_nil, List.mem_singleton] at h
    subst h
    cases hb
  | cons c rest ih =>
    have hrest {piece : List α} (h : piece ∈ rest.splitOn a) (hb : b ∈ piece) :
        b ≠ a ∧ b ∈ c :: rest := (ih h hb).imp_right (List.mem_cons_of_mem c)
    rw [List.splitOn_cons_eq_if_modifyHead] at h
    split at h
    · rcases List.mem_cons.mp h with rfl | h
      · cases hb
      · exact hrest h hb
    · next hc =>
      obtain ⟨old, hold, rfl | rfl⟩ := exists_of_mem_modifyHead h
      · exact hrest hold hb
      · rcases List.mem_cons.mp hb with rfl | hb
        · exact ⟨fun heq => hc (beq_iff_eq.mpr heq), List.mem_cons_self⟩
        · exact hrest hold hb

omit [LawfulBEq α] in
/-- There is one piece more than there are separators. -/
theorem length_splitOn (list : List α) : (list.splitOn a).length = list.count a + 1 := by
  induction list with
  | nil => rfl
  | cons c rest ih =>
    rw [List.splitOn_cons_eq_if_modifyHead, List.count_cons]
    split
    · rw [List.length_cons, ih]
    · rw [List.length_modifyHead, ih, Nat.add_zero]

end

/-! ### Lines are pieces -/

/-- The pieces of the text that is left, the first of them after the line begun. -/
theorem physicalLines_go_eq (done : List (List Char)) (line text : List Char) :
    physicalLines.go done line text =
      done.reverse ++ ((unifyTerminators text).splitOn '\n').modifyHead (line.reverse ++ ·) := by
  -- A terminator ends the line begun, so the pieces go on with a line that is empty.
  have hterminator (done : List (List Char)) (line rest : List Char)
      (ih : physicalLines.go (line.reverse :: done) [] rest =
        (line.reverse :: done).reverse ++
          ((unifyTerminators rest).splitOn '\n').modifyHead (([] : List Char).reverse ++ ·)) :
      physicalLines.go (line.reverse :: done) [] rest =
        done.reverse ++
          (('\n' :: unifyTerminators rest).splitOn '\n').modifyHead (line.reverse ++ ·) := by
    rw [ih, List.splitOn_cons_eq_if_modifyHead, if_pos (beq_self_eq_true _),
      List.modifyHead_cons, List.append_nil, List.reverse_cons, List.append_assoc,
      List.singleton_append, List.reverse_nil]
    exact congrArg (done.reverse ++ line.reverse :: ·) (congrFun List.modifyHead_id _)
  fun_induction physicalLines.go done line text with
  | case1 done line =>
    rw [List.reverse_cons, unifyTerminators_nil, List.splitOn_nil, List.modifyHead_cons,
      List.append_nil]
  | case2 done line rest ih => exact hterminator done line rest ih
  | case3 done line c rest hpair hc ih =>
    have hfeed : feedReturn c = '\n' := by rcases hc with rfl | rfl <;> rfl
    rw [unifyTerminators_cons hpair, hfeed]
    exact hterminator done line rest ih
  | case4 done line c rest hpair hc ih =>
    obtain ⟨hfeed, hreturn⟩ := not_or.mp hc
    rw [unifyTerminators_cons hpair, feedReturn_eq_self hreturn, ih,
      List.splitOn_cons_eq_if_modifyHead, if_neg (by simpa using hfeed), List.modifyHead_modifyHead]
    simp only [List.reverse_cons, List.append_assoc, List.singleton_append, Function.comp_def]

/-- **Physical lines** are the pieces of the unified text between line feeds. -/
theorem physicalLines_eq_splitOn (text : List Char) :
    physicalLines text = (unifyTerminators text).splitOn '\n' := by
  unfold physicalLines
  rw [physicalLines_go_eq]
  exact congrFun List.modifyHead_id _

/-- Texts that are unified alike have the same lines. -/
theorem rawLines_of_unified {text text' : String} (h : unified text' = unified text) :
    rawLines text' = rawLines text := by
  unfold rawLines
  rw [physicalLines_eq_splitOn, physicalLines_eq_splitOn, ← toList_unified, h, toList_unified]

theorem unified_unified (text : String) : unified (unified text) = unified text := by
  unfold unified
  rw [String.toList_ofList, unifyTerminators_idem]

/-! ### Splitting loses nothing -/

/-- **Splitting at terminators**: what the terminators of a text are to its lines and to the
passes over it. -/
structure SplitsAtTerminators (text : String) : Prop where
  /-- No terminator stands in a line. -/
  terminator : ∀ line ∈ rawLines text, '\n' ∉ line ∧ '\r' ∉ line
  /-- There is one line more than there are terminators. -/
  length : (rawLines text).length = (unified text).toList.count '\n' + 1
  /-- The lines join to the unified text. -/
  joined : ['\n'].intercalate (rawLines text) = (unified text).toList
  /-- A pass over the unified text is the same pass: its tokens with all their values, its
  diagnostics, globals and properties, and its abort. -/
  run : ∀ settings, Pass.run settings (unified text) = Pass.run settings text
  verify : ∀ settings, verify settings (unified text) = verify settings text
  /-- So is the pass over any text with the same lines under other terminators. -/
  interchangeable : ∀ text', unified text' = unified text →
    ∀ settings, Pass.run settings text' = Pass.run settings text

/-- **Line terminators are interchangeable, and splitting at them loses nothing.** -/
theorem splits_at_terminators (text : String) : SplitsAtTerminators text := by
  have hlines : rawLines text = (unified text).toList.splitOn '\n' := by
    rw [toList_unified]
    exact physicalLines_eq_splitOn text.toList
  have hrun (text' : String) (h : unified text' = unified text) (settings : Settings) :
      Pass.run settings text' = Pass.run settings text := by
    have hsource : Source.ofString text' = Source.ofString text :=
      congrArg (fun lines => (lines.foldl Region.read {}).close) (rawLines_of_unified h)
    exact congrArg (Pass.ofSource settings) hsource
  refine ⟨fun line hline => ⟨fun hfeed => ?_, fun hreturn => ?_⟩, ?_, ?_, ?_, ?_, hrun⟩
  · rw [hlines] at hline
    exact (of_mem_splitOn hline hfeed).1 rfl
  · rw [hlines, toList_unified] at hline
    exact return_not_mem_unifyTerminators _ (of_mem_splitOn hline hreturn).2
  · rw [hlines, length_splitOn]
  · rw [hlines, List.intercalate_splitOn]
  · exact hrun (unified text) (unified_unified text)
  · intro settings
    rw [verify_eq_run, verify_eq_run, hrun (unified text) (unified_unified text)]

-- A template part and a block comment, each over a line that ends in both characters.
example : (Pass.run {} "`a\r\nb`/*c\r\nd*/").tokens.map (·.value) =
    ["`", "a\nb", "`", "c d", ""] := by
  decide +kernel

end ScriptLint
