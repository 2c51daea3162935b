import ScriptLint.Proofs.Grammar

/-!
# Bodies of directives

The entries of a body, read one after the other without ever backing up, against the
form of a body: any number of items, each an identifier, a value or none, a comma or
none, and blanks. Reading as long as possible each time loses no body that has the form,
and reading is inverse to writing.

## Main definitions

* `valueForm`, `itemForm` — the forms of a value and of an item
* `LongestItems` — items of which every identifier and every optional piece is as long as
  possible
* `ReadsBody` — what reading a body gives

## Main statements

* `directiveItems_reads` — a body is read to its end exactly if it has the form, else up to
  where no identifier starts; what is written is read back
-/

namespace ScriptLint

open Computability

/-! ### Forms -/

/-- The value `true` or `false`: a colon, blanks and the word. -/
def onOffForm (on : Bool) : Language Char :=
  word ":" * (charIn isBlank)∗ * word (if on then "true" else "false")

/-- The form of a value of an item, or of none. -/
def valueForm : Option Bool → Language Char
  | none => 1
  | some on => onOffForm on

/-- A value or none. -/
def anyValue : Language Char := {written | ∃ value, written ∈ valueForm value}

/-- What separates items: a comma or none, and blanks. -/
def separator : Language Char := maybe (word ",") * (charIn isBlank)∗

/-- **Items**: an identifier, a value or none, a comma or none, and blanks. -/
def itemForm : Language Char := identifier * anyValue * separator

/-- **Items as long as possible**: the items of a body where every identifier, value, comma
and run of blanks is the longest that stands there, up to where no identifier starts. -/
inductive LongestItems : List Char → List DirectiveItem → List Char → Prop
  /-- No identifier starts here. -/
  | stop {body : List Char} (none : ∀ key ∈ identifier, ¬ key <+: body) :
      LongestItems body [] body
  /-- An item, and the items behind it. -/
  | item {body key behindKey written behindValue comma behindComma blanks next rest : List Char}
      {value : Option Bool} {items : List DirectiveItem}
      (key_longest : Longest identifier body key behindKey)
      (value_longest : Longest anyValue behindKey written behindValue)
      (value_eq : written ∈ valueForm value)
      (comma_longest : Longest (maybe (word ",")) behindValue comma behindComma)
      (blanks_longest : Longest (charIn isBlank)∗ behindComma blanks next)
      (more : LongestItems next items rest) :
      LongestItems body ({ key := String.ofList key, value } :: items) rest

variable {text written rest : List Char}

/-! ### Values -/

/-- A value begins with its colon. -/
theorem cons_of_mem_onOffForm {on : Bool} (h : written ∈ onOffForm on) :
    ∃ tail, written = ':' :: tail := by
  obtain ⟨_, hhead, w, hw, rfl⟩ := Language.mem_mul.mp h
  obtain ⟨_, rfl, blanks, hblanks, rfl⟩ := Language.mem_mul.mp hhead
  exact ⟨blanks ++ w, rfl⟩

/-- A run of blanks is dropped up to what is not blank. -/
theorem dropWhile_isBlank_append {blanks : List Char} (h : ∀ c ∈ blanks, isBlank c = true)
    (hrest : rest.head?.any isBlank = false) : (blanks ++ rest).dropWhile isBlank = rest := by
  rw [List.dropWhile_append_of_pos h]
  cases rest with
  | nil => rfl
  | cons c rest => exact List.dropWhile_cons_of_neg (by simpa using hrest)

/-- **A value is read where it stands**, whatever follows it. -/
theorem directiveValue_append {on : Bool} (h : written ∈ onOffForm on) (rest : List Char) :
    directiveValue (written ++ rest) = (some on, rest) := by
  obtain ⟨_, hhead, w, hw, rfl⟩ := Language.mem_mul.mp h
  obtain ⟨_, rfl, blanks, hblanks, rfl⟩ := Language.mem_mul.mp hhead
  obtain rfl : w = (if on then "true" else "false").toList := hw
  have hdrop : (blanks ++ ((if on then "true" else "false").toList ++ rest)).dropWhile isBlank =
      (if on then "true" else "false").toList ++ rest := by
    refine dropWhile_isBlank_append (mem_kstar_charIn.mp hblanks) ?_
    cases on <;> rfl
  have hassoc : ":".toList ++ blanks ++ (if on then "true" else "false").toList ++ rest =
      ':' :: (blanks ++ ((if on then "true" else "false").toList ++ rest)) := by simp
  rw [hassoc, directiveValue, hdrop]
  cases on <;> rfl

/-- What is read as a value is a value. -/
theorem directiveValue_split (text : List Char) :
    ∃ written ∈ valueForm (directiveValue text).1, text = written ++ (directiveValue text).2 := by
  have hword {rest w after : List Char} (on : Bool) (hw : w ∈ word (if on then "true" else "false"))
      (hdrop : rest.dropWhile isBlank = w ++ after) :
      ∃ written ∈ valueForm (some on), ':' :: rest = written ++ after := by
    have hblanks := mem_kstar_charIn.mpr fun c (hc : c ∈ rest.takeWhile isBlank) =>
      List.mem_takeWhile_imp hc
    have hsplit := List.takeWhile_append_dropWhile (p := isBlank) (l := rest)
    rw [hdrop] at hsplit
    refine ⟨[':'] ++ rest.takeWhile isBlank ++ w,
      Language.append_mem_mul (Language.append_mem_mul rfl hblanks) hw, ?_⟩
    rw [List.append_assoc, List.append_assoc, hsplit]
    rfl
  unfold directiveValue
  split
  · split
    · next hdrop => exact hword (w := ['t', 'r', 'u', 'e']) true rfl hdrop
    · next hdrop => exact hword (w := ['f', 'a', 'l', 's', 'e']) false rfl hdrop
    · exact ⟨[], rfl, rfl⟩
  · exact ⟨[], rfl, rfl⟩

/-- **What is read as a value** is the longest value that stands there. -/
theorem longest_directiveValue (text : List Char) :
    ∃ written ∈ valueForm (directiveValue text).1,
      Longest anyValue text written (directiveValue text).2 := by
  obtain ⟨written, hmem, hsplit⟩ := directiveValue_split text
  refine ⟨written, hmem, hsplit, ⟨_, hmem⟩, ?_⟩
  rintro other ⟨value, hvalue⟩ ⟨after, rfl⟩
  cases value with
  | none => exact hvalue ▸ Nat.zero_le _
  | some on =>
    rw [directiveValue_append hvalue] at hsplit
    exact (List.append_cancel_right hsplit).symm ▸ Nat.le_refl _

/-- A text is the form of one value at most. -/
theorem valueForm_unique {value value' : Option Bool} (h : written ∈ valueForm value)
    (h' : written ∈ valueForm value') : value = value' := by
  have hread (value : Option Bool) (h : written ∈ valueForm value) :
      (directiveValue written).1 = value := by
    cases value with
    | none => exact h ▸ rfl
    | some on => rw [← List.append_nil written, directiveValue_append h]
  exact (hread value h).symm.trans (hread value' h')

/-! ### Items -/

/-- The separator of two items, as far as it goes. -/
theorem longest_separator (text : List Char) :
    ∃ comma behindComma blanks, Longest (maybe (word ",")) text comma behindComma ∧
      Longest (charIn isBlank)∗ behindComma blanks (dropSeparator text) := by
  unfold dropSeparator
  split
  · next rest => exact ⟨[','], rest, _, (longest_word "," rest).maybe, longest_run isBlank rest⟩
  · next hcomma =>
    refine ⟨[], text, _, longest_maybe_of_none ?_, longest_run isBlank text⟩
    rintro _ rfl ⟨rest, hrest⟩
    exact hcomma rest hrest.symm

/-- What is read as an item is the longest item. -/
theorem LongestItems.cons {body : List Char} {items : List DirectiveItem}
    (h : identifierLength body ≠ 0)
    (more : LongestItems
      (dropSeparator (directiveValue (body.drop (identifierLength body))).2) items rest) :
    LongestItems body
      ({ key := String.ofList (body.take (identifierLength body)),
         value := (directiveValue (body.drop (identifierLength body))).1 } :: items) rest := by
  obtain ⟨written, hmem, hvalue⟩ := longest_directiveValue (body.drop (identifierLength body))
  obtain ⟨comma, behindComma, blanks, hcomma, hblanks⟩ :=
    longest_separator (directiveValue (body.drop (identifierLength body))).2
  exact .item (longest_identifier h) hvalue hmem hcomma hblanks more

theorem LongestItems.of_go (items : List DirectiveItem) (body : List Char) :
    ∃ read rest, directiveItems.go items body = (items.reverse ++ read, rest) ∧
      LongestItems body read rest := by
  fun_induction directiveItems.go items body with
  | case1 items body length hzero =>
    refine ⟨[], body, by rw [List.append_nil], .stop fun key hkey hstarts => ?_⟩
    exact identifierLength_ne_zero hkey hstarts hzero
  | case2 items body length hpos value ih =>
    obtain ⟨read, rest, hgo, hitems⟩ := ih
    refine ⟨_ :: read, rest, ?_, hitems.cons hpos⟩
    rw [hgo, List.reverse_cons, List.append_assoc]
    rfl

/-- **What is read** are the items as long as possible. -/
theorem longestItems_directiveItems (body : List Char) :
    LongestItems body (directiveItems body).1 (directiveItems body).2 := by
  obtain ⟨read, rest, hgo, hitems⟩ := LongestItems.of_go [] body
  rw [directiveItems, hgo]
  exact hitems

/-- There is one way only to take items as long as possible. -/
theorem LongestItems.unique {body rest' : List Char} {items items' : List DirectiveItem}
    (h : LongestItems body items rest) (h' : LongestItems body items' rest') :
    items = items' ∧ rest = rest' := by
  induction h generalizing items' rest' with
  | stop none =>
    cases h' with
    | stop => exact ⟨rfl, rfl⟩
    | item key_longest => exact absurd ⟨_, key_longest.split.symm⟩ (none _ key_longest.mem)
  | item key_longest value_longest value_eq comma_longest blanks_longest more ih =>
    cases h' with
    | stop none => exact absurd ⟨_, key_longest.split.symm⟩ (none _ key_longest.mem)
    | item key_longest' value_longest' value_eq' comma_longest' blanks_longest' more' =>
      obtain ⟨rfl, rfl⟩ := key_longest.unique key_longest'
      obtain ⟨rfl, rfl⟩ := value_longest.unique value_longest'
      obtain ⟨rfl, rfl⟩ := comma_longest.unique comma_longest'
      obtain ⟨rfl, rfl⟩ := blanks_longest.unique blanks_longest'
      obtain rfl := valueForm_unique value_eq value_eq'
      obtain ⟨rfl, rfl⟩ := ih more'
      exact ⟨rfl, rfl⟩

/-- No identifier starts where the items end. -/
theorem LongestItems.stops {body : List Char} {items : List DirectiveItem}
    (h : LongestItems body items rest) : rest.head?.any isIdentifierStart = false := by
  induction h with
  | @stop body none =>
    cases body with
    | nil => rfl
    | cons c body =>
      by_contra hstart
      have hc : isIdentifierStart c = true := Bool.eq_true_of_not_eq_false hstart
      exact none [c] (mem_identifier.mpr ⟨c, [], rfl, hc, by simp⟩) ⟨body, rfl⟩
  | item key_longest value_longest value_eq comma_longest blanks_longest more ih => exact ih

/-- Items one after the other are an item and more items. -/
theorem append_mem_kstar {form : Language Char} {piece more : List Char} (h : piece ∈ form)
    (hmore : more ∈ form∗) : piece ++ more ∈ form∗ := by
  obtain ⟨parts, rfl, hparts⟩ := hmore
  exact ⟨piece :: parts, rfl, List.forall_mem_cons.mpr ⟨h, hparts⟩⟩

/-- The text before the place where the items end is made of items. -/
theorem LongestItems.front {body : List Char} {items : List DirectiveItem}
    (h : LongestItems body items rest) : ∃ front ∈ itemForm∗, body = front ++ rest := by
  induction h with
  | stop none => exact ⟨[], Language.nil_mem_kstar _, rfl⟩
  | item key_longest value_longest value_eq comma_longest blanks_longest more ih =>
    obtain ⟨front, hfront, hnext⟩ := ih
    have hitem := Language.append_mem_mul (Language.append_mem_mul key_longest.mem
      value_longest.mem) (Language.append_mem_mul comma_longest.mem blanks_longest.mem)
    refine ⟨_, append_mem_kstar hitem hfront, ?_⟩
    rw [key_longest.split, value_longest.split, comma_longest.split, blanks_longest.split, hnext]
    simp only [List.append_assoc]

/-! ### No body of the form is lost -/

/-- What begins a body of the form. -/
theorem eq_nil_or_cons_of_mem (h : text ∈ itemForm∗) :
    text = [] ∨ ∃ c tail more, text = c :: (tail ++ more) ∧ isIdentifierStart c = true ∧
      (∀ d ∈ tail, isIdentifierPart d = true) ∧ more ∈ anyValue * (separator * itemForm∗) := by
  obtain ⟨parts, rfl, hparts⟩ := h
  cases parts with
  | nil => exact .inl rfl
  | cons part parts =>
    obtain ⟨hpart, hmore⟩ := List.forall_mem_cons.mp hparts
    obtain ⟨_, hfirst, blanks, hblanks, rfl⟩ := Language.mem_mul.mp hpart
    obtain ⟨key, hkey, written, hwritten, rfl⟩ := Language.mem_mul.mp hfirst
    obtain ⟨c, tail, rfl, hc, htail⟩ := mem_identifier.mp hkey
    refine .inr ⟨c, tail, written ++ (blanks ++ parts.flatten), by simp, hc, htail, ?_⟩
    exact Language.append_mem_mul hwritten (Language.append_mem_mul hblanks ⟨parts, rfl, hmore⟩)

/-- A value or a separator does not begin with what goes on with an identifier. -/
theorem head?_value_separator {behind : List Char} (h : written ∈ anyValue)
    (hbehind : behind ∈ separator) (hne : written ++ behind ≠ []) :
    ∃ c tail, written ++ behind = c :: tail ∧ isIdentifierPart c = false := by
  obtain ⟨_ | on, h⟩ := h
  · obtain rfl : written = [] := h
    obtain ⟨comma, hcomma, blanks, hblanks, rfl⟩ := Language.mem_mul.mp hbehind
    rcases hcomma with rfl | rfl
    · cases blanks with
      | nil => exact absurd rfl hne
      | cons c blanks =>
        refine ⟨c, blanks, rfl, ?_⟩
        by_contra hpart
        have hblank := mem_kstar_charIn.mp hblanks c (by simp)
        rw [isBlank_eq_false_of_isIdentifierPart (by simpa using hpart)] at hblank
        cases hblank
    · exact ⟨',', _, rfl, by decide⟩
  · obtain ⟨tail, rfl⟩ := cons_of_mem_onOffForm h
    exact ⟨':', _, rfl, by decide⟩

/-- What follows an identifier still does when the identifier goes on as far as it can: a
longer identifier swallows whole items. -/
theorem dropWhile_mem (h : text ∈ anyValue * (separator * itemForm∗)) :
    text.dropWhile isIdentifierPart ∈ anyValue * (separator * itemForm∗) := by
  induction hlength : text.length using Nat.strong_induction_on generalizing text with
  | _ n ih =>
    obtain ⟨written, hwritten, _, hbehind, rfl⟩ := Language.mem_mul.mp h
    obtain ⟨behind, hseparator, more, hmore, rfl⟩ := Language.mem_mul.mp hbehind
    by_cases hnil : written ++ behind = []
    · obtain ⟨rfl, rfl⟩ := List.append_eq_nil_iff.mp hnil
      rcases eq_nil_or_cons_of_mem hmore with rfl | ⟨c, tail, next, rfl, hc, htail, hnext⟩
      · exact h
      · have hall : ∀ d ∈ c :: tail, isIdentifierPart d = true :=
          List.forall_mem_cons.mpr ⟨isIdentifierPart_of_isIdentifierStart hc, htail⟩
        have hdrop : (c :: tail ++ next).dropWhile isIdentifierPart =
            next.dropWhile isIdentifierPart := List.dropWhile_append_of_pos hall
        have hshort : next.length < n := by
          rw [← hlength]
          simp only [List.length_append, List.length_cons]
          omega
        exact (congrArg (· ∈ _) hdrop).mpr (ih next.length hshort hnext rfl)
    · obtain ⟨c, tail, hcons, hc⟩ := head?_value_separator hwritten hseparator hnil
      rw [← List.append_assoc, hcons, List.cons_append,
        List.dropWhile_cons_of_neg (by simp [hc]), ← List.cons_append, ← hcons, List.append_assoc]
      exact h

/-- What does not go on with an identifier stands behind the longest one. -/
theorem head?_of_longest_identifier {body key : List Char} (h : Longest identifier body key rest) :
    rest.head?.any isIdentifierPart = false := by
  cases rest with
  | nil => rfl
  | cons c rest =>
    by_contra hpart
    obtain ⟨d, tail, rfl, hd, htail⟩ := mem_identifier.mp h.mem
    have hc : isIdentifierPart c = true := Bool.eq_true_of_not_eq_false hpart
    have hmore : ∀ e ∈ tail ++ [c], isIdentifierPart e = true :=
      List.forall_mem_append.mpr ⟨htail, List.forall_mem_singleton.mpr hc⟩
    have hlonger : d :: tail ++ [c] ∈ identifier :=
      mem_identifier.mpr ⟨d, tail ++ [c], rfl, hd, hmore⟩
    have hle := h.longest _ hlonger ⟨rest, by rw [h.split]; simp⟩
    rw [List.length_append, List.length_singleton] at hle
    omega

/-- Behind the longest identifier of a body of the form, a value or none follows. -/
theorem mem_behind_key {body key : List Char} (h : Longest identifier body key rest)
    (hbody : body ∈ itemForm∗) : rest ∈ anyValue * (separator * itemForm∗) := by
  obtain ⟨d, name, rfl, hd, hname⟩ := mem_identifier.mp h.mem
  have hstop := head?_of_longest_identifier h
  have hall : ∀ c ∈ d :: name, isIdentifierPart c = true :=
    List.forall_mem_cons.mpr ⟨isIdentifierPart_of_isIdentifierStart hd, hname⟩
  have hrest : body.dropWhile isIdentifierPart = rest := by
    rw [h.split, List.dropWhile_append_of_pos hall]
    cases rest with
    | nil => rfl
    | cons c rest => exact List.dropWhile_cons_of_neg (by simpa using hstop)
  rcases eq_nil_or_cons_of_mem hbody with hnil | ⟨c, tail, more, heq, hc, htail, hmore⟩
  · rw [h.split] at hnil
    cases hnil
  · rw [← hrest, heq, List.dropWhile_cons_of_pos (isIdentifierPart_of_isIdentifierStart hc),
      List.dropWhile_append_of_pos htail]
    exact dropWhile_mem hmore

/-- What begins blanks and items is a blank or begins an item. -/
theorem head_blanks_items {run more : List Char} {c : Char} (hrun : run ∈ (charIn isBlank)∗)
    (hmore : more ∈ itemForm∗) (h : run ++ more = c :: rest) :
    (isBlank c || isIdentifierStart c) = true := by
  cases run with
  | nil =>
    rcases eq_nil_or_cons_of_mem hmore with rfl | ⟨d, tail, next, rfl, hd, -, -⟩
    · cases h
    · obtain rfl : d = c := (List.cons.inj h).1
      rw [hd, Bool.or_true]
  | cons d run =>
    obtain rfl : d = c := (List.cons.inj h).1
    rw [mem_kstar_charIn.mp hrun d List.mem_cons_self, Bool.true_or]

/-- No value follows where a separator does. -/
theorem directiveValue_of_separator (h : text ∈ separator * itemForm∗) :
    directiveValue text = (none, text) := by
  obtain ⟨behind, hbehind, more, hmore, rfl⟩ := Language.mem_mul.mp h
  obtain ⟨comma, hcomma, blanks, hblanks, rfl⟩ := Language.mem_mul.mp hbehind
  unfold directiveValue
  split
  · next rest hcolon =>
    exfalso
    rcases hcomma with rfl | rfl
    · exact absurd (head_blanks_items hblanks hmore hcolon) (by decide)
    · exact absurd (List.cons.inj hcolon).1 (by decide)
  · rfl

/-- Behind the longest value of a body of the form, a separator follows. -/
theorem mem_behind_value {behindKey : List Char} (h : Longest anyValue behindKey written rest)
    (hbody : behindKey ∈ anyValue * (separator * itemForm∗)) : rest ∈ separator * itemForm∗ := by
  obtain ⟨written', -, hlongest⟩ := longest_directiveValue behindKey
  obtain ⟨-, rfl⟩ := h.unique hlongest
  obtain ⟨written', ⟨_ | on, hvalue⟩, more, hmore, rfl⟩ := Language.mem_mul.mp hbody
  · obtain rfl : written' = [] := hvalue
    rw [List.nil_append, directiveValue_of_separator hmore]
    exact hmore
  · rw [directiveValue_append hvalue]
    exact hmore

/-- Behind the longest separator of a body of the form, items follow. -/
theorem mem_behind_separator {behindValue comma behindComma blanks : List Char}
    (hcomma : Longest (maybe (word ",")) behindValue comma behindComma)
    (hblanks : Longest (charIn isBlank)∗ behindComma blanks rest)
    (hbody : behindValue ∈ separator * itemForm∗) : rest ∈ itemForm∗ := by
  obtain ⟨comma', behindComma', blanks', hcomma', hblanks'⟩ := longest_separator behindValue
  obtain ⟨-, rfl⟩ := hcomma.unique hcomma'
  obtain ⟨-, rfl⟩ := hblanks.unique hblanks'
  obtain ⟨_, hbehind, more, hmore, rfl⟩ := Language.mem_mul.mp hbody
  obtain ⟨first, hfirst, run, hrun, rfl⟩ := Language.mem_mul.mp hbehind
  have hhead : more.head?.any isBlank = false := by
    rcases eq_nil_or_cons_of_mem hmore with rfl | ⟨c, tail, next, rfl, hc, -, -⟩
    · rfl
    · exact isBlank_eq_false_of_isIdentifierStart hc
  have hmem : (run ++ more).dropWhile isBlank ∈ itemForm∗ := by
    rw [dropWhile_isBlank_append (mem_kstar_charIn.mp hrun) hhead]
    exact hmore
  rcases hfirst with rfl | rfl
  · unfold dropSeparator
    split
    · next behind hbegins =>
      exact absurd (head_blanks_items hrun hmore hbegins) (by decide)
    · exact hmem
  · exact hmem

/-- **No body of the form is lost**: items as long as possible make up the whole of it. -/
theorem LongestItems.complete {body : List Char} {items : List DirectiveItem}
    (h : LongestItems body items rest) (hbody : body ∈ itemForm∗) : rest = [] := by
  induction h with
  | stop none =>
    rcases eq_nil_or_cons_of_mem hbody with rfl | ⟨c, tail, next, rfl, hc, htail, -⟩
    · rfl
    · exact absurd ⟨next, rfl⟩ (none (c :: tail) (mem_identifier.mpr ⟨c, tail, rfl, hc, htail⟩))
  | item key_longest value_longest value_eq comma_longest blanks_longest more ih =>
    exact ih (mem_behind_separator comma_longest blanks_longest
      (mem_behind_value value_longest (mem_behind_key key_longest hbody)))

/-! ### Writing and reading back -/

theorem mem_identifier_iff {name : List Char} : name ∈ identifier ↔ isIdentifier name = true := by
  cases name with
  | nil => simp [mem_identifier, isIdentifier]
  | cons c name => simp [mem_identifier, isIdentifier]

/-- **The written form of items**, with a comma and a blank between them. -/
def itemsText (items : List DirectiveItem) : List Char :=
  (", ".intercalate (items.map DirectiveItem.render)).toList

theorem itemsText_cons {item next : DirectiveItem} {items : List DirectiveItem} :
    itemsText (item :: next :: items) =
      item.render.toList ++ ',' :: ' ' :: itemsText (next :: items) := by
  simp [itemsText]

/-- An item and what is written behind it are read one after the other. -/
theorem LongestItems.render_append {item : DirectiveItem} {next : List Char}
    {items : List DirectiveItem} (h : item.key.toList ∈ identifier)
    (hnext : next.head?.any isIdentifierPart = false) (hcolon : directiveValue next = (none, next))
    (more : LongestItems (dropSeparator next) items rest) :
    LongestItems (item.render.toList ++ next) (item :: items) rest := by
  obtain ⟨tail, hrender, hstop, hvalue⟩ := item.render_eq
  have hname := mem_identifier_iff.mp h
  have hread : directiveValue (tail ++ next) = (item.value, next) := by
    obtain ⟨written, hmem, hsplit⟩ := directiveValue_split tail
    rw [hvalue] at hmem hsplit
    obtain rfl : tail = written := by rw [hsplit, List.append_nil]
    obtain ⟨key, _ | on⟩ := item
    · obtain rfl : tail = [] := hmem
      exact hcolon
    · exact directiveValue_append hmem next
  have hbehind : (tail ++ next).head?.any isIdentifierPart = false := by
    cases tail with
    | nil => exact hnext
    | cons c tail => exact hstop
  have hlength := identifierLength_append hname hbehind
  have hpos : identifierLength (item.key.toList ++ (tail ++ next)) ≠ 0 :=
    identifierLength_ne_zero h (List.prefix_append _ _)
  have hmore : LongestItems (dropSeparator (directiveValue ((item.key.toList ++ (tail ++ next)).drop
      (identifierLength (item.key.toList ++ (tail ++ next))))).2) items rest := by
    rw [hlength, List.drop_left, hread]
    exact more
  have hcons := LongestItems.cons hpos hmore
  rw [hlength, List.drop_left, List.take_left, hread, String.ofList_toList] at hcons
  rw [hrender, List.append_assoc]
  exact hcons

/-- Written items begin with an identifier. -/
theorem head?_itemsText {item : DirectiveItem} {items : List DirectiveItem}
    (h : item.key.toList ∈ identifier) :
    (itemsText (item :: items)).head?.any isBlank = false := by
  have hhead := head?_render (mem_identifier_iff.mp h)
  have hne : item.render.toList ≠ [] := by
    obtain ⟨tail, hrender, -, -⟩ := item.render_eq
    obtain ⟨c, name, hkey, -, -⟩ := mem_identifier.mp h
    rw [hrender, hkey]
    exact List.cons_ne_nil _ _
  have hbegins : ∃ more, itemsText (item :: items) = item.render.toList ++ more := by
    cases items with
    | nil => exact ⟨[], by simp [itemsText]⟩
    | cons next items => exact ⟨_, itemsText_cons⟩
  obtain ⟨more, hmore⟩ := hbegins
  rw [hmore, List.head?_append_of_ne_nil _ hne]
  exact hhead

theorem longestItems_itemsText {items : List DirectiveItem}
    (h : ∀ item ∈ items, item.key.toList ∈ identifier) :
    LongestItems (itemsText items) items [] := by
  induction items with
  | nil =>
    refine .stop fun key hkey hstarts => ?_
    obtain ⟨c, tail, rfl, -, -⟩ := mem_identifier.mp hkey
    exact absurd (List.prefix_nil.mp hstarts) (List.cons_ne_nil _ _)
  | cons item items ih =>
    obtain ⟨hitem, hitems⟩ := List.forall_mem_cons.mp h
    have hrest := ih hitems
    cases items with
    | nil =>
      have hone : LongestItems (item.render.toList ++ []) [item] [] :=
        LongestItems.render_append hitem rfl rfl hrest
      rw [List.append_nil] at hone
      simpa [itemsText] using hone
    | cons next items =>
      have hblank : dropSeparator (',' :: ' ' :: itemsText (next :: items)) =
          itemsText (next :: items) :=
        @dropWhile_isBlank_append _ [' '] (List.forall_mem_singleton.mpr rfl)
          (head?_itemsText (hitems next List.mem_cons_self))
      rw [itemsText_cons]
      refine LongestItems.render_append hitem rfl rfl ?_
      rw [hblank]
      exact hrest

/-! ### Reading a body -/

/-- **What reading a body gives**: entries, and what is left. -/
structure ReadsBody (body : List Char) (items : List DirectiveItem) (rest : List Char) : Prop where
  /-- Nothing is left exactly if the body is items one after the other. -/
  complete : rest = [] ↔ body ∈ itemForm∗
  /-- What is left does not begin an identifier. -/
  stop : rest.head?.any isIdentifierStart = false
  /-- It stands at the end of the body, behind items one after the other. -/
  front : ∃ front ∈ itemForm∗, body = front ++ rest
  /-- The entries are the items as long as possible, and no others are. -/
  parts : ∀ items' rest', LongestItems body items' rest' ↔ items' = items ∧ rest' = rest

/-- **Bodies of directives**: each is read as its items as long as possible, and to its end
exactly if it is made of items; written items are read back. -/
theorem directiveItems_reads :
    (∀ body, ReadsBody body (directiveItems body).1 (directiveItems body).2) ∧
      ∀ items : List DirectiveItem, (∀ item ∈ items, item.key.toList ∈ identifier) →
        directiveItems (itemsText items) = (items, []) := by
  constructor
  · intro body
    have hlongest := longestItems_directiveItems body
    obtain ⟨front, hfront, hsplit⟩ := hlongest.front
    refine ⟨⟨fun hnil => ?_, hlongest.complete⟩, hlongest.stops, ⟨front, hfront, hsplit⟩,
      fun items' rest' => ⟨fun h => h.unique hlongest, ?_⟩⟩
    · rw [hnil, List.append_nil] at hsplit
      exact hsplit ▸ hfront
    · rintro ⟨rfl, rfl⟩
      exact hlongest
  · intro items hitems
    obtain ⟨hread, hrest⟩ :=
      (longestItems_directiveItems (itemsText items)).unique (longestItems_itemsText hitems)
    exact Prod.ext hread hrest

theorem directiveItems_reads_devel :
    (∀ item ∈ [⟨"devel", none⟩, ⟨"node", some true⟩, (⟨"$", some false⟩ : DirectiveItem)],
        item.key.toList ∈ identifier) ∧
      itemsText [⟨"devel", none⟩, ⟨"node", some true⟩, ⟨"$", some false⟩] =
        "devel, node:true, $:false".toList ∧
      directiveItems (itemsText [⟨"devel", none⟩, ⟨"node", some true⟩, ⟨"$", some false⟩]) =
        ([⟨"devel", none⟩, ⟨"node", some true⟩, ⟨"$", some false⟩], []) := by
  have hkeys : ∀ item ∈ [⟨"devel", none⟩, ⟨"node", some true⟩,
      (⟨"$", some false⟩ : DirectiveItem)], item.key.toList ∈ identifier := by
    simp only [mem_identifier_iff]
    decide
  exact ⟨hkeys, by decide +kernel, directiveItems_reads.2 _ hkeys⟩

example : directiveItems "a:trueb ,c".toList =
    ([⟨"a", some true⟩, ⟨"b", none⟩], ",c".toList) := by
  cbv

end ScriptLint
