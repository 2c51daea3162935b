import ScriptLint.Lexeme
import ScriptLint.Text.Alphabet
import ScriptLint.Text.Blank

/-!
# Comments

What a comment says to the checks: the tasks it names, and the directive it may
be.

## Main definitions

* `namesTask` — a comment that names a task to do
* `Directive` — the three kinds of directive
* `Directive.split?` — the directive a comment is, with its body
* `DirectiveItem` — one entry of a directive
* `directiveItems` — the entries of a body, and what is left where they end
* `DirectiveItem.render` — the written form of an entry
-/

namespace ScriptLint

/-! ### Tasks -/

/-- A text that starts with `todo`, `TODO`, `HACK`, or `TO` and `DO` around one blank, at
the end of a word. -/
def startsWithTask : List Char → Bool
  | 't' :: 'o' :: 'd' :: 'o' :: rest => wordEnds rest
  | 'T' :: 'O' :: 'D' :: 'O' :: rest => wordEnds rest
  | 'H' :: 'A' :: 'C' :: 'K' :: rest => wordEnds rest
  | 'T' :: 'O' :: c :: 'D' :: 'O' :: rest => isBlank c && wordEnds rest
  | _ => false
where
  /-- No word continues here. -/
  wordEnds (rest : List Char) : Bool := !rest.head?.any isWordCharacter

/-- A text with a task in it, as a whole word. `inWord` says whether the character before
the text belongs to a word. -/
def namesTaskAfter (inWord : Bool) : List Char → Bool
  | [] => false
  | c :: rest =>
    (!inWord && startsWithTask (c :: rest)) || namesTaskAfter (isWordCharacter c) rest

/-- **Task**: `todo`, `TODO`, `TO DO` or `HACK` as a whole word. -/
def namesTask (text : List Char) : Bool := namesTaskAfter false text

/-! ### Directives -/

/-- A kind of directive. -/
inductive Directive
  /-- Sets rules and flags. -/
  | options
  /-- Names properties. -/
  | property
  /-- Declares globals. -/
  | globals
deriving DecidableEq, Repr

namespace Directive

/-- The word a directive starts with. -/
def key : Directive → String
  | options => "jslint"
  | property => "property"
  | globals => "global"

/-- Every kind of directive. -/
def all : List Directive := [options, property, globals]

/-- The body of a directive of this kind: its word, a blank, and what follows the
blanks. -/
def body? (directive : Directive) (text : List Char) : Option (List Char) :=
  if directive.key.toList.isPrefixOf text then
    let rest := text.drop directive.key.length
    if rest.head?.any isBlank then some (rest.dropWhile isBlank) else none
  else none

/-- The directive that a comment is, and its body. -/
def split? (text : List Char) : Option (Directive × List Char) :=
  all.findSome? fun directive => (directive.body? text).map (directive, ·)

end Directive

/-! ### Directive bodies -/

/-- One entry of a directive: a key, and `true` or `false` or neither. -/
structure DirectiveItem where
  /-- An identifier. -/
  key : String
  /-- The value written after the key. -/
  value : Option Bool := none
deriving DecidableEq, Repr

/-- The value after a key: a colon, blanks and `true` or `false`. Anything else is no
value and is left. -/
def directiveValue : List Char → Option Bool × List Char
  | ':' :: rest =>
    match rest.dropWhile isBlank with
    | 't' :: 'r' :: 'u' :: 'e' :: after => (some true, after)
    | 'f' :: 'a' :: 'l' :: 's' :: 'e' :: after => (some false, after)
    | _ => (none, ':' :: rest)
  | text => (none, text)

/-- What separates two entries: a comma or none, and blanks. -/
def dropSeparator : List Char → List Char
  | ',' :: rest => rest.dropWhile isBlank
  | text => text.dropWhile isBlank

theorem length_directiveValue_le (text : List Char) :
    (directiveValue text).2.length ≤ text.length := by
  unfold directiveValue
  split
  · next rest =>
    have := (List.dropWhile_sublist isBlank (l := rest)).length_le
    split <;> simp_all <;> omega
  · exact Nat.le_refl _

theorem length_dropSeparator_le (text : List Char) :
    (dropSeparator text).length ≤ text.length := by
  unfold dropSeparator
  split
  · next rest =>
    have := (List.dropWhile_sublist isBlank (l := rest)).length_le
    simp; omega
  · exact (List.dropWhile_sublist isBlank).length_le

/-- The entries of a body, each as long as possible, and what is left where none
starts. -/
def directiveItems (body : List Char) : List DirectiveItem × List Char :=
  go [] body
where
  /-- The entries of `body` after the ones read, newest first. -/
  go (items : List DirectiveItem) (body : List Char) : List DirectiveItem × List Char :=
    let length := identifierLength body
    if _h : length = 0 then (items.reverse, body)
    else
      let value := directiveValue (body.drop length)
      go ({ key := String.ofList (body.take length), value := value.1 } :: items)
        (dropSeparator value.2)
  termination_by body.length
  decreasing_by
    have hne : body ≠ [] := by rintro rfl; exact _h rfl
    have := List.length_pos_iff.mpr hne
    have := length_directiveValue_le (body.drop (identifierLength body))
    have := length_dropSeparator_le (directiveValue (body.drop (identifierLength body))).2
    simp only [List.length_drop] at *
    omega

/-- The written form of an entry. -/
def DirectiveItem.render (item : DirectiveItem) : String :=
  match item.value with
  | none => item.key
  | some true => item.key ++ ":true"
  | some false => item.key ++ ":false"

end ScriptLint
