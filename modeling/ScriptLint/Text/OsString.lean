/-!
# Strings of the system

The arguments of a program and the paths of files are sequences of bytes.  Mostly they are texts
in UTF-8, but nothing sees to it.  What is printed of them replaces the bytes that are no text.

## Main definitions

* `OsString` — a string of the system
* `OsString.ofText` — a text as one
* `OsString.display` — what is printed of it
* `OsString.text?` — the text that it is, if it is one

## Main statements

* `OsString.display_ofText` — a text is printed as it is
* `OsString.text?_eq_some_iff` — which strings are texts
-/

namespace ScriptLint

/-! ### UTF-8 -/

namespace Utf8

/-- What stands for bytes that are no text. -/
def replacement : Char := '\uFFFD'

/-- **A character begun**: what its first bytes say. -/
structure Begun where
  /-- The bits so far. -/
  bits : Nat
  /-- The number of bytes behind the next one. -/
  missing : Nat
  /-- The least value that the next byte may have. -/
  low : Nat
  /-- The greatest one. -/
  high : Nat

/-- What a byte begins: the characters that it makes, and the one that it leaves begun. -/
def first (b : Nat) : List Char × Option Begun :=
  if b < 0x80 then ([Char.ofNat b], none)
  else if 0xC2 ≤ b ∧ b < 0xE0 then ([], some ⟨b - 0xC0, 0, 0x80, 0xBF⟩)
  else if 0xE0 ≤ b ∧ b < 0xF0 then
    ([], some ⟨b - 0xE0, 1, if b = 0xE0 then 0xA0 else 0x80, if b = 0xED then 0x9F else 0xBF⟩)
  else if 0xF0 ≤ b ∧ b < 0xF5 then
    ([], some ⟨b - 0xF0, 2, if b = 0xF0 then 0x90 else 0x80, if b = 0xF4 then 0x8F else 0xBF⟩)
  else ([replacement], none)

/-- What a byte comes to behind the ones before. A byte that does not go on with the character
begun leaves a replacement for it and begins anew. -/
def next : Option Begun → Nat → List Char × Option Begun
  | none, b => first b
  | some begun, b =>
    if begun.low ≤ b ∧ b ≤ begun.high then
      let bits := begun.bits * 64 + (b - 0x80)
      match begun.missing with
      | 0 => ([Char.ofNat bits], none)
      | missing + 1 => ([], some ⟨bits, missing, 0x80, 0xBF⟩)
    else (replacement :: (first b).1, (first b).2)

/-- The characters of bytes, with a replacement for every longest stretch that begins a character
without ending it, and for every byte that begins none. -/
def decode (begun : Option Begun) : List UInt8 → List Char
  | [] => if begun.isSome then [replacement] else []
  | b :: bytes => (next begun b.toNat).1 ++ decode (next begun b.toNat).2 bytes

/-! ### Bytes of texts -/

/-- A first byte. -/
theorem decode_none_cons {b : Nat} (hb : b < 256) (bytes : List UInt8) :
    decode none (UInt8.ofNat b :: bytes) = (first b).1 ++ decode (first b).2 bytes := by
  have hbyte : (UInt8.ofNat b).toNat = b := UInt8.toNat_ofNat_of_lt' hb
  rw [decode, hbyte]
  rfl

/-- A byte that goes on with the character begun, and is not its last. -/
theorem decode_some_succ {bits missing low high b : Nat} (hlow : low ≤ b) (hhigh : b ≤ high)
    (hb : b < 256) (bytes : List UInt8) :
    decode (some ⟨bits, missing + 1, low, high⟩) (UInt8.ofNat b :: bytes) =
      decode (some ⟨bits * 64 + (b - 0x80), missing, 0x80, 0xBF⟩) bytes := by
  have hbyte : (UInt8.ofNat b).toNat = b := UInt8.toNat_ofNat_of_lt' hb
  simp [decode, next, hbyte, hlow, hhigh]

/-- The last byte of the character begun. -/
theorem decode_some_zero {bits low high b : Nat} (hlow : low ≤ b) (hhigh : b ≤ high)
    (hb : b < 256) (bytes : List UInt8) :
    decode (some ⟨bits, 0, low, high⟩) (UInt8.ofNat b :: bytes) =
      Char.ofNat (bits * 64 + (b - 0x80)) :: decode none bytes := by
  have hbyte : (UInt8.ofNat b).toNat = b := UInt8.toNat_ofNat_of_lt' hb
  simp [decode, next, hbyte, hlow, hhigh]

/-- **The bytes of a character** are read as it. -/
theorem decode_utf8EncodeChar (c : Char) (bytes : List UInt8) :
    decode none (String.utf8EncodeChar c ++ bytes) = c :: decode none bytes := by
  have hchar {n : Nat} (hn : n = c.val.toNat) : Char.ofNat n = c := hn ▸ Char.ofNat_toNat c
  have hvalid : c.val.toNat < 0xD800 ∨ 0xDFFF < c.val.toNat ∧ c.val.toNat < 0x110000 := c.valid
  unfold String.utf8EncodeChar
  generalize c.val.toNat = v at hchar hvalid
  dsimp only
  split
  case isTrue =>
    rw [List.cons_append, decode_none_cons (by omega), first, if_pos (by omega), hchar rfl]
    rfl
  split
  case isTrue =>
    rw [List.cons_append, decode_none_cons (by omega), first, if_neg (by omega),
      if_pos (by omega), List.nil_append, List.cons_append,
      decode_some_zero (by omega) (by omega) (by omega), hchar (by omega)]
    rfl
  split
  case isTrue =>
    -- The second byte after `E0` is not too small, and after `ED` not too large.
    rw [List.cons_append, decode_none_cons (by omega), first, if_neg (by omega), if_neg (by omega),
      if_pos (by omega), List.nil_append, List.cons_append,
      decode_some_succ (by split <;> omega) (by split <;> omega) (by omega), List.cons_append,
      decode_some_zero (by omega) (by omega) (by omega), hchar (by omega)]
    rfl
  case isFalse =>
    -- Nor after `F0` and `F4`.
    rw [List.cons_append, decode_none_cons (by omega), first, if_neg (by omega), if_neg (by omega),
      if_neg (by omega), if_pos (by omega), List.nil_append, List.cons_append,
      decode_some_succ (by split <;> omega) (by split <;> omega) (by omega), List.cons_append,
      decode_some_succ (by omega) (by omega) (by omega), List.cons_append,
      decode_some_zero (by omega) (by omega) (by omega), hchar (by omega)]
    rfl

/-- **The bytes of a text** are read as it. -/
theorem decode_utf8 (text : List Char) :
    decode none (text.flatMap String.utf8EncodeChar) = text := by
  induction text with
  | nil => rfl
  | cons c text ih => rw [List.flatMap_cons, decode_utf8EncodeChar, ih]

end Utf8

/-! ### Strings of the system -/

/-- **A string of the system**: any bytes. -/
structure OsString where
  /-- Its bytes. -/
  bytes : List UInt8
deriving DecidableEq, Repr

namespace OsString

/-- A text as a string of the system. -/
def ofText (text : String) : OsString := ⟨text.toList.flatMap String.utf8EncodeChar⟩

instance : Coe String OsString := ⟨ofText⟩

instance : Append OsString := ⟨fun s t => ⟨s.bytes ++ t.bytes⟩⟩

/-- What is printed of a string. -/
def display (s : OsString) : String := String.ofList (Utf8.decode none s.bytes)

/-- **The text** that a string is, if it is one. -/
def text? (s : OsString) : Option String :=
  if ofText s.display = s then some s.display else none

/-- What follows the bytes that a string starts with. -/
def after? (s start : OsString) : Option OsString :=
  if start.bytes.isPrefixOf s.bytes then some ⟨s.bytes.drop start.bytes.length⟩ else none

/-- **A text is printed as it is.** -/
@[simp] theorem display_ofText (text : String) : (ofText text).display = text := by
  rw [display, ofText, Utf8.decode_utf8, String.ofList_toList]

@[simp] theorem text?_ofText (text : String) : (ofText text).text? = some text := by
  rw [text?, display_ofText, if_pos rfl]

/-- **Which strings are texts.** -/
theorem text?_eq_some_iff {s : OsString} {text : String} : s.text? = some text ↔ s = ofText text := by
  constructor
  · intro h
    unfold text? at h
    split at h
    · next hs => rw [← Option.some.inj h, hs]
    · cases h
  · rintro rfl
    exact text?_ofText text

/-- Which are not. -/
theorem text?_eq_none_iff {s : OsString} : s.text? = none ↔ ∀ text, s ≠ ofText text := by
  rw [Option.eq_none_iff_forall_ne_some]
  exact forall_congr' fun text => not_congr text?_eq_some_iff

-- Bytes that begin a character of three and do not end it, and one that begins none.
example : (OsString.mk [0x61, 0xE2, 0x82, 0x62, 0xFF]).display = "a\uFFFDb\uFFFD" := by
  decide +kernel

end OsString

end ScriptLint
