/-!
# Blank characters

The characters that separate tokens, end lines invisibly and are trimmed from
directive markers: the Unicode property *White_Space*.

## Main definitions

* `isBlank` — membership in *White_Space*
* `trimBlank`, `trimBlankEnd` — a text without its outer blanks
-/

namespace ScriptLint

/-- **Blank**: the Unicode property *White_Space*, twenty-five characters. -/
def isBlank (c : Char) : Bool :=
  let n := c.toNat
  (0x09 ≤ n && n ≤ 0x0D) || n == 0x20 || n == 0x85 || n == 0xA0 || n == 0x1680
    || (0x2000 ≤ n && n ≤ 0x200A) || n == 0x2028 || n == 0x2029 || n == 0x202F
    || n == 0x205F || n == 0x3000

/-- A text without its trailing blanks. -/
def trimBlankEnd (text : List Char) : List Char :=
  (text.reverse.dropWhile isBlank).reverse

/-- A text without its leading and trailing blanks. -/
def trimBlank (text : List Char) : List Char :=
  trimBlankEnd (text.dropWhile isBlank)

/-- Trailing blanks are left out. -/
theorem trimBlankEnd_append {run : List Char} (h : ∀ c ∈ run, isBlank c = true)
    (text : List Char) : trimBlankEnd (text ++ run) = trimBlankEnd text := by
  unfold trimBlankEnd
  rw [List.reverse_append, List.dropWhile_append_of_pos fun c hc => h c (List.mem_reverse.mp hc)]

/-- A text that does not end in a blank stays as it is when trimmed. -/
theorem trimBlankEnd_eq_self {text : List Char}
    (h : ∀ c, text.getLast? = some c → isBlank c = false) : trimBlankEnd text = text := by
  unfold trimBlankEnd
  rw [← List.head?_reverse] at h
  cases hreverse : text.reverse with
  | nil => rw [List.reverse_eq_nil_iff.mp hreverse]; rfl
  | cons c rest =>
    rw [hreverse] at h
    rw [List.dropWhile_cons_of_neg (by simp [h c rfl]), ← hreverse, List.reverse_reverse]

end ScriptLint
