import Mathlib.Algebra.Order.Field.Rat
import Mathlib.Algebra.Order.Ring.Cast
import Mathlib.Data.Rat.Cast.Defs
import ScriptLint.Config.Document

/-!
# The schema of a configuration

A schema says of a JSON value whether it is admitted, keyword by keyword.  The schema of a
configuration document is a term in these keywords, and the check that is made before a document
is read decides it: on values of every shape, with numbers compared by the rational number that
they are, however they are written.

## Main definitions

* `Json.Number.value` — the rational number that a number is
* `Schema` — what is asked of a value, with an operation for each keyword
* `OptionValue.schema`, `Document.schema` — the schema of an option and of a document

## Main statements

* `isAdmitted_iff_option` — the check of an option decides its schema
* `isAdmitted_iff_document` — the check of a document decides its schema
-/

namespace ScriptLint

/-! ### Numbers by their value -/

namespace Binary64

/-- The significand with its sign. -/
def signed (x : Binary64) : ℤ := if x.negative then -x.significand else x.significand

/-- **Value**: the rational number that a floating-point number is. -/
def value (x : Binary64) : ℚ := x.signed * 2 ^ x.exponent

variable (x : Binary64)

theorem dvd_signed_iff (d : ℕ) : (d : ℤ) ∣ x.signed ↔ d ∣ x.significand := by
  unfold signed
  split
  · rw [Int.dvd_neg, Int.natCast_dvd_natCast]
  · rw [Int.natCast_dvd_natCast]

theorem isWhole_iff : x.isWhole = true ↔ ∃ z : ℤ, x.value = z := by
  unfold isWhole value
  cases x.exponent with
  | ofNat e =>
    refine iff_of_true rfl ⟨x.signed * 2 ^ e, ?_⟩
    push_cast
    rw [Int.ofNat_eq_natCast, zpow_natCast]
  | negSucc e =>
    have hpos : (2 : ℚ) ^ (e + 1) ≠ 0 := pow_ne_zero _ two_ne_zero
    have hdvd : (x.significand % Nat.pow 2 (e + 1) == 0) = true ↔
        ((2 ^ (e + 1) : ℕ) : ℤ) ∣ x.signed := by
      rw [dvd_signed_iff, beq_iff_eq]
      exact (Nat.dvd_iff_mod_eq_zero ..).symm
    refine hdvd.trans (exists_congr fun z => ?_)
    rw [zpow_negSucc, ← div_eq_mul_inv, div_eq_iff hpos, mul_comm]
    norm_cast

theorem isNonnegative_iff : x.isNonnegative = true ↔ 0 ≤ x.value := by
  have hpos : (0 : ℚ) < 2 ^ x.exponent := zpow_pos two_pos _
  unfold value
  rw [mul_nonneg_iff_of_pos_right hpos, Int.cast_nonneg_iff]
  unfold isNonnegative signed
  cases x.negative with
  | false => simp
  | true => simp

end Binary64

namespace Json.Number

/-- **Value**: the rational number that a number is, however it is written. -/
def value : Number → ℚ
  | natural n => n.toNat
  | negative m => -m.toNat
  | real x => x.value

theorem isInteger_iff (n : Number) : n.isInteger = true ↔ ∃ z : ℤ, n.value = z := by
  cases n with
  | natural n => exact iff_of_true rfl ⟨n.toNat, by simp [value]⟩
  | negative m => exact iff_of_true rfl ⟨-m.toNat, by simp [value]⟩
  | real x => exact x.isWhole_iff

theorem isNonnegative_iff (n : Number) : n.isNonnegative = true ↔ 0 ≤ n.value := by
  cases n with
  | natural n => exact iff_of_true rfl (Nat.cast_nonneg _)
  | negative m =>
    have hzero : m = 0 ↔ m.toNat = 0 := UInt64.toNat_inj.symm
    simp [isNonnegative, value, hzero]
  | real x => exact x.isNonnegative_iff

end Json.Number

/-! ### Schemas -/

/-- **Schema**: what is asked of a value. -/
structure Schema where
  /-- Whether a value is as it is asked to be. -/
  Admits : Json → Prop

namespace Schema

/-- The types that a schema can ask for. -/
inductive TypeName
  | boolean
  | integer
  | string
  | array
  | object
deriving DecidableEq

/-- No value will do. -/
def never : Schema := ⟨fun _ => False⟩

/-- The keyword `type`.  An integer is a number without a fractional part. -/
def type : TypeName → Schema
  | .boolean => ⟨fun value => ∃ b, value = .bool b⟩
  | .integer => ⟨fun value => ∃ n, value = .number n ∧ ∃ z : ℤ, n.value = z⟩
  | .string => ⟨fun value => ∃ s, value = .string s⟩
  | .array => ⟨fun value => ∃ items, value = .array items⟩
  | .object => ⟨fun value => ∃ members, value = .object members⟩

/-- The keyword `minimum`: no number is below the bound. -/
def minimum (bound : ℚ) : Schema := ⟨fun value => ∀ n, value = .number n → bound ≤ n.value⟩

/-- The keyword `enum`: one of some values. -/
def enum (values : List Json) : Schema := ⟨fun value => value ∈ values⟩

/-- The keyword `items`: what is asked of every item of a list. -/
def items (each : Schema) : Schema :=
  ⟨fun value => ∀ items, value = .array items → ∀ item ∈ items, each.Admits item⟩

/-- The keywords `properties` and `additionalProperties`: what is asked of the members of an
object, by their names, and of those with another name. -/
def properties (named : List (String × Schema)) (additional : Schema) : Schema :=
  ⟨fun value => ∀ members, value = .object members → ∀ m ∈ members,
    (∀ p ∈ named, p.1 = m.1 → p.2.Admits m.2) ∧
      ((∀ p ∈ named, p.1 ≠ m.1) → additional.Admits m.2)⟩

/-- The keyword `oneOf`: exactly one of some schemas admits the value. -/
def oneOf (schemas : List Schema) : Schema :=
  ⟨fun value => ∃! i : ℕ, ∃ schema : Schema, schemas[i]? = some schema ∧ schema.Admits value⟩

/-- Several keywords at once. -/
def all (schemas : List Schema) : Schema := ⟨fun value => ∀ schema ∈ schemas, schema.Admits value⟩

/-- A list of names. -/
def names : Schema := all [type .array, items (type .string)]

end Schema

/-- **The schema of an option.** -/
def OptionValue.schema : Schema :=
  .oneOf [
    .type .boolean,
    .all [.type .integer, .minimum 0],
    .all [.type .string, .enum (["off", "warn", "warning", "error"].map .string)]]

/-- The schemas of the members of a document. -/
def Document.memberSchemas : List (String × Schema) :=
  [("$schema", .type .string),
    ("options", .all [.type .object, .properties [] OptionValue.schema]),
    ("globals", .names),
    ("globals_browser", .names),
    ("globals_user", .names)]

/-- **The schema of a document**: an object with no other members. -/
def Document.schema : Schema := .all [.type .object, .properties memberSchemas .never]

/-! ### What the keywords admit -/

namespace Schema

variable {value : Json}

theorem admits_all {schemas : List Schema} :
    (all schemas).Admits value ↔ ∀ schema ∈ schemas, schema.Admits value := Iff.rfl

/-- A value is of one type at most. -/
theorem eq_of_admits_type {a b : TypeName} (ha : (type a).Admits value)
    (hb : (type b).Admits value) : a = b := by
  cases value <;> cases a <;> cases b <;> simp_all [type]

/-- Of schemas that exclude each other one admits a value exactly if some schema does. -/
theorem admits_oneOf {schemas : List Schema}
    (hexclusive : schemas.Pairwise fun s t => ¬ (s.Admits value ∧ t.Admits value)) :
    (oneOf schemas).Admits value ↔ ∃ schema ∈ schemas, schema.Admits value := by
  constructor
  · rintro ⟨i, ⟨schema, hschema, hvalue⟩, -⟩
    exact ⟨schema, List.mem_of_getElem? hschema, hvalue⟩
  · rintro ⟨schema, hmem, hvalue⟩
    obtain ⟨i, hi⟩ := List.mem_iff_getElem?.mp hmem
    refine ⟨i, ⟨schema, hi, hvalue⟩, ?_⟩
    rintro j ⟨other, hj, hother⟩
    obtain ⟨hilt, rfl⟩ := List.getElem?_eq_some_iff.mp hi
    obtain ⟨hjlt, rfl⟩ := List.getElem?_eq_some_iff.mp hj
    have hpairs := List.pairwise_iff_getElem.mp hexclusive
    rcases Nat.lt_trichotomy j i with hlt | rfl | hlt
    · exact absurd ⟨hother, hvalue⟩ (hpairs j i hjlt hilt hlt)
    · rfl
    · exact absurd ⟨hvalue, hother⟩ (hpairs i j hilt hjlt hlt)

end Schema

/-! ### The checks decide the schemas -/

/-- The names of levels. -/
theorem Level.isSome_ofName?_iff (name : String) :
    (ofName? name).isSome = true ↔ name ∈ ["off", "warn", "warning", "error"] := by
  unfold ofName?
  split_ifs with hoff hwarn herror
  · simp [hoff]
  · rcases hwarn with rfl | rfl <;> simp
  · simp [herror]
  · simp_all

theorem Document.isStringList_iff (value : Json) :
    isStringList value = true ↔ Schema.names.Admits value := by
  unfold Schema.names
  rw [Schema.admits_all]
  cases value with
  | array items =>
    simp only [isStringList, Schema.type, Schema.items, List.all_eq_true, List.forall_mem_cons,
      Json.array.injEq, exists_eq', forall_eq', List.not_mem_nil, false_implies, implies_true,
      true_and, and_true]
    refine forall₂_congr fun item _ => ?_
    cases item <;> simp
  | _ => simp [isStringList, Schema.type]

/-- **The check of an option** decides its schema. -/
theorem OptionValue.isAdmitted_iff_option (value : Json) :
    isAdmitted value = true ↔ schema.Admits value := by
  unfold schema
  rw [Schema.admits_oneOf]
  · cases value with
    | bool b => simp [isAdmitted, Schema.type]
    | number n =>
      simp [isAdmitted, Schema.type, Schema.admits_all, Schema.minimum, n.isInteger_iff,
        n.isNonnegative_iff]
    | string s =>
      simp [isAdmitted, Schema.type, Schema.admits_all, Schema.enum, Level.isSome_ofName?_iff]
    | _ => simp [isAdmitted, Schema.type, Schema.admits_all]
  · -- The three schemas ask for different types.
    have htypes {a b : Schema.TypeName} (hab : a ≠ b) (ha : (Schema.type a).Admits value) :
        ¬ (Schema.type b).Admits value := fun hb => hab (Schema.eq_of_admits_type ha hb)
    simp only [List.pairwise_cons, List.forall_mem_cons, Schema.admits_all, List.not_mem_nil,
      false_implies, implies_true, and_true, List.Pairwise.nil, not_and]
    refine ⟨⟨fun hb hi => ?_, fun hb hs => ?_⟩, fun hi hs => ?_⟩
    · exact absurd hi (htypes (by decide) hb)
    · exact absurd hs (htypes (by decide) hb)
    · exact absurd hs (htypes (by decide) hi.1)

namespace Document

/-- The check of the options decides their schema. -/
theorem isAdmittedMember_options_iff (value : Json) :
    isAdmittedMember "options" value = true ↔
      (Schema.all [.type .object, .properties [] OptionValue.schema]).Admits value := by
  rw [Schema.admits_all]
  cases value with
  | object members =>
    simp [isAdmittedMember, Schema.type, Schema.properties, OptionValue.isAdmitted_iff_option]
  | _ => simp [isAdmittedMember, Schema.type]

/-- The check of a member decides the schema with its name, and there has to be one. -/
theorem isAdmittedMember_iff (name : String) (value : Json) :
    isAdmittedMember name value = true ↔
      (∀ p ∈ memberSchemas, p.1 = name → p.2.Admits value) ∧ ∃ p ∈ memberSchemas, p.1 = name := by
  unfold memberSchemas
  by_cases hschema : name = "$schema"
  · subst hschema
    cases value <;> simp [isAdmittedMember, Schema.type]
  by_cases hoptions : name = "options"
  · subst hoptions
    simp [isAdmittedMember_options_iff]
  by_cases hglobals : name = "globals" ∨ name = "globals_browser" ∨ name = "globals_user"
  · rcases hglobals with rfl | rfl | rfl <;> simp [isAdmittedMember, isStringList_iff]
  · obtain ⟨hlanguage, hbrowser, huser⟩ :
        name ≠ "globals" ∧ name ≠ "globals_browser" ∧ name ≠ "globals_user" := by
      simpa [not_or] using hglobals
    have hnone : isAdmittedMember name value = false := by
      unfold isAdmittedMember
      split <;> simp_all
    simp [hnone, Ne.symm hschema, Ne.symm hoptions, hlanguage.symm, hbrowser.symm, huser.symm]

/-- **The check of a document** decides its schema. -/
theorem isAdmitted_iff_document (value : Json) :
    isAdmitted value = true ↔ schema.Admits value := by
  unfold schema
  rw [Schema.admits_all]
  cases value with
  | object members =>
    simp [isAdmitted, isAdmittedMember_iff, Schema.type, Schema.properties, Schema.never]
  | _ => simp [isAdmitted, Schema.type]

end Document

end ScriptLint
