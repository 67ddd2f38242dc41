/-
This file compares the canonical form with RFC 8785.

Members and strings are written alike. Numbers are not: the writer prints every
64-bit integer in full, and the RFC prints the double nearest to it, which has 53
significant bits. The two texts are equal exactly when every integer of the document
is the shortest decimal of its nearest double. Every integer up to `2 ^ 53` is; past
it this is a property of the single number.
-/

import Hammurabi.Jcs
import Hammurabi.Library.Rfc8785

namespace Hammurabi

open Json Unicode

theorem isLE_compare_iff (a b : List UInt16) : (compare a b).isLE = true ↔ a ≤ b := by
  induction a generalizing b with
  | nil => cases b <;> simp [List.compare_nil_cons]
  | cons x a inductionHypothesis =>
    cases b with
    | nil => simp [List.compare_cons_nil]
    | cons y b =>
      rw [List.compare_cons_cons, List.cons_le_cons_iff, ← inductionHypothesis,
        Ordering.isLE_then_iff_or, Std.compare_eq_lt, Std.compare_eq_iff_eq]

/-- The order of the writer is the order of the RFC. -/
theorem notAfter_iff (a b : String) : Rfc8785.NotAfter a b ↔ Utf16Le a b := by
  rw [utf16Le_iff, utf16Cmp, isLE_compare_iff, Rfc8785.NotAfter]

/-- The canonical text of the RFC is the text of the sorted document with its numbers replaced. -/
theorem rfc8785_text_eq (value : Value) :
    Rfc8785.text value =
      ((value.sortMembers Utf16Le).mapNumbers Rfc8785.canonicalNumber).text := by
  rw [Rfc8785.text_eq, Value.sortMembers_congr _ Utf16Le notAfter_iff, Value.sortMembers_mapNumbers]

/-- The texts of the writer and of the RFC are equal exactly when no number is replaced. -/
theorem text_eq_rfc8785_iff (value : Value) (integer : value.IntegerOnly) :
    (value.sortMembers Utf16Le).text = Rfc8785.text value ↔
      ∀ number ∈ value.numbers, Binary64.IsOwnShortest number.magnitude := by
  have integers := (Value.integerOnly_iff_numbers value).mp integer
  have numbers : (∀ number ∈ value.numbers, Rfc8785.canonicalNumber number = number) ↔
      ∀ number ∈ value.numbers, Binary64.IsOwnShortest number.magnitude :=
    forall₂_congr fun number member =>
      Rfc8785.canonicalNumber_eq_self_iff number (integers number member)
  rw [rfc8785_text_eq, ← numbers, ← Value.forall_numbers_sortMembers Utf16Le,
    ← Value.mapNumbers_eq_self_iff]
  constructor
  · intro same
    -- both texts are read back, each to the document it was printed from
    have plain := read_text _ ((Value.integerOnly_sortMembers Utf16Le value).mpr integer)
    have replaced := read_text_of_numbers
      ((value.sortMembers Utf16Le).mapNumbers Rfc8785.canonicalNumber) (by
        rw [Value.forall_numbers_mapNumbers, Value.forall_numbers_sortMembers]
        exact fun number member =>
          Rfc8785.numberReadsBack_canonicalNumber number (integers number member))
    rw [← same, plain] at replaced
    exact (Option.some.inj replaced).symm
  · intro same
    rw [same]

/-- On what it accepts, the canonical form is that of RFC 8785, and whoever applies the RFC to any
listing of the same document obtains it, exactly when every integer of the document is at most
`2 ^ 53` in size or is the shortest decimal of its nearest double. -/
theorem canonicalize_conforms_iff (value : Value) (unique : value.UniqueKeys)
    (bytes : List UInt8) (accepted : canonicalize value = .ok bytes) :
    (bytes = Rfc8785.canonicalize value ∧
      ∀ carried, value.SameUpToOrder carried → Rfc8785.canonicalize carried = bytes) ↔
      ∀ number ∈ value.numbers, Binary64.IsOwnShortest number.magnitude := by
  obtain ⟨integer, rfl⟩ := (canonicalize_ok_iff value unique bytes).mp accepted
  rw [← text_eq_rfc8785_iff value integer]
  constructor
  · rintro ⟨same, -⟩
    exact utf8_injective same
  · intro same
    refine ⟨congrArg utf8 same, fun carried reordered => ?_⟩
    rw [Value.sameUpToOrder_iff Utf16Le _ _ unique] at reordered
    rw [same, Rfc8785.canonicalize, rfc8785_text_eq, rfc8785_text_eq, reordered]

/-- Of the largest unsigned integer. -/
theorem canonicalize_conforms_iff_largest :
    let value := Value.object [("max_agents", .number (.posInt 18446744073709551615))]
    let bytes := utf8 "\x7b\"max_agents\":18446744073709551615\x7d".toList
    (bytes = Rfc8785.canonicalize value ∧
      ∀ carried, value.SameUpToOrder carried → Rfc8785.canonicalize carried = bytes) ↔
      ∀ number ∈ value.numbers, Binary64.IsOwnShortest number.magnitude :=
  canonicalize_conforms_iff _ (by simp) _ (by decide +kernel)

/-- One past `2 ^ 53` is accepted and written in full; the RFC writes the double below it. -/
theorem canonicalize_past_double :
    let value := Value.number (.posInt 9007199254740993)
    value.UniqueKeys ∧ canonicalize value = .ok (utf8 "9007199254740993".toList) ∧
      Rfc8785.canonicalize value = utf8 "9007199254740992".toList ∧
      Rfc8785.canonicalize value ≠ utf8 "9007199254740993".toList :=
  ⟨by simp, by decide +kernel, by decide +kernel, by decide +kernel⟩

end Hammurabi
