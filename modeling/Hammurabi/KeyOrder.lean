/-
This file says which order the comparator of the keys is.

The writer sorts the members of an object with `utf16Cmp`, and the canonical form is
unique only if that comparator is a linear order whose equality is identity. It is the
lexicographic order of the characters in which the supplementary ones rank between the
two halves of the basic plane, so it departs from code point order in one case and the
case can be read off the first difference of the two keys.
-/

import Hammurabi.Jcs
import Hammurabi.Library.Utf16Order

namespace Hammurabi

open Unicode

/-! ### The laws of a linear order -/

theorem utf16Cmp_eq_iff (a b : String) : utf16Cmp a b = .eq ↔ a = b := by
  constructor
  · intro same
    have units := Std.LawfulEqOrd.eq_of_compare (a := encodeUtf16 a.toList) same
    exact String.toList_inj.mp (encodeUtf16_injective units)
  · rintro rfl
    exact Std.ReflOrd.compare_self

theorem utf16Cmp_swap (a b : String) : utf16Cmp b a = (utf16Cmp a b).swap :=
  Std.OrientedOrd.eq_swap

theorem utf16Cmp_trans (a b c : String) (below : utf16Cmp a b ≠ .gt) (above : utf16Cmp b c ≠ .gt) :
    utf16Cmp a c ≠ .gt :=
  IsTrans.trans (r := Utf16Le) a b c below above

theorem utf16Cmp_total (a b : String) : utf16Cmp a b ≠ .gt ∨ utf16Cmp b a ≠ .gt :=
  Std.Total.total (r := Utf16Le) a b

/-! ### Against code points -/

theorem utf16Cmp_eq_bands (a b : String) :
    utf16Cmp a b = List.compareLex compareBands a.toList b.toList :=
  compare_encodeUtf16 a.toList b.toList

/-- The comparator of the keys is a linear order: equal only on identical keys, antisymmetric,
transitive and total. It is the lexicographic order of the characters in which a supplementary
one ranks after U+D7FF and before U+E000, and it is code point order except where the first
difference sets a supplementary character against one in U+E000..U+FFFF. -/
theorem utf16Cmp_order (a b c : String) :
    (utf16Cmp a b = .eq ↔ a = b) ∧
    utf16Cmp b a = (utf16Cmp a b).swap ∧
    (utf16Cmp a b ≠ .gt → utf16Cmp b a ≠ .gt → a = b) ∧
    (utf16Cmp a b ≠ .gt → utf16Cmp b c ≠ .gt → utf16Cmp a c ≠ .gt) ∧
    (utf16Cmp a b ≠ .gt ∨ utf16Cmp b a ≠ .gt) ∧
    utf16Cmp a b = List.compareLex compareBands a.toList b.toList ∧
    (utf16Cmp a b = List.compareLex compareCodePoints a.toList b.toList ↔
      ¬MixedDifference a.toList b.toList) := by
  refine ⟨utf16Cmp_eq_iff a b, utf16Cmp_swap a b, Std.Antisymm.antisymm (r := Utf16Le) a b,
    utf16Cmp_trans a b c, utf16Cmp_total a b, utf16Cmp_eq_bands a b, ?_⟩
  rw [utf16Cmp_eq_bands]
  exact compareLex_bands_eq_iff a.toList b.toList

/-- A letter, U+10000 and U+FFFF: sorted in this order, and the last two against their code
points. -/
theorem utf16Cmp_order_wide :
    utf16Cmp "a" "\uffff" ≠ .gt ∧
    utf16Cmp "𐀀" "\uffff" ≠ List.compareLex compareCodePoints "𐀀".toList "\uffff".toList := by
  have law := utf16Cmp_order "a" "𐀀" "\uffff"
  have mixed := utf16Cmp_order "𐀀" "\uffff" "\uffff"
  refine ⟨law.2.2.2.1 (by decide) (by decide), fun plain => ?_⟩
  refine mixed.2.2.2.2.2.2.mp plain ⟨'𐀀', '\uffff', by decide, .inl ?_⟩
  decide

end Hammurabi
