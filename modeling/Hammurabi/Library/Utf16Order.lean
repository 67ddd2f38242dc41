/-
This file relates the order of UTF-16 code unit sequences to the order of code points.

The two orders disagree in one place. A supplementary character is written with
surrogates, whose values lie between U+D7FF and U+E000, so it ranks there among the
units although its code point is above both. Ranking the characters by band first,
below the surrogates, supplementary, above the surrogates, and by code point inside a
band gives the order of the units, character by character: the first characters in
which two texts differ decide, whatever follows.
-/

import Hammurabi.Library.Unicode
import Mathlib.Order.Lattice

namespace Unicode

/-! ### The first difference of two texts -/

/-- The first pair of characters in which two texts differ, if one is not the beginning of
the other. -/
def firstDifference : List Char → List Char → Option (Char × Char)
  | c :: first, d :: second => if c = d then firstDifference first second else some (c, d)
  | _, _ => none

/-- A lexicographic comparison is the comparison at the first difference. -/
theorem compareLex_of_difference (cmp : Char → Char → Ordering) [Std.LawfulEqCmp cmp]
    (first second : List Char) (c d : Char)
    (differ : firstDifference first second = some (c, d)) :
    List.compareLex cmp first second = cmp c d := by
  induction first generalizing second with
  | nil => exact absurd differ (Option.some_ne_none _).symm
  | cons a first inductionHypothesis =>
    cases second with
    | nil => exact absurd differ (Option.some_ne_none _).symm
    | cons b second =>
      rw [firstDifference] at differ
      rw [List.compareLex_cons_cons]
      split at differ
      · next same =>
        have equal : cmp b b = .eq := Std.ReflCmp.compare_self
        rw [same, equal, inductionHypothesis second differ, Ordering.then]
      · next other =>
        obtain ⟨rfl, rfl⟩ := Prod.mk.inj (Option.some.inj differ)
        cases order : cmp a b with
        | lt => rfl
        | gt => rfl
        | eq => exact absurd (Std.LawfulEqCmp.eq_of_compare order) other

/-- Where there is no difference the lengths decide. -/
theorem compareLex_of_no_difference (cmp : Char → Char → Ordering) [Std.ReflCmp cmp]
    (first second : List Char) (differ : firstDifference first second = none) :
    List.compareLex cmp first second = compare first.length second.length := by
  induction first generalizing second with
  | nil =>
    cases second with
    | nil => rfl
    | cons b second => exact (Nat.compare_eq_lt.mpr (Nat.succ_pos _)).symm
  | cons a first inductionHypothesis =>
    cases second with
    | nil => exact (Nat.compare_eq_gt.mpr (Nat.succ_pos _)).symm
    | cons b second =>
      rw [firstDifference] at differ
      rw [List.compareLex_cons_cons]
      split at differ
      · next same =>
        have equal : cmp b b = .eq := Std.ReflCmp.compare_self
        rw [same, equal, Ordering.then, inductionHypothesis second differ,
          Nat.compare_eq_ite_lt, Nat.compare_eq_ite_lt]
        simp only [List.length_cons, Nat.add_lt_add_iff_right]
      · exact absurd differ (Option.some_ne_none _)

/-! ### The order by bands -/

/-- Whether a character is supplementary: written with two surrogates. -/
def Supplementary (c : Char) : Prop := 0x10000 ≤ c.toNat

/-- Whether a character is on the basic plane above the surrogates. -/
def AboveSurrogates (c : Char) : Prop := 0xE000 ≤ c.toNat ∧ c.toNat < 0x10000

instance : DecidablePred Supplementary := fun c => inferInstanceAs (Decidable (_ ≤ c.toNat))

instance : DecidablePred AboveSurrogates :=
  fun c => inferInstanceAs (Decidable (_ ≤ c.toNat ∧ c.toNat < _))

/-- The band of a character: the supplementary ones between the two parts of the basic plane. -/
def band (c : Char) : Nat :=
  if Supplementary c then 1 else if AboveSurrogates c then 2 else 0

/-- Comparison by code point. -/
def compareCodePoints (c d : Char) : Ordering := compare c.toNat d.toNat

/-- Comparison in which the supplementary characters rank after U+D7FF and before U+E000. -/
def compareBands (c d : Char) : Ordering :=
  (compare (band c) (band d)).then (compareCodePoints c d)

instance : Std.LawfulEqCmp compareCodePoints where
  compare_self := Nat.compare_eq_eq.mpr rfl
  eq_of_compare same := Char.toNat_inj.mp (Nat.compare_eq_eq.mp same)

instance : Std.LawfulEqCmp compareBands where
  compare_self {c} := by
    rw [compareBands, Nat.compare_eq_eq.mpr rfl, Ordering.then]
    exact Std.ReflCmp.compare_self
  eq_of_compare same := Std.LawfulEqCmp.eq_of_compare (Ordering.then_eq_eq.mp same).2

instance : Std.OrientedCmp compareBands where
  eq_swap {c d} := by
    rw [compareBands, compareBands, Ordering.swap_then, compareCodePoints, compareCodePoints,
      Nat.compare_swap, Nat.compare_swap]

theorem band_cases (c : Char) :
    (band c = 0 ∧ c.toNat < 0xD800) ∨ (band c = 1 ∧ Supplementary c) ∨
      (band c = 2 ∧ AboveSurrogates c) := by
  have bounds := char_bounds c
  unfold band
  split_ifs with supplementary above
  · exact .inr (.inl ⟨rfl, supplementary⟩)
  · exact .inr (.inr ⟨rfl, above⟩)
  · unfold Supplementary at supplementary
    unfold AboveSurrogates at above
    exact .inl ⟨rfl, by omega⟩

/-- The two orders of the characters disagree exactly on a supplementary character and one
above the surrogates. -/
theorem compareBands_eq_iff (c d : Char) :
    compareBands c d = compareCodePoints c d ↔
      ¬((Supplementary c ∧ AboveSurrogates d) ∨ (AboveSurrogates c ∧ Supplementary d)) := by
  unfold compareBands compareCodePoints
  simp only [Nat.compare_eq_ite_lt]
  rcases band_cases c with ⟨bandC, rangeC⟩ | ⟨bandC, rangeC⟩ | ⟨bandC, rangeC⟩ <;>
    rcases band_cases d with ⟨bandD, rangeD⟩ | ⟨bandD, rangeD⟩ | ⟨bandD, rangeD⟩ <;>
    simp only [bandC, bandD, Supplementary, AboveSurrogates] at rangeC rangeD ⊢ <;>
    split_ifs <;> simp only [Ordering.then, reduceCtorEq, false_iff, true_iff] <;> omega

/-! ### Units compared -/

theorem compare_units (u v : UInt16) : compare u v = compare u.toNat v.toNat := by
  rw [Nat.compare_eq_ite_lt]
  change compareOfLessAndEq u v = _
  unfold compareOfLessAndEq
  simp only [UInt16.lt_iff_toNat_lt, ← UInt16.toNat_inj]
  split_ifs <;> first | rfl | omega

/-- A common beginning does not count. -/
theorem compare_append (common first second : List UInt16) :
    compare (common ++ first) (common ++ second) = compare first second := by
  induction common with
  | nil => rfl
  | cons u common inductionHypothesis =>
    rw [List.cons_append, List.cons_append, List.compare_cons_cons, Std.ReflOrd.compare_self,
      Ordering.then, inductionHypothesis]

theorem encodeUtf16Char_basic (c : Char) (basic : ¬Supplementary c) :
    encodeUtf16Char c = [UInt16.ofNat c.toNat] := if_pos (Nat.lt_of_not_le basic)

theorem encodeUtf16Char_supplementary (c : Char) (supplementary : Supplementary c) :
    encodeUtf16Char c = [UInt16.ofNat (0xD800 + (c.toNat - 0x10000) / 0x400),
      UInt16.ofNat (0xDC00 + (c.toNat - 0x10000) % 0x400)] :=
  if_neg (Nat.not_lt_of_le supplementary)

/-- Of a supplementary character and a basic one the lead surrogate decides. -/
theorem compare_supplementary_basic (c d : Char) (supplementary : Supplementary c)
    (basic : ¬Supplementary d) (first second : List UInt16) :
    compare (encodeUtf16Char c ++ first) (encodeUtf16Char d ++ second) = compareBands c d := by
  have bounds := char_bounds c
  have bandC : band c = 1 := if_pos supplementary
  rw [encodeUtf16Char_supplementary c supplementary, encodeUtf16Char_basic d basic, compareBands,
    compareCodePoints, bandC]
  unfold Supplementary at supplementary
  simp only [List.cons_append, List.compare_cons_cons, compare_units, UInt16.toNat_ofNat',
    Nat.compare_eq_ite_lt]
  rcases band_cases d with ⟨bandD, range⟩ | ⟨-, range⟩ | ⟨bandD, range⟩
  · rw [bandD]
    split_ifs <;> simp only [Ordering.then, reduceCtorEq] <;> omega
  · exact absurd range basic
  · unfold AboveSurrogates at range
    rw [bandD]
    split_ifs <;> simp only [Ordering.then, reduceCtorEq] <;> omega

/-- Two different characters are told apart by their units, whatever follows them, and as their
bands are. -/
theorem compare_encodeUtf16Char (c d : Char) (differ : c ≠ d) (first second : List UInt16) :
    compare (encodeUtf16Char c ++ first) (encodeUtf16Char d ++ second) = compareBands c d := by
  have codes : c.toNat ≠ d.toNat := fun same => differ (Char.toNat_inj.mp same)
  have boundsC := char_bounds c
  have boundsD := char_bounds d
  by_cases supplementaryC : Supplementary c <;> by_cases supplementaryD : Supplementary d
  · -- two pairs: the leads decide unless they are shared, and then the trails do
    have plain : compareBands c d = compareCodePoints c d := by
      rw [compareBands_eq_iff]
      unfold Supplementary AboveSurrogates at *
      omega
    rw [plain, encodeUtf16Char_supplementary c supplementaryC,
      encodeUtf16Char_supplementary d supplementaryD]
    unfold Supplementary at *
    simp only [List.cons_append, List.compare_cons_cons, compare_units, UInt16.toNat_ofNat',
      compareCodePoints, Nat.compare_eq_ite_lt]
    split_ifs <;> simp only [Ordering.then, reduceCtorEq] <;> omega
  · exact compare_supplementary_basic c d supplementaryC supplementaryD first second
  · have swapped : compareBands c d = (compareBands d c).swap := Std.OrientedCmp.eq_swap
    rw [Std.OrientedOrd.eq_swap, swapped,
      compare_supplementary_basic d c supplementaryD supplementaryC second first]
  · have plain : compareBands c d = compareCodePoints c d := by
      rw [compareBands_eq_iff]
      exact fun mixed => mixed.elim (fun h => supplementaryC h.1) fun h => supplementaryD h.2
    rw [plain, encodeUtf16Char_basic c supplementaryC, encodeUtf16Char_basic d supplementaryD]
    unfold Supplementary at *
    simp only [List.cons_append, List.compare_cons_cons, compare_units, UInt16.toNat_ofNat',
      compareCodePoints, Nat.compare_eq_ite_lt]
    split_ifs <;> simp only [Ordering.then, reduceCtorEq] <;> omega

/-- The units of two texts compare as the texts do by bands, character by character. -/
theorem compare_encodeUtf16 (first second : List Char) :
    compare (encodeUtf16 first) (encodeUtf16 second) =
      List.compareLex compareBands first second := by
  induction first generalizing second with
  | nil =>
    cases second with
    | nil => rfl
    | cons d second =>
      obtain ⟨u, units, starts⟩ := List.exists_cons_of_ne_nil (encodeUtf16Char_ne_nil d)
      rw [encodeUtf16_cons, starts]
      rfl
  | cons c first inductionHypothesis =>
    cases second with
    | nil =>
      obtain ⟨u, units, starts⟩ := List.exists_cons_of_ne_nil (encodeUtf16Char_ne_nil c)
      rw [encodeUtf16_cons, starts]
      rfl
    | cons d second =>
      rw [encodeUtf16_cons, encodeUtf16_cons, List.compareLex_cons_cons]
      by_cases same : c = d
      · have equal : compareBands d d = .eq := Std.ReflCmp.compare_self
        rw [same, compare_append, inductionHypothesis, equal, Ordering.then]
      · rw [compare_encodeUtf16Char c d same]
        cases order : compareBands c d with
        | lt => rfl
        | gt => rfl
        | eq => exact absurd (Std.LawfulEqCmp.eq_of_compare order) same

/-- Whether the first difference is one supplementary character against one above the
surrogates. -/
def MixedDifference (first second : List Char) : Prop :=
  ∃ c d, firstDifference first second = some (c, d) ∧
    ((Supplementary c ∧ AboveSurrogates d) ∨ (AboveSurrogates c ∧ Supplementary d))

/-- Two texts compare by bands as by code points exactly when their first difference is not of
the mixed kind. -/
theorem compareLex_bands_eq_iff (first second : List Char) :
    List.compareLex compareBands first second = List.compareLex compareCodePoints first second ↔
      ¬MixedDifference first second := by
  cases differ : firstDifference first second with
  | none =>
    rw [compareLex_of_no_difference compareBands first second differ,
      compareLex_of_no_difference compareCodePoints first second differ]
    refine iff_of_true rfl ?_
    rintro ⟨c, d, found, -⟩
    exact Option.some_ne_none _ (found.symm.trans differ)
  | some pair =>
    obtain ⟨c, d⟩ := pair
    rw [compareLex_of_difference compareBands first second c d differ,
      compareLex_of_difference compareCodePoints first second c d differ, compareBands_eq_iff]
    refine not_congr ⟨fun mixed => ⟨c, d, differ, mixed⟩, ?_⟩
    rintro ⟨e, f, found, mixed⟩
    obtain ⟨rfl, rfl⟩ := Prod.mk.inj (Option.some.inj (differ.symm.trans found))
    exact mixed

end Unicode
