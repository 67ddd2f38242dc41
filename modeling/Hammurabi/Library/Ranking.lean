/-
This file is the stable ranking of a list by score, best first.

A stable sort keeps the order in which equals came. So if the list comes in some order
of its own, the ranked list is in the order of the scores refined by that one, and what
is cut off its end is nowhere ahead of what is kept. Ranking a list that is ranked
already changes nothing.
-/

import Mathlib.Data.List.Basic
import Mathlib.Order.Lattice

namespace Ranking

variable {Item Score : Type} [LinearOrder Score] (score : Item → Score)

/-! ### Pairs of a list in order -/

/-- Two different members of a list come in it one after the other. -/
theorem pair_sublist_or (items : List Item) (first second : Item) (inFirst : first ∈ items)
    (inSecond : second ∈ items) (differ : first ≠ second) :
    [first, second].Sublist items ∨ [second, first].Sublist items := by
  induction items with
  | nil => cases inFirst
  | cons head rest inductionHypothesis =>
    rcases List.mem_cons.mp inFirst with rfl | firstInRest
    · rcases List.mem_cons.mp inSecond with rfl | secondInRest
      · exact absurd rfl differ
      · exact .inl ((List.singleton_sublist.mpr secondInRest).cons_cons _)
    · rcases List.mem_cons.mp inSecond with rfl | secondInRest
      · exact .inr ((List.singleton_sublist.mpr firstInRest).cons_cons _)
      · exact (inductionHypothesis firstInRest secondInRest).imp (.cons head) (.cons head)

/-- Without repetitions they do not come both ways. -/
theorem not_pair_sublist_swap (items : List Item) (nodup : items.Nodup) (first second : Item)
    (ahead : [first, second].Sublist items) : ¬[second, first].Sublist items := by
  induction items with
  | nil => cases ahead
  | cons head rest inductionHypothesis =>
    obtain ⟨fresh, nodupRest⟩ := List.nodup_cons.mp nodup
    intro behind
    cases ahead with
    | cons _ ahead =>
      cases behind with
      | cons _ behind => exact inductionHypothesis nodupRest ahead behind
      | cons_cons _ behind => exact fresh (ahead.subset (by simp))
    | cons_cons _ ahead =>
      cases behind with
      | cons _ behind => exact fresh (behind.subset (by simp))
      | cons_cons _ behind => exact fresh (List.singleton_sublist.mp ahead)

/-! ### The ranked list -/

/-- Whether one item is ranked no later than another for its score. -/
def notBehind (first second : Item) : Bool := (compare (score second) (score first)).isLE

theorem notBehind_iff (first second : Item) :
    notBehind score first second = true ↔ score second ≤ score first :=
  Ordering.ne_gt_iff_isLE.symm.trans compare_le_iff_le

theorem notBehind_trans (a b c : Item) (first : notBehind score a b = true)
    (second : notBehind score b c = true) : notBehind score a c = true := by
  rw [notBehind_iff] at first second ⊢
  exact le_trans second first

theorem notBehind_total (a b : Item) : (notBehind score a b || notBehind score b a) = true := by
  rw [Bool.or_eq_true, notBehind_iff, notBehind_iff]
  exact le_total _ _

/-- The items, best score first, equals in the order they came. -/
def bestFirst (items : List Item) : List Item := items.mergeSort (notBehind score)

theorem bestFirst_perm (items : List Item) : (bestFirst score items).Perm items :=
  List.mergeSort_perm _ _

theorem bestFirst_descending (items : List Item) :
    (bestFirst score items).Pairwise fun first second => score second ≤ score first :=
  (List.pairwise_mergeSort (notBehind_trans score) (notBehind_total score) items).imp
    (notBehind_iff score _ _).mp

/-- A list that is in the order of the scores stays as it is. -/
theorem bestFirst_of_descending (items : List Item)
    (descending : items.Pairwise fun first second => score second ≤ score first) :
    bestFirst score items = items :=
  List.mergeSort_of_pairwise (descending.imp (notBehind_iff score _ _).mpr)

/-- Equals are ranked in the order in which the items came. -/
theorem bestFirst_stable (items : List Item) (nodup : items.Nodup)
    (before : Item → Item → Prop) (inOrder : items.Pairwise before) :
    (bestFirst score items).Pairwise fun first second =>
      score first = score second → before first second := by
  have rankedNodup : (bestFirst score items).Nodup :=
    (bestFirst_perm score items).nodup_iff.mpr nodup
  rw [List.pairwise_iff_forall_sublist]
  intro first second ranked equals
  have differ : first ≠ second := by
    have distinct := ranked.nodup rankedNodup
    rintro rfl
    exact (List.nodup_cons.mp distinct).1 List.mem_cons_self
  have member : ∀ item ∈ [first, second], item ∈ items := fun item inPair =>
    (bestFirst_perm score items).mem_iff.mp (ranked.subset inPair)
  rcases pair_sublist_or items first second (member first (by simp)) (member second (by simp))
    differ with came | came
  · exact List.pairwise_iff_forall_sublist.mp inOrder came
  · -- had they come the other way, the stable sort would have left them so
    have notAfter := (notBehind_iff score second first).mpr (le_of_eq equals)
    have other := List.pair_sublist_mergeSort (notBehind_trans score) (notBehind_total score)
      notAfter came
    exact absurd other (not_pair_sublist_swap _ rankedNodup first second ranked)

/-! ### The first so many -/

/-- What is left out scores no better than what is kept. -/
theorem le_of_left_out (items : List Item) (limit : Nat) (kept omitted : Item)
    (isKept : kept ∈ (bestFirst score items).take limit) (held : omitted ∈ items)
    (isOmitted : omitted ∉ (bestFirst score items).take limit) :
    score omitted ≤ score kept := by
  have whole := List.take_append_drop limit (bestFirst score items)
  have dropped : omitted ∈ (bestFirst score items).drop limit := by
    have ranked := (bestFirst_perm score items).mem_iff.mpr held
    rw [← whole, List.mem_append] at ranked
    exact ranked.resolve_left isOmitted
  have descending := bestFirst_descending score items
  rw [← whole] at descending
  exact (List.pairwise_append.mp descending).2.2 kept isKept omitted dropped

/-- Ranking the first so many again changes nothing. -/
theorem bestFirst_take (items : List Item) (limit : Nat) :
    bestFirst score ((bestFirst score items).take limit) = (bestFirst score items).take limit :=
  bestFirst_of_descending score _ <|
    (bestFirst_descending score items).sublist (List.take_sublist _ _)

/-- Numbering the first so many is numbering all and keeping the first so many. -/
theorem take_mapIdx {Numbered : Type} (number : Nat → Item → Numbered) (items : List Item)
    (limit : Nat) : (items.mapIdx number).take limit = (items.take limit).mapIdx number := by
  refine List.ext_getElem? fun place => ?_
  rw [List.getElem?_take, List.getElem?_mapIdx, List.getElem?_mapIdx, List.getElem?_take]
  split
  · rfl
  · rfl

end Ranking
