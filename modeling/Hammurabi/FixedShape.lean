/-
This file settles what an inclusion check binds once the length of the proof is fixed.

Two ranges of one length have their mountains in the same places. A proof as long as
the mountain of its index is high neither stops short nor goes below, so when it climbs
to another range's root, the climb itself arrives at that range's peak: the value is its
leaf and the proof is its path, read off from the top down. And the peaks left in place
are then the peaks of both ranges, so away from this mountain they have the same leaves.
-/

import Hammurabi.Commitment

namespace Hammurabi

open HashTree

variable {Digest : Type} (hasher : Hasher Digest)

namespace MerkleForest

/-! ### The mountain of an index -/

/-- A mountain holds the indices of its leaves. -/
def Holds (mountain : Nat × Nat) (index : Nat) : Prop :=
  mountain.1 ≤ index ∧ index < mountain.1 + 2 ^ mountain.2

theorem bounds_mountainsFrom (n fuel offset : Nat) (mountain : Nat × Nat)
    (member : mountain ∈ mountainsFrom n fuel offset) :
    offset ≤ mountain.1 ∧ mountain.1 + 2 ^ mountain.2 ≤ n := by
  induction fuel generalizing offset with
  | zero => cases member
  | succ fuel inductionHypothesis =>
    by_cases remains : offset < n
    · obtain ⟨height, -, fits, -, listed⟩ := mountainsFrom_succ n fuel offset remains
      rw [listed] at member
      rcases List.mem_cons.mp member with rfl | later
      · exact ⟨Nat.le_refl _, by dsimp only; omega⟩
      · have bounds := inductionHypothesis _ later
        exact ⟨Nat.le_trans (Nat.le_add_right _ _) bounds.1, bounds.2⟩
    · rw [mountainsFrom, if_neg remains] at member
      cases member

/-- Every mountain starts where the ones before it are over. -/
theorem mountainsFrom_apart (n fuel offset : Nat) :
    (mountainsFrom n fuel offset).Pairwise fun first second =>
      first.1 + 2 ^ first.2 ≤ second.1 := by
  induction fuel generalizing offset with
  | zero => exact .nil
  | succ fuel inductionHypothesis =>
    by_cases remains : offset < n
    · obtain ⟨height, -, -, -, listed⟩ := mountainsFrom_succ n fuel offset remains
      rw [listed]
      exact .cons (fun later member => (bounds_mountainsFrom n fuel _ later member).1)
        (inductionHypothesis _)
    · rw [mountainsFrom, if_neg remains]
      exact .nil

/-- No two mountains hold one index. -/
theorem holds_unique (n index : Nat) (first second : Nat × Nat) (member : first ∈ mountains n)
    (member' : second ∈ mountains n) (holds : Holds first index) (holds' : Holds second index) :
    first = second := by
  obtain ⟨i, inside, rfl⟩ := List.getElem_of_mem member
  obtain ⟨j, inside', rfl⟩ := List.getElem_of_mem member'
  have apart := List.pairwise_iff_getElem.mp (mountainsFrom_apart n n 0)
  rcases Nat.lt_trichotomy i j with before | rfl | after
  · have between := apart i j inside inside' before
    exact absurd (Nat.lt_of_lt_of_le holds.2 between) (Nat.not_lt.mpr holds'.1)
  · rfl
  · have between := apart j i inside' inside after
    exact absurd (Nat.lt_of_lt_of_le holds'.2 between) (Nat.not_lt.mpr holds.1)

/-- The search goes through the mountains, up to the one that holds the index. -/
theorem findPeakFrom_holds (n index fuel first offset : Nat) (starts : offset ≤ index)
    (inside : index < n) (enough : n ≤ offset + fuel) :
    ∃ peakIdx mountain, (mountainsFrom n fuel offset)[peakIdx]? = some mountain ∧
      Holds mountain index ∧ findPeakFrom n index fuel first offset =
        .ok (first + peakIdx, index - mountain.1, 2 ^ mountain.2) := by
  induction fuel generalizing first offset with
  | zero => omega
  | succ fuel inductionHypothesis =>
    have remains : offset < n := by omega
    obtain ⟨height, size, -, -, listed⟩ := mountainsFrom_succ n fuel offset remains
    have positive := Nat.two_pow_pos height
    rw [listed, findPeakFrom, if_pos remains]
    simp only [size]
    by_cases here : index < offset + 2 ^ height
    · exact ⟨0, (offset, height), rfl, ⟨starts, here⟩, if_pos here⟩
    · obtain ⟨peakIdx, mountain, listed', holds, found⟩ :=
        inductionHypothesis (first + 1) (offset + 2 ^ height) (by omega) (by omega)
      refine ⟨peakIdx + 1, mountain, listed', holds, ?_⟩
      rw [if_neg here, found]
      congr 2
      omega

/-- In a range of a given length, the search finds the mountain that holds the index, and its top is
the peak there. -/
theorem findPeakForLeaf_holds (leaves : List Digest) (index : Nat) (mountain : Nat × Nat)
    (member : mountain ∈ mountains leaves.length) (holds : Holds mountain index) :
    ∃ peakIdx, (mountains leaves.length)[peakIdx]? = some mountain ∧
      ∀ others : List Digest, others.length = leaves.length →
        (ofLeaves hasher others).findPeakForLeaf index =
            .ok (peakIdx, index - mountain.1, 2 ^ mountain.2) ∧
          IsMountainOf hasher others (ofLeaves hasher others).peaks index peakIdx
            (index - mountain.1) mountain.2 := by
  have bounds := bounds_mountainsFrom _ _ _ _ member
  have inside : index < leaves.length := Nat.lt_of_lt_of_le holds.2 bounds.2
  obtain ⟨peakIdx, other, listed, holdsOther, found⟩ :=
    findPeakFrom_holds leaves.length index leaves.length 0 0 (Nat.zero_le _) inside (by omega)
  obtain rfl := holds_unique _ index other mountain (List.mem_of_getElem? listed) member holdsOther
    holds
  refine ⟨peakIdx, listed, fun others length => ⟨?_, Nat.sub_le _ _, ?_, ?_, ?_⟩⟩
  · rw [findPeakForLeaf, ofLeaves_leaves, length, if_neg (by omega), found, Nat.zero_add]
  · exact Nat.sub_lt_left_of_lt_add holds.1 holds.2
  · rw [Nat.sub_sub_self holds.1, length]
    exact bounds.2
  · rw [(ofLeaves_spec hasher others).2, recomputePeaks_eq_map, length, List.getElem?_map,
      mountains, listed, Nat.sub_sub_self holds.1]
    rfl

/-! ### What a check binds -/

/-- Mountains with one top, in the same place, have the same leaves. -/
theorem slice_eq_of_top_eq {hasher : Hasher Digest}
    (injective : Function.Injective hasher.finalize) (leaves others : List Digest)
    (length : leaves.length = others.length) (mountain : Nat × Nat)
    (member : mountain ∈ mountains leaves.length)
    (same : top hasher leaves mountain = top hasher others mountain) :
    slice leaves mountain.1 (2 ^ mountain.2) = slice others mountain.1 (2 ^ mountain.2) := by
  have bounds := bounds_mountainsFrom _ _ _ _ member
  have stands :=
    (top_eq_of_le_iff injective leaves others mountain mountain (Nat.le_refl _)).mp same
  rw [slice_eq_level hasher leaves _ _ bounds.2,
    slice_eq_level hasher others _ _ (length ▸ bounds.2)]
  refine List.map_congr_left fun position inside => ?_
  have here := stands.2 position (List.mem_range.mp inside)
  rw [Nat.sub_self] at here
  exact here.symm

variable [DecidableEq Digest]

/-- A value and a proof, as long as the mountain of the index is high, that check in one range
against the root of another of the same length, are the leaf and the proof of that other range; and
both ranges have the same leaves in every other mountain. -/
theorem checked_shape {hasher : Hasher Digest} (injective : Function.Injective hasher.finalize)
    (leaves others : List Digest) (length : leaves.length = others.length) (index : Nat)
    (mountain : Nat × Nat) (member : mountain ∈ mountains leaves.length)
    (holds : Holds mountain index) (value : Digest) (siblings : List Digest)
    (full : siblings.length = mountain.2)
    (checked : (ofLeaves hasher others).verifyWithRoot hasher value siblings index
      ((ofLeaves hasher leaves).root hasher) = .ok ()) :
    (ofLeaves hasher leaves).getLeaf index = .ok value ∧
      (ofLeaves hasher leaves).proof hasher index = .ok siblings ∧
      ∀ other ∈ mountains leaves.length, other ≠ mountain →
        slice leaves other.1 (2 ^ other.2) = slice others other.1 (2 ^ other.2) := by
  obtain ⟨peakIdx, listed, search⟩ :=
    findPeakForLeaf_holds hasher leaves index mountain member holds
  obtain ⟨found, here⟩ := search leaves rfl
  obtain ⟨foundOthers, -⟩ := search others length.symm
  have inside : index < leaves.length :=
    Nat.lt_of_lt_of_le holds.2 (bounds_mountainsFrom _ _ _ _ member).2
  -- The peaks of the second range, with the climb in one place, are the peaks of the first.
  have rooted := (verifyWithRoot_of_found hasher _ value siblings index _ _ _ _ foundOthers).mp
    checked
  rw [climbedRoot, root_ofLeaves, if_neg (List.ne_nil_of_length_pos (by omega))] at rooted
  have peaks := injective rooted
  rw [(ofLeaves_spec hasher others).2, recomputePeaks_eq_map, recomputePeaks_eq_map,
    ← length] at peaks
  obtain ⟨within, -⟩ := List.getElem?_eq_some_iff.mp listed
  have arrives : climb (hashPair hasher) value (index - mountain.1) siblings =
      top hasher leaves mountain := by
    have replaced := congrArg (fun peaks => peaks[peakIdx]?) peaks
    simp only [List.getElem?_set_self (show peakIdx < ((mountains leaves.length).map
      (top hasher others)).length by rwa [List.length_map]), List.getElem?_map, listed] at replaced
    exact Option.some.inj replaced
  have own := (climb_long_eq_top_iff (hashPair_injective injective)
    (mountainLeaf hasher leaves mountain.1) mountain.2 (index - mountain.1) value [] siblings full
    here.inside).mp arrives
  rw [List.length_nil, Nat.pow_zero, Nat.div_one] at own
  have start : index - (index - mountain.1) = mountain.1 := Nat.sub_sub_self holds.1
  refine ⟨?_, ?_, fun other memberOther different => ?_⟩
  · rw [getLeaf_of_mountain hasher leaves _ index _ _ _ here inside, start]
    exact congrArg Except.ok own.1.symm
  · rw [proof_of_mountain hasher leaves index _ _ _ found here, start, ← own.2]
  · obtain ⟨place, withinOther, rfl⟩ := List.getElem_of_mem memberOther
    have elsewhere : peakIdx ≠ place := by
      rintro rfl
      rw [List.getElem?_eq_getElem withinOther] at listed
      exact different (Option.some.inj listed)
    have kept := congrArg (fun peaks => peaks[place]?) peaks
    simp only [List.getElem?_set_ne elsewhere, List.getElem?_map,
      List.getElem?_eq_getElem withinOther, Option.map_some, Option.some.injEq] at kept
    exact slice_eq_of_top_eq injective leaves others length _ memberOther kept.symm

/-- The first leaf of three checks, with its proof, in a range with another pair in front. -/
theorem checked_shape_three :
    let forest := ofLeaves pairingHasher [1, 2, 3]
    forest.getLeaf 0 = .ok 1 ∧ forest.proof pairingHasher 0 = .ok [2] ∧
      ∀ other ∈ mountains 3, other ≠ (0, 1) →
        slice [1, 2, 3] other.1 (2 ^ other.2) = slice [4, 5, 3] other.1 (2 ^ other.2) :=
  checked_shape pairingHasher_injective [1, 2, 3] [4, 5, 3] rfl 0 (0, 1) (by decide)
    ⟨by decide, by decide⟩ 1 [2] rfl (by decide +kernel)

end MerkleForest

end Hammurabi
