/-
This file shows that inclusion proofs are complete.

Three loops of the range have to agree: the one that cuts the leaves into
mountains, the one that looks for the mountain of a leaf, and the one that pairs up
the levels of a mountain. The first two walk the same offsets, so the position the
search returns is the position of the mountain's root among the peaks. The levels
of the third are the levels of the perfect tree over the mountain, so a proof is
the path of the leaf, and the climb along it arrives at the peak it started from.
-/

import Mathlib.Data.List.Induction
import Hammurabi.Library.Outcome
import Hammurabi.Merkle

namespace Hammurabi

open HashTree

variable {Digest : Type} (hasher : Hasher Digest)

/-! ### The size of a mountain -/

theorem growSize_spec (remaining fuel k : Nat) (fits : 2 ^ k ≤ remaining)
    (enough : remaining ≤ 2 ^ k + fuel) :
    ∃ height, growSize remaining fuel (2 ^ k) = 2 ^ height ∧ 2 ^ height ≤ remaining ∧
      remaining < 2 ^ (height + 1) := by
  induction fuel generalizing k with
  | zero =>
    have positive := Nat.two_pow_pos k
    exact ⟨k, rfl, fits, by rw [Nat.pow_succ]; omega⟩
  | succ fuel inductionHypothesis =>
    have positive := Nat.two_pow_pos k
    rw [growSize, ← Nat.pow_succ]
    by_cases doubles : 2 ^ (k + 1) ≤ remaining
    · rw [if_pos doubles]
      exact inductionHypothesis (k + 1) doubles (by rw [Nat.pow_succ]; omega)
    · rw [if_neg doubles]
      exact ⟨k, rfl, fits, by omega⟩

/-- The size of a mountain is the largest power of two that fits. -/
theorem mountainSize_spec (remaining : Nat) (positive : 0 < remaining) :
    ∃ height, mountainSize remaining = 2 ^ height ∧ 2 ^ height ≤ remaining ∧
      remaining < 2 ^ (height + 1) :=
  growSize_spec remaining remaining 0 positive (by omega)

/-! ### The levels of a mountain -/

namespace MerkleForest

/-- The leaves of the mountain from `start` on, by position. -/
def mountainLeaf (leaves : List Digest) (start position : Nat) : Digest :=
  (leaves[start + position]?).getD hasher.zero

/-- The leaves of a mountain are all there. -/
theorem slice_eq_level (leaves : List Digest) (start size : Nat)
    (fits : start + size ≤ leaves.length) :
    slice leaves start size =
      level (hashPair hasher) (mountainLeaf hasher leaves start) 0 size := by
  apply List.ext_getElem
  · rw [slice, List.length_take, List.length_drop, length_level]
    omega
  · intro position inSlice inLevel
    rw [length_level] at inLevel
    have inside : start + position < leaves.length := by omega
    simp only [slice, level, List.getElem_take, List.getElem_drop, List.getElem_map,
      List.getElem_range, node, mountainLeaf, List.getElem?_eq_getElem inside, Option.getD_some]

theorem nextLevel_pow (leaf : Nat → Digest) (height m : Nat) :
    nextLevel (hashPair hasher) (level (hashPair hasher) leaf height (2 ^ (m + 1))) =
      level (hashPair hasher) leaf (height + 1) (2 ^ m) := by
  rw [Nat.pow_succ', nextLevel_level]

theorem one_lt_length_level (leaf : Nat → Digest) (height m : Nat) :
    (level (hashPair hasher) leaf height (2 ^ (m + 1))).length > 1 := by
  rw [length_level, Nat.pow_succ']
  have positive := Nat.two_pow_pos m
  omega

/-- Pairing up a level of a perfect tree ends in the single node above it. -/
theorem collapse_level (leaf : Nat → Digest) (height m fuel : Nat) (enough : m ≤ fuel) :
    collapse hasher fuel (level (hashPair hasher) leaf height (2 ^ m)) =
      [node (hashPair hasher) leaf (height + m) 0] := by
  induction m generalizing height fuel with
  | zero =>
    cases fuel with
    | zero => rfl
    | succ fuel => rw [collapse, length_level, Nat.pow_zero, if_neg (by decide)]; rfl
  | succ m inductionHypothesis =>
    obtain ⟨fuel, rfl⟩ : ∃ rest, fuel = rest + 1 := ⟨fuel - 1, by omega⟩
    rw [collapse, if_pos (one_lt_length_level hasher leaf height m), nextLevel_pow,
      inductionHypothesis (height + 1) fuel (by omega)]
    congr 2
    omega

theorem collectLevels_ne_nil (fuel : Nat) (nodes : List Digest) :
    collectLevels hasher fuel nodes ≠ [] := by
  cases fuel with
  | zero => exact List.cons_ne_nil _ _
  | succ fuel =>
    rw [collectLevels]
    split
    · exact List.cons_ne_nil _ _
    · exact List.cons_ne_nil _ _

/-- In a level of even width, the sibling of a position is found. -/
theorem found_sibling (leaf : Nat → Digest) (height m pos : Nat) (inside : pos < 2 ^ (m + 1)) :
    (if pos % 2 = 0 ∧ pos + 1 < (level (hashPair hasher) leaf height (2 ^ (m + 1))).length then
        (level (hashPair hasher) leaf height (2 ^ (m + 1)))[pos + 1]?
      else if pos % 2 = 1 then (level (hashPair hasher) leaf height (2 ^ (m + 1)))[pos - 1]?
      else none) = some (node (hashPair hasher) leaf height (sibling pos)) := by
  rw [length_level]
  rw [Nat.pow_succ'] at inside ⊢
  rw [sibling]
  rcases Nat.mod_two_eq_zero_or_one pos with even | odd
  · rw [if_pos ⟨even, by omega⟩, if_pos even]
    exact getElem?_level _ _ _ _ _ (by omega)
  · rw [if_neg (by omega), if_pos odd, if_neg (by omega)]
    exact getElem?_level _ _ _ _ _ (by omega)

/-- The siblings collected from the levels of a perfect tree are the path of the position. -/
theorem collectSiblings_levels (leaf : Nat → Digest) (height m fuel pos : Nat)
    (enough : m ≤ fuel) (inside : pos < 2 ^ m) :
    collectSiblings
        (collectLevels hasher fuel (level (hashPair hasher) leaf height (2 ^ m))).dropLast pos =
      path (hashPair hasher) leaf height pos m := by
  induction m generalizing height fuel pos with
  | zero =>
    have single : collectLevels hasher fuel (level (hashPair hasher) leaf height (2 ^ 0)) =
        [level (hashPair hasher) leaf height (2 ^ 0)] := by
      cases fuel with
      | zero => rfl
      | succ fuel => rw [collectLevels, length_level, Nat.pow_zero, if_neg (by decide)]
    rw [single]
    rfl
  | succ m inductionHypothesis =>
    obtain ⟨fuel, rfl⟩ : ∃ rest, fuel = rest + 1 := ⟨fuel - 1, by omega⟩
    have half : pos / 2 < 2 ^ m := by
      rw [Nat.pow_succ'] at inside
      omega
    rw [collectLevels, if_pos (one_lt_length_level hasher leaf height m), nextLevel_pow,
      List.dropLast_cons_of_ne_nil (collectLevels_ne_nil hasher _ _), collectSiblings,
      found_sibling hasher leaf height m pos inside,
      inductionHypothesis (height + 1) fuel (pos / 2) (by omega) half]
    rfl

/-- The root of a mountain is the node at its top. -/
theorem buildMerkleTree_eq (leaves : List Digest) (start height : Nat)
    (fits : start + 2 ^ height ≤ leaves.length) :
    buildMerkleTree hasher leaves start (2 ^ height) =
      node (hashPair hasher) (mountainLeaf hasher leaves start) height 0 := by
  rw [buildMerkleTree]
  cases height with
  | zero => rfl
  | succ height =>
    have large : 2 ^ (height + 1) ≠ 1 := by
      rw [Nat.pow_succ]
      omega
    rw [if_neg large, slice_eq_level hasher leaves start _ fits,
      collapse_level hasher _ 0 (height + 1) _ (Nat.le_of_lt Nat.lt_two_pow_self), List.headD_cons,
      Nat.zero_add]

/-! ### The mountain of a leaf -/

/-- A leaf's mountain: it starts `localIdx` before the leaf, has `2 ^ height` leaves of the range,
and its root is the peak at `peakIdx`. -/
structure IsMountainOf (leaves peaks : List Digest) (index peakIdx localIdx height : Nat) :
    Prop where
  starts : localIdx ≤ index
  inside : localIdx < 2 ^ height
  fits : index - localIdx + 2 ^ height ≤ leaves.length
  peak : peaks[peakIdx]? =
    some (node (hashPair hasher) (mountainLeaf hasher leaves (index - localIdx)) height 0)

/-- The search and the peaks walk the same offsets, so the search returns the position of the
mountain's root among the peaks. -/
theorem findPeakFrom_spec (leaves : List Digest) (index fuel first offset : Nat)
    (starts : offset ≤ index) (inside : index < leaves.length)
    (enough : leaves.length ≤ offset + fuel) :
    ∃ peakIdx localIdx height,
      findPeakFrom leaves.length index fuel first offset =
        .ok (first + peakIdx, localIdx, 2 ^ height) ∧
      IsMountainOf hasher leaves (peaksFrom hasher leaves fuel offset) index peakIdx localIdx
        height := by
  induction fuel generalizing first offset with
  | zero => omega
  | succ fuel inductionHypothesis =>
    have remains : offset < leaves.length := by omega
    obtain ⟨height, size, fits, -⟩ := mountainSize_spec (leaves.length - offset) (by omega)
    have positive := Nat.two_pow_pos height
    rw [findPeakFrom, peaksFrom, if_pos remains, if_pos remains]
    simp only [size]
    by_cases here : index < offset + 2 ^ height
    · refine ⟨0, index - offset, height, if_pos here, by omega, by omega, by omega, ?_⟩
      have start : index - (index - offset) = offset := by omega
      rw [List.getElem?_cons_zero, start, buildMerkleTree_eq hasher leaves offset height (by omega)]
    · obtain ⟨peakIdx, localIdx, height', found, mountain⟩ :=
        inductionHypothesis (first + 1) (offset + 2 ^ height) (by omega) (by omega)
      refine ⟨peakIdx + 1, localIdx, height', ?_, mountain.starts, mountain.inside, mountain.fits,
        mountain.peak⟩
      rw [if_neg here, found]
      congr 2
      omega

/-! ### Ranges built by appending -/

/-- Appending leaves gives the range of exactly these leaves, with their peaks. -/
theorem ofLeaves_spec (leaves : List Digest) :
    (ofLeaves hasher leaves).leaves = leaves ∧
      (ofLeaves hasher leaves).peaks = recomputePeaks hasher leaves := by
  induction leaves using List.reverseRecOn with
  | nil => exact ⟨rfl, rfl⟩
  | append_singleton leaves leaf inductionHypothesis =>
    have grown : ofLeaves hasher (leaves ++ [leaf]) =
        (ofLeaves hasher leaves).append hasher leaf := by
      rw [ofLeaves, List.foldl_append]
      rfl
    rw [grown, append, inductionHypothesis.1]
    exact ⟨rfl, rfl⟩

@[simp] theorem ofLeaves_leaves (leaves : List Digest) :
    (ofLeaves hasher leaves).leaves = leaves := (ofLeaves_spec hasher leaves).1

@[simp] theorem ofLeaves_len (leaves : List Digest) :
    (ofLeaves hasher leaves).len = leaves.length := by
  rw [len, ofLeaves_leaves]

/-- Every leaf of a range has its mountain, and the search finds it. -/
theorem findPeakForLeaf_spec (leaves : List Digest) (index : Nat)
    (inside : index < leaves.length) :
    ∃ peakIdx localIdx height,
      (ofLeaves hasher leaves).findPeakForLeaf index = .ok (peakIdx, localIdx, 2 ^ height) ∧
      IsMountainOf hasher leaves (ofLeaves hasher leaves).peaks index peakIdx localIdx height := by
  obtain ⟨peakIdx, localIdx, height, found, mountain⟩ :=
    findPeakFrom_spec hasher leaves index leaves.length 0 0 (by omega) inside (by omega)
  refine ⟨peakIdx, localIdx, height, ?_, ?_⟩
  · rw [findPeakForLeaf, ofLeaves_leaves, if_neg (by omega), found, Nat.zero_add]
  · rw [(ofLeaves_spec hasher leaves).2]
    exact mountain

theorem findPeakForLeaf_outside (leaves : List Digest) (index : Nat)
    (outside : leaves.length ≤ index) :
    (ofLeaves hasher leaves).findPeakForLeaf index = .error (.indexOutOfBounds index) := by
  rw [findPeakForLeaf, ofLeaves_leaves]
  exact if_pos outside

/-! ### Completeness -/

/-- The proof of a leaf is its path to the top of its mountain. -/
theorem proof_of_mountain (leaves : List Digest) (index peakIdx localIdx height : Nat)
    (found : (ofLeaves hasher leaves).findPeakForLeaf index = .ok (peakIdx, localIdx, 2 ^ height))
    (mountain : IsMountainOf hasher leaves (ofLeaves hasher leaves).peaks index peakIdx localIdx
      height) :
    (ofLeaves hasher leaves).proof hasher index =
      .ok (path (hashPair hasher) (mountainLeaf hasher leaves (index - localIdx)) 0 localIdx
        height) := by
  rw [proof, found, ofLeaves_leaves]
  change Except.ok _ = _
  rw [slice_eq_level hasher leaves _ _ mountain.fits,
    collectSiblings_levels hasher _ 0 height _ localIdx (Nat.le_of_lt Nat.lt_two_pow_self)
      mountain.inside]

/-- A climb that arrives at the top of the mountain gives the root of the range. -/
theorem climbedRoot_of_climb (leaves : List Digest) (index peakIdx localIdx height : Nat)
    (mountain : IsMountainOf hasher leaves (ofLeaves hasher leaves).peaks index peakIdx localIdx
      height) (leaf : Digest) (siblings : List Digest)
    (arrives : climb (hashPair hasher) leaf localIdx siblings =
      node (hashPair hasher) (mountainLeaf hasher leaves (index - localIdx)) height 0) :
    (ofLeaves hasher leaves).climbedRoot hasher leaf siblings peakIdx localIdx =
      (ofLeaves hasher leaves).root hasher := by
  obtain ⟨inside, same⟩ := List.getElem?_eq_some_iff.mp mountain.peak
  have some : (ofLeaves hasher leaves).peaks ≠ [] := List.ne_nil_of_length_pos (by omega)
  rw [climbedRoot, arrives, root, if_neg (by rwa [List.isEmpty_iff]), ← same,
    List.set_getElem_self]

/-- The leaf of a mountain at the position of an index is the leaf of the range at that index. -/
theorem mountainLeaf_of_mountain (leaves peaks : List Digest)
    (index peakIdx localIdx height : Nat)
    (mountain : IsMountainOf hasher leaves peaks index peakIdx localIdx height)
    (inside : index < leaves.length) :
    leaves[index]? = some (mountainLeaf hasher leaves (index - localIdx) localIdx) := by
  have back : index - localIdx + localIdx = index := Nat.sub_add_cancel mountain.starts
  rw [mountainLeaf, back, List.getElem?_eq_getElem inside, Option.getD_some]

/-- The climb along a leaf's proof arrives at the top of its mountain. -/
theorem climb_of_mountain (leaves peaks : List Digest) (index peakIdx localIdx height : Nat)
    (mountain : IsMountainOf hasher leaves peaks index peakIdx localIdx height) :
    let leaf := mountainLeaf hasher leaves (index - localIdx)
    climb (hashPair hasher) (leaf localIdx) localIdx
      (path (hashPair hasher) leaf 0 localIdx height) = node (hashPair hasher) leaf height 0 := by
  intro leaf
  have arrives := climb_path (hashPair hasher) leaf 0 localIdx height
  rwa [Nat.zero_add, Nat.div_eq_of_lt mountain.inside] at arrives

theorem getLeaf_of_mountain (leaves peaks : List Digest) (index peakIdx localIdx height : Nat)
    (mountain : IsMountainOf hasher leaves peaks index peakIdx localIdx height)
    (inside : index < leaves.length) :
    (ofLeaves hasher leaves).getLeaf index =
      .ok (mountainLeaf hasher leaves (index - localIdx) localIdx) := by
  rw [getLeaf, ofLeaves_leaves,
    mountainLeaf_of_mountain hasher leaves peaks index peakIdx localIdx height mountain inside]

/-- Every leaf of a range has a proof, one element for each level of its mountain, that climbs to
the root. -/
theorem exists_proof (leaves : List Digest) (index : Nat) (inside : index < leaves.length) :
    ∃ leaf siblings peakIdx localIdx,
      (ofLeaves hasher leaves).getLeaf index = .ok leaf ∧
      (ofLeaves hasher leaves).proof hasher index = .ok siblings ∧
      (ofLeaves hasher leaves).findPeakForLeaf index =
        .ok (peakIdx, localIdx, 2 ^ siblings.length) ∧
      (ofLeaves hasher leaves).climbedRoot hasher leaf siblings peakIdx localIdx =
        (ofLeaves hasher leaves).root hasher := by
  obtain ⟨peakIdx, localIdx, height, found, mountain⟩ :=
    findPeakForLeaf_spec hasher leaves index inside
  refine ⟨_, _, peakIdx, localIdx,
    getLeaf_of_mountain hasher leaves _ index peakIdx localIdx height mountain inside,
    proof_of_mountain hasher leaves index peakIdx localIdx height found mountain, ?_,
    climbedRoot_of_climb hasher leaves index peakIdx localIdx height mountain _ _
      (climb_of_mountain hasher leaves _ index peakIdx localIdx height mountain)⟩
  rw [found, length_path]

theorem proof_outside (leaves : List Digest) (index : Nat) (outside : leaves.length ≤ index) :
    (ofLeaves hasher leaves).proof hasher index = .error (.indexOutOfBounds index) := by
  rw [proof, findPeakForLeaf_outside hasher leaves index outside]
  rfl

variable [DecidableEq Digest]

theorem verify_of_found (forest : MerkleForest Digest) (leaf : Digest) (siblings : List Digest)
    (index peakIdx localIdx size : Nat)
    (found : forest.findPeakForLeaf index = .ok (peakIdx, localIdx, size)) :
    forest.verify hasher leaf siblings index = true ↔
      forest.climbedRoot hasher leaf siblings peakIdx localIdx = forest.root hasher := by
  rw [verify, found, decide_eq_true_iff]

theorem verifyWithRoot_of_found (forest : MerkleForest Digest) (leaf : Digest)
    (siblings : List Digest) (index peakIdx localIdx size : Nat) (expected : Digest)
    (found : forest.findPeakForLeaf index = .ok (peakIdx, localIdx, size)) :
    forest.verifyWithRoot hasher leaf siblings index expected = .ok () ↔
      forest.climbedRoot hasher leaf siblings peakIdx localIdx = expected := by
  rw [verifyWithRoot, found]
  change (if _ then throw _ >>= _ else _) = _ ↔ _
  rw [Outcome.guard_eq_ok, not_ne_iff]
  exact and_iff_left rfl

/-- There is a proof for exactly the indices of the range; it has one element for each level of the
leaf's mountain, and it verifies by each of the three verifiers. -/
theorem proof_complete (leaves : List Digest) (index : Nat) :
    ((∃ siblings, (ofLeaves hasher leaves).proof hasher index = .ok siblings) ↔
      index < (ofLeaves hasher leaves).len) ∧
    (index < (ofLeaves hasher leaves).len →
      ∃ leaf siblings compact peakIdx localIdx size,
        let forest := ofLeaves hasher leaves
        forest.getLeaf index = .ok leaf ∧
        forest.proof hasher index = .ok siblings ∧
        forest.verify hasher leaf siblings index = true ∧
        forest.verifyWithRoot hasher leaf siblings index (forest.root hasher) = .ok () ∧
        forest.compactProof hasher index = .ok compact ∧
        forest.verifyCompact hasher compact = true ∧
        forest.findPeakForLeaf index = .ok (peakIdx, localIdx, size) ∧
        siblings.length = Nat.log2 size ∧ size = 2 ^ siblings.length) := by
  rw [ofLeaves_len]
  by_cases inside : index < leaves.length
  · obtain ⟨leaf, siblings, peakIdx, localIdx, stored, proved, found, rooted⟩ :=
      exists_proof hasher leaves index inside
    have verifies := (verify_of_found hasher _ _ _ index _ _ _ found).mpr rooted
    have compacted : (ofLeaves hasher leaves).compactProof hasher index =
        .ok ⟨leaf, siblings, (ofLeaves hasher leaves).root hasher, index⟩ := by
      rw [compactProof, stored, proved]
      rfl
    refine ⟨⟨fun _ => inside, fun _ => ⟨siblings, proved⟩⟩, fun _ => ?_⟩
    exact ⟨leaf, siblings, _, peakIdx, localIdx, 2 ^ siblings.length, stored, proved, verifies,
      (verifyWithRoot_of_found hasher _ _ _ index _ _ _ _ found).mpr rooted, compacted,
      verifies, found, Nat.log2_two_pow.symm, rfl⟩
  · refine ⟨⟨?_, fun impossible => absurd impossible inside⟩,
      fun impossible => absurd impossible inside⟩
    rintro ⟨siblings, proved⟩
    rw [proof_outside hasher leaves index (Nat.not_lt.mp inside)] at proved
    cases proved

end MerkleForest

end Hammurabi
