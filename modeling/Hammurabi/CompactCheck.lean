/-
This file settles what checking a compact proof says about the root it states.

A compact proof carries a root beside its leaf, its path and its index, but checking it
only recombines the leaf and the path under the range's own peaks. Under a collision-free
hash they recombine when they are the stored leaf and its own path, or when the path
stops short or goes below. So the check implies that the stated root is the range's
exactly where it is anyway, or where the leaf and the path are none of the three. The
honest ones pass under every root, and so only the empty range has its root checked.
-/

import Mathlib.Logic.Nontrivial.Defs
import Hammurabi.Commitment

namespace Hammurabi

open HashTree

variable {Digest : Type}

namespace MerkleForest

/-- The leaf and the path of a compact proof are those of the range: the leaf stored at the index
and its own path. -/
def Included (hasher : Hasher Digest) (leaves : List Digest) (compact : CompactProof Digest) :
    Prop :=
  (ofLeaves hasher leaves).getLeaf compact.index = .ok compact.leaf ∧
    (ofLeaves hasher leaves).proof hasher compact.index = .ok compact.proof

variable [DecidableEq Digest]

/-- Under a collision-free hash a compact proof passes when its leaf and its path are those of the
range, or the path stops short or goes below. Its own root does not matter. -/
theorem verifyCompact_iff {hasher : Hasher Digest} (injective : Function.Injective hasher.finalize)
    (leaves : List Digest) (compact : CompactProof Digest) :
    (ofLeaves hasher leaves).verifyCompact hasher compact = true ↔
      Included hasher leaves compact ∨
      StopsShort hasher leaves compact.leaf compact.proof compact.index ∨
      GoesBelow hasher leaves compact.leaf compact.proof compact.index := by
  rw [Included, verifyCompact]
  by_cases inside : compact.index < leaves.length
  · obtain ⟨peakIdx, localIdx, height, found, mountain⟩ :=
      findPeakForLeaf_spec hasher leaves compact.index inside
    rw [verify_of_found hasher _ _ _ _ _ _ _ found,
      climbedRoot_eq_root_iff injective leaves _ _ _ peakIdx localIdx height mountain,
      climbsToTop_iff injective leaves _ _ _ peakIdx localIdx height mountain.inside found,
      proof_of_mountain hasher leaves _ peakIdx localIdx height found mountain,
      getLeaf_of_mountain hasher leaves _ _ peakIdx localIdx height mountain inside,
      Except.ok.injEq, Except.ok.injEq, eq_comm (a := compact.leaf), eq_comm (a := compact.proof)]
  · have outside := findPeakForLeaf_outside hasher leaves compact.index (Nat.not_lt.mp inside)
    rw [verify, outside, getLeaf, ofLeaves_leaves, List.getElem?_eq_none (Nat.not_lt.mp inside)]
    refine iff_of_false Bool.false_ne_true ?_
    rintro (⟨stored, -⟩ | ⟨peakIdx, localIdx, height, found, -⟩ |
      ⟨peakIdx, localIdx, height, front, back, found, -⟩)
    · cases stored
    · cases outside.symm.trans found
    · cases outside.symm.trans found

/-- Whatever the hash, the honest compact proof of every leaf passes under every root. -/
theorem verifyCompact_honest (hasher : Hasher Digest) (leaves : List Digest) (index : Nat)
    (inside : index < leaves.length) :
    ∃ compact, (ofLeaves hasher leaves).compactProof hasher index = .ok compact ∧
      ∀ stated, (ofLeaves hasher leaves).verifyCompact hasher { compact with root := stated } =
        true := by
  obtain ⟨leaf, siblings, peakIdx, localIdx, stored, proved, found, rooted⟩ :=
    exists_proof hasher leaves index inside
  refine ⟨_, by rw [compactProof, stored, proved]; rfl, fun other => ?_⟩
  exact (verify_of_found hasher _ _ _ index _ _ _ found).mpr rooted

/-- The root of every compact proof that passes is the range's exactly when the range is empty. -/
theorem compact_roots_checked_iff_empty [Nontrivial Digest] (hasher : Hasher Digest)
    (leaves : List Digest) :
    (∀ compact : CompactProof Digest, (ofLeaves hasher leaves).verifyCompact hasher compact = true →
      compact.root = (ofLeaves hasher leaves).root hasher) ↔ leaves = [] := by
  constructor
  · intro checked
    by_contra some
    obtain ⟨compact, -, passes⟩ :=
      verifyCompact_honest hasher leaves 0 (List.length_pos_of_ne_nil some)
    obtain ⟨other, different⟩ := exists_ne ((ofLeaves hasher leaves).root hasher)
    exact different (checked _ (passes other))
  · rintro rfl compact passes
    rw [verifyCompact, verify,
      findPeakForLeaf_outside hasher [] compact.index (Nat.zero_le _)] at passes
    cases passes

/-- Of each compact proof: that it passes implies that it states the range's root exactly when it
does state it, or its leaf and its path are not those of the range and the path neither stops short
nor goes below. And the honest leaf and path pass under every root, so that the implication holds of
all compact proofs exactly when the range is empty. -/
theorem compact_root_checked_iff [Nontrivial Digest] {hasher : Hasher Digest}
    (injective : Function.Injective hasher.finalize) (leaves : List Digest) :
    (∀ compact : CompactProof Digest,
      ((ofLeaves hasher leaves).verifyCompact hasher compact = true →
          compact.root = (ofLeaves hasher leaves).root hasher) ↔
        compact.root = (ofLeaves hasher leaves).root hasher ∨
          ¬ (Included hasher leaves compact ∨
            StopsShort hasher leaves compact.leaf compact.proof compact.index ∨
            GoesBelow hasher leaves compact.leaf compact.proof compact.index)) ∧
    (∀ index, index < leaves.length →
      ∃ compact, (ofLeaves hasher leaves).compactProof hasher index = .ok compact ∧
        ∀ stated, (ofLeaves hasher leaves).verifyCompact hasher { compact with root := stated } =
          true) ∧
    ((∀ compact : CompactProof Digest,
      (ofLeaves hasher leaves).verifyCompact hasher compact = true →
        compact.root = (ofLeaves hasher leaves).root hasher) ↔ leaves = []) := by
  refine ⟨fun compact => ?_, verifyCompact_honest hasher leaves,
    compact_roots_checked_iff_empty hasher leaves⟩
  rw [verifyCompact_iff injective, imp_iff_not_or, or_comm]

/-- In a range of three leaves, the first one and its own path do not have their root checked: they
pass under the root zero. -/
theorem compact_root_checked_iff_three :
    let forest := ofLeaves pairingHasher [1, 2, 3]
    ¬ (forest.verifyCompact pairingHasher ⟨1, [2], 0, 0⟩ = true →
        0 = forest.root pairingHasher) ∧
      ∃ compact, forest.compactProof pairingHasher 0 = .ok compact ∧
        forest.verifyCompact pairingHasher { compact with root := 0 } = true := by
  intro forest
  obtain ⟨checked, honest, -⟩ := compact_root_checked_iff pairingHasher_injective [1, 2, 3]
  obtain ⟨compact, built, passes⟩ := honest 0 (by decide)
  refine ⟨fun sound => ?_, compact, built, passes 0⟩
  rcases (checked ⟨1, [2], 0, 0⟩).mp sound with same | other
  · exact absurd same (by decide +kernel)
  · exact other (.inl ⟨rfl, rfl⟩)

/-- The compact proof of the first of two leaves still passes when a third is appended, although it
states the root of the two. -/
theorem outdated_compact_passes :
    let earlier := ofLeaves pairingHasher [1, 2]
    let forest := ofLeaves pairingHasher [1, 2, 3]
    ∃ compact, earlier.compactProof pairingHasher 0 = .ok compact ∧
      compact.root = earlier.root pairingHasher ∧
      forest.verifyCompact pairingHasher compact = true ∧
      compact.root ≠ forest.root pairingHasher :=
  ⟨⟨1, [2], (ofLeaves pairingHasher [1, 2]).root pairingHasher, 0⟩, rfl, rfl, by decide +kernel,
    by decide +kernel⟩

end MerkleForest

end Hammurabi
