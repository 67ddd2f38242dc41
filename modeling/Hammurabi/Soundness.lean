/-
This file settles what an inclusion proof proves.

Verifying does not look at the length of the proof, although the search for the
mountain returns its size, and nothing tells a leaf from an inner node. So besides
the honest proof of the stored leaf two kinds of proof are accepted: one that stops
short, presenting an inner node of the mountain with that node's own path, and one
that goes below, presenting values that hash up to a stored leaf in front of the
honest proof of that leaf. With a collision-free hash there are no others, so
verification means inclusion exactly away from these two kinds.
-/

import Mathlib.Logic.Equiv.List
import Hammurabi.Inclusion

namespace Hammurabi

open HashTree

variable {Digest : Type} (hasher : Hasher Digest)

/-- A hash that is free of collisions on lists of digests is so on pairs. -/
theorem hashPair_injective {hasher : Hasher Digest}
    (injective : Function.Injective hasher.finalize) :
    Function.Injective2 (hashPair hasher) := by
  intro a a' b b' same
  have lists := List.cons.inj (injective same)
  exact ⟨lists.1, (List.cons.inj lists.2).1⟩

namespace MerkleForest

/-! ### The accepted proofs -/

/-- The climb of a proof arrives at the top of the index's mountain. -/
def ClimbsToTop (leaves : List Digest) (leaf : Digest) (siblings : List Digest)
    (index localIdx height : Nat) : Prop :=
  climb (hashPair hasher) leaf localIdx siblings =
    node (hashPair hasher) (mountainLeaf hasher leaves (index - localIdx)) height 0

/-- The proof stops short of the leaves: it is the own path of an inner node of the mountain, and
that node is what is presented as a leaf. -/
def StopsShort (leaves : List Digest) (leaf : Digest) (siblings : List Digest)
    (index : Nat) : Prop :=
  ∃ peakIdx localIdx height,
    (ofLeaves hasher leaves).findPeakForLeaf index = .ok (peakIdx, localIdx, 2 ^ height) ∧
    siblings.length < height ∧
    let mountain := mountainLeaf hasher leaves (index - localIdx)
    let low := localIdx % 2 ^ siblings.length
    leaf = node (hashPair hasher) mountain (height - siblings.length) low ∧
    siblings = path (hashPair hasher) mountain (height - siblings.length) low siblings.length

/-- The proof goes below the leaves: it ends in the path of a leaf of the mountain, and its front
climbs from what is presented to that leaf. -/
def GoesBelow (leaves : List Digest) (leaf : Digest) (siblings : List Digest)
    (index : Nat) : Prop :=
  ∃ peakIdx localIdx height front back,
    (ofLeaves hasher leaves).findPeakForLeaf index = .ok (peakIdx, localIdx, 2 ^ height) ∧
    siblings = front ++ back ∧ front ≠ [] ∧ back.length = height ∧
    let mountain := mountainLeaf hasher leaves (index - localIdx)
    let high := localIdx / 2 ^ front.length
    climb (hashPair hasher) leaf localIdx front = mountain high ∧
    back = path (hashPair hasher) mountain 0 high height

/-- An index is in one mountain only, at one place. -/
theorem mountain_unique (leaves : List Digest) (index peakIdx localIdx height : Nat)
    (peakIdx' localIdx' height' : Nat)
    (found : (ofLeaves hasher leaves).findPeakForLeaf index =
      .ok (peakIdx, localIdx, 2 ^ height))
    (found' : (ofLeaves hasher leaves).findPeakForLeaf index =
      .ok (peakIdx', localIdx', 2 ^ height')) :
    localIdx = localIdx' ∧ height = height' := by
  have same := found.symm.trans found'
  simp only [Except.ok.injEq, Prod.mk.injEq] at same
  exact ⟨same.2.1, Nat.pow_right_injective (Nat.le_refl 2) same.2.2⟩

/-- A climb to the top starts at the leaf itself, or the proof stops short, or it goes below. -/
theorem climbsToTop_iff {hasher : Hasher Digest} (injective : Function.Injective hasher.finalize)
    (leaves : List Digest) (leaf : Digest) (siblings : List Digest)
    (index peakIdx localIdx height : Nat) (inside : localIdx < 2 ^ height)
    (found : (ofLeaves hasher leaves).findPeakForLeaf index =
      .ok (peakIdx, localIdx, 2 ^ height)) :
    ClimbsToTop hasher leaves leaf siblings index localIdx height ↔
      (leaf = mountainLeaf hasher leaves (index - localIdx) localIdx ∧
        siblings = path (hashPair hasher) (mountainLeaf hasher leaves (index - localIdx)) 0
          localIdx height) ∨
      StopsShort hasher leaves leaf siblings index ∨
      GoesBelow hasher leaves leaf siblings index := by
  have pairs := hashPair_injective injective
  constructor
  · intro arrives
    rcases Nat.lt_trichotomy siblings.length height with short | exactly | long
    · obtain ⟨presented, own⟩ := (climb_short_eq_top_iff pairs _ height localIdx leaf siblings
        (Nat.le_of_lt short)).mp arrives
      exact .inr (.inl ⟨peakIdx, localIdx, height, found, short, presented, own⟩)
    · obtain ⟨presented, own⟩ := (climb_long_eq_top_iff pairs _ height localIdx leaf [] siblings
        exactly inside).mp arrives
      rw [List.length_nil, Nat.pow_zero, Nat.div_one] at presented own
      exact .inl ⟨presented, own⟩
    · have split := List.take_append_drop (siblings.length - height) siblings
      have back : (siblings.drop (siblings.length - height)).length = height := by
        rw [List.length_drop]
        omega
      have front : siblings.take (siblings.length - height) ≠ [] := by
        refine List.ne_nil_of_length_pos ?_
        rw [List.length_take]
        omega
      rw [ClimbsToTop, ← split, climb_long_eq_top_iff pairs _ height localIdx leaf _ _ back
        inside] at arrives
      exact .inr (.inr ⟨peakIdx, localIdx, height, _, _, found, split.symm, front, back, arrives⟩)
  · rintro (⟨rfl, rfl⟩ | ⟨peakIdx', localIdx', height', found', short, presented, own⟩ |
      ⟨peakIdx', localIdx', height', front, back, found', rfl, -, long, fronts, own⟩)
    · exact (climb_long_eq_top_iff pairs _ height localIdx _ [] _ (length_path ..) inside).mpr
        ⟨by rw [List.length_nil, Nat.pow_zero, Nat.div_one]; rfl,
          by rw [List.length_nil, Nat.pow_zero, Nat.div_one]⟩
    · obtain ⟨rfl, rfl⟩ := mountain_unique hasher leaves index _ _ _ _ _ _ found' found
      exact (climb_short_eq_top_iff pairs _ _ _ _ _ (Nat.le_of_lt short)).mpr ⟨presented, own⟩
    · obtain ⟨rfl, rfl⟩ := mountain_unique hasher leaves index _ _ _ _ _ _ found' found
      exact (climb_long_eq_top_iff pairs _ _ _ _ _ _ long inside).mpr ⟨fronts, own⟩

/-- With a collision-free hash, the climbed root is the root of the range only when the climb
arrives at the peak it replaces. -/
theorem climbedRoot_eq_root_iff {hasher : Hasher Digest}
    (injective : Function.Injective hasher.finalize) (leaves : List Digest) (leaf : Digest)
    (siblings : List Digest) (index peakIdx localIdx height : Nat)
    (mountain : IsMountainOf hasher leaves (ofLeaves hasher leaves).peaks index peakIdx localIdx
      height) :
    (ofLeaves hasher leaves).climbedRoot hasher leaf siblings peakIdx localIdx =
        (ofLeaves hasher leaves).root hasher ↔
      ClimbsToTop hasher leaves leaf siblings index localIdx height := by
  constructor
  · intro same
    obtain ⟨inside, peak⟩ := List.getElem?_eq_some_iff.mp mountain.peak
    have some : (ofLeaves hasher leaves).peaks ≠ [] := List.ne_nil_of_length_pos (by omega)
    rw [climbedRoot, root, if_neg (by rwa [List.isEmpty_iff])] at same
    have replaced := congrArg (fun peaks => peaks[peakIdx]?) (injective same)
    simp only [List.getElem?_set_self inside, List.getElem?_eq_getElem inside] at replaced
    exact (Option.some.inj replaced).trans peak
  · exact climbedRoot_of_climb hasher leaves index peakIdx localIdx height mountain leaf siblings

variable [DecidableEq Digest]

/-- A proof is accepted by either verifier, against the root of the range. -/
def Accepts (forest : MerkleForest Digest) (leaf : Digest) (siblings : List Digest)
    (index : Nat) : Prop :=
  forest.verify hasher leaf siblings index = true ∨
    forest.verifyWithRoot hasher leaf siblings index (forest.root hasher) = .ok ()

theorem accepts_of_found (forest : MerkleForest Digest) (leaf : Digest) (siblings : List Digest)
    (index peakIdx localIdx size : Nat)
    (found : forest.findPeakForLeaf index = .ok (peakIdx, localIdx, size)) :
    forest.Accepts hasher leaf siblings index ↔
      forest.climbedRoot hasher leaf siblings peakIdx localIdx = forest.root hasher := by
  rw [Accepts, verify_of_found hasher forest leaf siblings index _ _ _ found,
    verifyWithRoot_of_found hasher forest leaf siblings index _ _ _ _ found, or_self]

theorem not_accepts_outside (leaves : List Digest) (leaf : Digest) (siblings : List Digest)
    (index : Nat) (outside : leaves.length ≤ index) :
    ¬ (ofLeaves hasher leaves).Accepts hasher leaf siblings index := by
  rw [Accepts, verify, verifyWithRoot, findPeakForLeaf_outside hasher leaves index outside]
  rintro (accepted | accepted)
  · cases accepted
  · cases accepted

/-- Acceptance means inclusion exactly when the index is outside the range, or the leaf presented is
the stored one, or the proof neither stops short nor goes below. -/
theorem accepts_sound_iff {hasher : Hasher Digest}
    (injective : Function.Injective hasher.finalize) (leaves : List Digest) (leaf : Digest)
    (siblings : List Digest) (index : Nat) :
    let forest := ofLeaves hasher leaves
    (forest.Accepts hasher leaf siblings index →
        index < forest.len ∧ forest.getLeaf index = .ok leaf) ↔
      (forest.len ≤ index ∨ forest.getLeaf index = .ok leaf ∨
        ¬ (StopsShort hasher leaves leaf siblings index ∨
          GoesBelow hasher leaves leaf siblings index)) := by
  intro forest
  have length : forest.len = leaves.length := ofLeaves_len hasher leaves
  rw [length]
  by_cases inside : index < leaves.length
  · obtain ⟨peakIdx, localIdx, height, found, mountain⟩ :=
      findPeakForLeaf_spec hasher leaves index inside
    have stored : forest.getLeaf index = .ok leaf ↔
        leaf = mountainLeaf hasher leaves (index - localIdx) localIdx := by
      rw [getLeaf, ofLeaves_leaves, mountainLeaf_of_mountain hasher leaves _ index peakIdx localIdx
        height mountain inside]
      exact ⟨fun same => (Except.ok.inj same).symm, fun same => congrArg _ same.symm⟩
    have accepts := (accepts_of_found hasher forest leaf siblings index _ _ _ found).trans
      ((climbedRoot_eq_root_iff injective leaves leaf siblings index peakIdx localIdx height
        mountain).trans (climbsToTop_iff injective leaves leaf siblings index peakIdx localIdx
          height mountain.inside found))
    rw [accepts, stored]
    constructor
    · intro sound
      by_cases other : StopsShort hasher leaves leaf siblings index ∨
          GoesBelow hasher leaves leaf siblings index
      · exact .inr (.inl (sound (.inr other)).2)
      · exact .inr (.inr other)
    · rintro (outside | same | neither) accepted
      · omega
      · exact ⟨inside, same⟩
      · rcases accepted with honest | other
        · exact ⟨inside, honest.1⟩
        · exact absurd other neither
  · constructor
    · exact fun _ => .inl (by omega)
    · exact fun _ accepted =>
        absurd accepted (not_accepts_outside hasher leaves leaf siblings index (by omega))

/-! ### A collision-free hash on numbers -/

/-- A hash without collisions: the pairing code of a list of numbers. -/
def pairingHasher : Hasher Nat where
  zero := 0
  finalize := Encodable.encode
  hashData data := Encodable.encode (data.map UInt8.toNat)
  hexEncode := Nat.repr

theorem pairingHasher_injective : Function.Injective pairingHasher.finalize :=
  Encodable.encode_injective

/-- The honest proof of the first of two leaves is neither short nor below. -/
theorem accepts_sound_iff_honest :
    let forest := ofLeaves pairingHasher [1, 2]
    (forest.Accepts pairingHasher 1 [2] 0 → 0 < forest.len ∧ forest.getLeaf 0 = .ok 1) ↔
      (forest.len ≤ 0 ∨ forest.getLeaf 0 = .ok 1 ∨
        ¬ (StopsShort pairingHasher [1, 2] 1 [2] 0 ∨ GoesBelow pairingHasher [1, 2] 1 [2] 0)) :=
  accepts_sound_iff pairingHasher_injective [1, 2] 1 [2] 0

/-- In a range of two leaves, the empty proof makes the hash of both a leaf at the first index. -/
theorem accepts_inner_node :
    let forest := ofLeaves pairingHasher [1, 2]
    let inner := hashPair pairingHasher 1 2
    Function.Injective pairingHasher.finalize ∧
      forest.verify pairingHasher inner [] 0 = true ∧
      forest.verifyWithRoot pairingHasher inner [] 0 (forest.root pairingHasher) = .ok () ∧
      forest.getLeaf 0 = .ok 1 ∧ inner ≠ 1 :=
  ⟨pairingHasher_injective, by decide, by decide, by decide, by decide⟩

end MerkleForest

end Hammurabi
