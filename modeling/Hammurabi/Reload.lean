/-
This file shows that reloading a range loses nothing.

What is written of a range is read back as it was, the count among it, so the reloaded
range is the one that was written. Appending the same leaves to both keeps them equal,
and the proofs of one are the proofs of the other; that they verify is the completeness
of inclusion proofs.
-/

import Hammurabi.Accumulator
import Hammurabi.Loading

namespace Hammurabi

open Json

namespace MerkleForest

section

variable {Digest : Type} (hasher : Hasher Digest) [DecidableEq Digest]

/-- Every proof taken from the first range is one of a leaf, and verifies on the second. -/
def ProofsVerify (forest other : MerkleForest Digest) : Prop :=
  ∀ index siblings, forest.proof hasher index = .ok siblings →
    ∃ leaf, forest.getLeaf index = .ok leaf ∧ other.verify hasher leaf siblings index = true ∧
      other.verifyWithRoot hasher leaf siblings index (other.root hasher) = .ok ()

/-- The proofs of a range built by appending verify on it. -/
theorem proofsVerify_ofLeaves (leaves : List Digest) :
    ProofsVerify hasher (ofLeaves hasher leaves) (ofLeaves hasher leaves) := by
  intro index siblings proved
  by_cases inside : index < leaves.length
  · obtain ⟨leaf, own, peakIdx, localIdx, stored, taken, found, rooted⟩ :=
      exists_proof hasher leaves index inside
    cases proved.symm.trans taken
    exact ⟨leaf, stored, (verify_of_found hasher _ _ _ index _ _ _ found).mpr rooted,
      (verifyWithRoot_of_found hasher _ _ _ index _ _ _ _ found).mpr rooted⟩
  · rw [proof_outside hasher leaves index (Nat.not_lt.mp inside)] at proved
    cases proved

end

/-- A range built by any appends is read back from its JSON form, with the same leaves, peaks, count
and root; and after the same further appends to both, the roots are equal still, and the proofs of
each verify on the other. -/
theorem reload_lossless (primitives : Primitives) (hex : HexRoundTrip primitives)
    (leaves : List (FixedBytes 32)) :
    let hasher := blake3Hasher primitives
    let forest := ofLeaves hasher leaves
    ∃ reloaded, fromJson (blake3DecodeDigest primitives) (forest.toJson hasher) = .ok reloaded ∧
      reloaded.leaves = forest.leaves ∧ reloaded.peaks = forest.peaks ∧
      reloaded.count = forest.count ∧ reloaded.root hasher = forest.root hasher ∧
      ∀ more : List (FixedBytes 32),
        let grown := more.foldl (append hasher) forest
        let regrown := more.foldl (append hasher) reloaded
        regrown.root hasher = grown.root hasher ∧
          ProofsVerify hasher grown regrown ∧ ProofsVerify hasher regrown grown := by
  intro hasher forest
  have loaded := fromJson_toJson hasher (blake3DecodeDigest primitives)
    (blake3DecodeDigest_hexEncode primitives hex) forest
  refine ⟨forest, loaded, rfl, rfl, rfl, rfl, fun more => ?_⟩
  have verified := proofsVerify_ofLeaves hasher (leaves ++ more)
  rw [ofLeaves_append] at verified
  exact ⟨rfl, verified, verified⟩

/-- The range of three leaves, with two peaks, is reloaded, and grows by two more as the one that
was written; its proofs then verify on that one. -/
theorem reload_lossless_three :
    let primitives := markingPrimitives []
    let hasher := blake3Hasher primitives
    let forest := ofLeaves hasher [.filled 32 1, .filled 32 2, .filled 32 3]
    let more := [.filled 32 4, .filled 32 5]
    forest.peaks.length = 2 ∧ ∃ reloaded,
      fromJson (blake3DecodeDigest primitives) (forest.toJson hasher) = .ok reloaded ∧
      reloaded.peaks = forest.peaks ∧
      (more.foldl (append hasher) reloaded).root hasher =
        (more.foldl (append hasher) forest).root hasher ∧
      ProofsVerify hasher (more.foldl (append hasher) reloaded)
        (more.foldl (append hasher) forest) := by
  intro primitives hasher forest more
  obtain ⟨reloaded, loaded, -, peaks, -, -, grows⟩ := reload_lossless primitives
    (markingPrimitives_hex []) [.filled 32 1, .filled 32 2, .filled 32 3]
  obtain ⟨roots, -, verified⟩ := grows more
  exact ⟨rfl, reloaded, loaded, peaks, roots, verified⟩

end MerkleForest

end Hammurabi
