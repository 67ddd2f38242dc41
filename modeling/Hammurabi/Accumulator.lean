/-
This file shows that appending is the standard append of a mountain range.

The code cuts all the leaves into mountains again after every append. The incremental
accumulator keeps the peaks it has, pushes the new leaf and carries. What it keeps are
trees side by side that get strictly lower; and there is only one way to cut a number
of leaves into such trees, for the trees after a first one hold fewer leaves than it
does, so that it is the largest that fits. So both have the same peaks at every moment,
and what one leaves in place the other does not change either.
-/

import Hammurabi.Library.Carry
import Hammurabi.Commitment

namespace Hammurabi

open HashTree

variable {Digest : Type} (hasher : Hasher Digest)

namespace MerkleForest

/-- The leaves of a range as a row without an end. -/
def row (leaves : List Digest) (index : Nat) : Digest := (leaves[index]?).getD hasher.zero

/-- A mountain as a tree of the accumulator: its height and its top. -/
def asTree (leaves : List Digest) (mountain : Nat × Nat) : Nat × Digest :=
  (mountain.2, top hasher leaves mountain)

/-- A power of two that fits, and whose double does not, is the size of the mountain. -/
theorem height_unique (remaining height height' : Nat) (fits : 2 ^ height ≤ remaining)
    (highest : remaining < 2 ^ (height + 1)) (fits' : 2 ^ height' ≤ remaining)
    (highest' : remaining < 2 ^ (height' + 1)) : height = height' := by
  have above := (Nat.pow_lt_pow_iff_right Nat.one_lt_two).mp (Nat.lt_of_le_of_lt fits highest')
  have below := (Nat.pow_lt_pow_iff_right Nat.one_lt_two).mp (Nat.lt_of_le_of_lt fits' highest)
  omega

/-- A stack over the first leaves lists the first mountains of any range that goes on for less than
the lowest tree. -/
theorem stacked_mountains (leaves : List Digest) (count : Nat) (stack : List (Nat × Digest))
    (stacked : Stacked (hashPair hasher) (row hasher leaves) count stack) (more : Nat)
    (short : ∀ tree ∈ stack, more < 2 ^ tree.1) (fuel : Nat) (enough : count + more ≤ fuel) :
    ∃ rest, more ≤ rest ∧
      (mountainsFrom (count + more) fuel 0).map (asTree hasher leaves) =
        stack.reverse ++
          (mountainsFrom (count + more) rest count).map (asTree hasher leaves) := by
  induction stack generalizing count more with
  | nil =>
    obtain rfl : count = 0 := stacked
    exact ⟨fuel, by omega, rfl⟩
  | cons tree stack inductionHypothesis =>
    obtain ⟨height, last⟩ := tree
    obtain ⟨start, rfl, rfl, above, below⟩ := stacked
    have low : more < 2 ^ height := short _ List.mem_cons_self
    have positive := Nat.two_pow_pos height
    -- Seen from the trees before it, the last tree and what follows are still less than the lowest.
    have shorter : ∀ tree ∈ stack, 2 ^ height + more < 2 ^ tree.1 := by
      intro tree member
      have double := Nat.pow_le_pow_right Nat.two_pos (above tree member)
      rw [Nat.succ_eq_add_one, Nat.pow_succ] at double
      omega
    obtain ⟨rest, remains, listed⟩ :=
      inductionHypothesis start below (2 ^ height + more) shorter (by omega)
    rw [← Nat.add_assoc] at listed
    obtain ⟨rest, rfl⟩ : ∃ fewer, rest = fewer + 1 := ⟨rest - 1, by omega⟩
    obtain ⟨height', -, fits, highest, next⟩ :=
      mountainsFrom_succ (start + 2 ^ height + more) rest start (by omega)
    obtain rfl := height_unique _ height height' (by omega) (by rw [Nat.pow_succ]; omega) fits
      highest
    refine ⟨rest, by omega, ?_⟩
    rw [listed, next, List.reverse_cons, List.append_assoc]
    rfl

/-- The trees of the accumulator, from the first to the last, are the mountains. -/
theorem accumulate_eq_mountains (leaves : List Digest) :
    (mountains leaves.length).map (asTree hasher leaves) =
      (accumulate (hashPair hasher) leaves).reverse := by
  have stacked := stacked_accumulate (hashPair hasher) (row hasher leaves) leaves
    fun index inside => by rw [row, List.getElem?_eq_getElem inside, Option.getD_some]
  obtain ⟨rest, -, listed⟩ := stacked_mountains hasher leaves _ _ stacked 0
    (fun tree _ => Nat.two_pow_pos tree.1) leaves.length (Nat.le_refl _)
  have finished : mountainsFrom leaves.length rest leaves.length = [] := by
    cases rest with
    | zero => rfl
    | succ rest => rw [mountainsFrom, if_neg (Nat.lt_irrefl _)]
  rw [Nat.add_zero, finished, List.map_nil, List.append_nil] at listed
  exact listed

/-- The peaks that the accumulator keeps, from the first to the last. -/
def keptPeaks (stack : List (Nat × Digest)) : List Digest := (stack.map Prod.snd).reverse

/-- The root over the peaks that the accumulator keeps. -/
def keptRoot (stack : List (Nat × Digest)) : Digest :=
  if stack.isEmpty then hasher.zero else hasher.finalize (keptPeaks stack)

theorem peaks_eq_keptPeaks (leaves : List Digest) :
    (ofLeaves hasher leaves).peaks = keptPeaks (accumulate (hashPair hasher) leaves) := by
  rw [(ofLeaves_spec hasher leaves).2, recomputePeaks_eq_map, keptPeaks, ← List.map_reverse,
    ← accumulate_eq_mountains, List.map_map]
  rfl

theorem ofLeaves_append (leaves more : List Digest) :
    ofLeaves hasher (leaves ++ more) =
      more.foldl (append hasher) (ofLeaves hasher leaves) := List.foldl_append

/-- After any appends the range has the peaks and the root of the accumulator, its trees being as
high as the mountains. A further append leaves it so, and it changes no peak but the last ones, that
it merges with the new leaf into a single one. -/
theorem append_incremental (leaves : List Digest) :
    (ofLeaves hasher leaves).peaks = keptPeaks (accumulate (hashPair hasher) leaves) ∧
      (mountains leaves.length).map Prod.snd =
        ((accumulate (hashPair hasher) leaves).map Prod.fst).reverse ∧
      (ofLeaves hasher leaves).root hasher =
        keptRoot hasher (accumulate (hashPair hasher) leaves) ∧
      ∀ leaf,
        ((ofLeaves hasher leaves).append hasher leaf).peaks =
            keptPeaks (push (hashPair hasher) (accumulate (hashPair hasher) leaves) leaf) ∧
          ((ofLeaves hasher leaves).append hasher leaf).root hasher =
            keptRoot hasher (push (hashPair hasher) (accumulate (hashPair hasher) leaves) leaf) ∧
          ∃ kept merged, (ofLeaves hasher leaves).peaks = kept ++ merged ∧
            ((ofLeaves hasher leaves).append hasher leaf).peaks =
              kept ++ [merged.foldr (hashPair hasher) leaf] := by
  let stack := accumulate (hashPair hasher) leaves
  let forest := ofLeaves hasher leaves
  have rooted : ∀ leaves : List Digest, (ofLeaves hasher leaves).root hasher =
      keptRoot hasher (accumulate (hashPair hasher) leaves) := by
    intro leaves
    rw [root, keptRoot, peaks_eq_keptPeaks, keptPeaks, List.isEmpty_reverse, List.isEmpty_map]
  have grown : ∀ leaf, accumulate (hashPair hasher) (leaves ++ [leaf]) =
      push (hashPair hasher) stack leaf := fun leaf => List.foldl_append
  refine ⟨peaks_eq_keptPeaks hasher leaves, ?_, rooted leaves, fun leaf => ⟨?_, ?_, ?_⟩⟩
  · rw [← List.map_reverse, ← accumulate_eq_mountains, List.map_map]
    rfl
  · rw [← grown, ← peaks_eq_keptPeaks, ofLeaves_append]
    rfl
  · rw [← grown, ← rooted, ofLeaves_append]
    rfl
  · obtain ⟨merged, kept, split, carried⟩ := exists_carry_eq (hashPair hasher) 0 leaf stack
    refine ⟨keptPeaks kept, keptPeaks merged, ?_, ?_⟩
    · rw [peaks_eq_keptPeaks, show accumulate (hashPair hasher) leaves = merged ++ kept from split,
        keptPeaks, List.map_append, List.reverse_append]
      rfl
    · have after : (forest.append hasher leaf).peaks =
          keptPeaks (push (hashPair hasher) stack leaf) := by
        rw [← grown, ← peaks_eq_keptPeaks, ofLeaves_append]
        rfl
      rw [after, push, carried, keptPeaks, List.map_cons, List.reverse_cons, keptPeaks, keptPeaks,
        List.foldr_reverse, List.foldl_map]

end MerkleForest

end Hammurabi
