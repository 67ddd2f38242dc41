/-
This file settles what the root of the range commits to.

The root hashes the peaks and nothing else: neither the number of leaves nor the
heights of the mountains enter it, and a leaf is hashed like an inner node. So with
a collision-free hash the root determines the peaks, and a peak determines the
leaves of its mountain as long as the height is known. Two ledgers share a root
exactly when they have as many mountains and each mountain of one stands on the
other's: the leaves of the lower mountain are inner nodes of the higher one. Ledgers
of one length never do.
-/

import Mathlib.Data.List.Forall2
import Hammurabi.Soundness

namespace Hammurabi

open HashTree

variable {Digest : Type} (hasher : Hasher Digest)

namespace MerkleForest

/-! ### The mountains over a number of leaves -/

/-- Where the mountains from `offset` on start, and how high they are. -/
def mountainsFrom (n : Nat) : Nat → Nat → List (Nat × Nat)
  | 0, _ => []
  | fuel + 1, offset =>
    if offset < n then
      let size := mountainSize (n - offset)
      (offset, size.log2) :: mountainsFrom n fuel (offset + size)
    else []

/-- Where the mountains over `n` leaves start, and how high they are. -/
def mountains (n : Nat) : List (Nat × Nat) := mountainsFrom n n 0

/-- The top of a mountain. -/
def top (leaves : List Digest) (mountain : Nat × Nat) : Digest :=
  node (hashPair hasher) (mountainLeaf hasher leaves mountain.1) mountain.2 0

/-- The peaks are the tops of the mountains. -/
theorem peaksFrom_eq_map (leaves : List Digest) (fuel offset : Nat) :
    peaksFrom hasher leaves fuel offset =
      (mountainsFrom leaves.length fuel offset).map (top hasher leaves) := by
  induction fuel generalizing offset with
  | zero => rfl
  | succ fuel inductionHypothesis =>
    rw [peaksFrom, mountainsFrom]
    by_cases remains : offset < leaves.length
    · obtain ⟨height, size, fits, -⟩ := mountainSize_spec (leaves.length - offset) (by omega)
      rw [if_pos remains, if_pos remains]
      simp only [size, List.map_cons, inductionHypothesis, top, Nat.log2_two_pow,
        buildMerkleTree_eq hasher leaves offset height (by omega)]
    · rw [if_neg remains, if_neg remains]
      rfl

theorem recomputePeaks_eq_map (leaves : List Digest) :
    recomputePeaks hasher leaves = (mountains leaves.length).map (top hasher leaves) :=
  peaksFrom_eq_map hasher leaves leaves.length 0

/-- While leaves remain there is one more mountain, as high as fits. -/
theorem mountainsFrom_succ (n fuel offset : Nat) (remains : offset < n) :
    ∃ height, mountainSize (n - offset) = 2 ^ height ∧ 2 ^ height ≤ n - offset ∧
      n - offset < 2 ^ (height + 1) ∧
      mountainsFrom n (fuel + 1) offset =
        (offset, height) :: mountainsFrom n fuel (offset + 2 ^ height) := by
  obtain ⟨height, size, fits, highest⟩ := mountainSize_spec (n - offset) (by omega)
  refine ⟨height, size, fits, highest, ?_⟩
  rw [mountainsFrom, if_pos remains]
  simp only [size, Nat.log2_two_pow]

/-- Every leaf is in a mountain. -/
theorem mem_mountainsFrom (n fuel offset index : Nat) (starts : offset ≤ index)
    (inside : index < n) (enough : n ≤ offset + fuel) :
    ∃ mountain ∈ mountainsFrom n fuel offset,
      mountain.1 ≤ index ∧ index < mountain.1 + 2 ^ mountain.2 := by
  induction fuel generalizing offset with
  | zero => omega
  | succ fuel inductionHypothesis =>
    obtain ⟨height, -, -, -, listed⟩ := mountainsFrom_succ n fuel offset (by omega)
    have positive := Nat.two_pow_pos height
    rw [listed]
    by_cases here : index < offset + 2 ^ height
    · exact ⟨(offset, height), List.mem_cons_self, starts, here⟩
    · obtain ⟨mountain, member, within⟩ := inductionHypothesis (offset + 2 ^ height) (by omega)
        (by omega)
      exact ⟨mountain, List.mem_cons_of_mem _ member, within⟩

theorem mountains_eq_nil_iff (leaves : List Digest) :
    recomputePeaks hasher leaves = [] ↔ leaves = [] := by
  constructor
  · intro none
    by_contra some
    have positive := List.length_pos_iff.mpr some
    obtain ⟨mountain, member, -⟩ :=
      mem_mountainsFrom leaves.length leaves.length 0 0 (by omega) positive (by omega)
    rw [recomputePeaks_eq_map, List.map_eq_nil_iff] at none
    rw [← mountains, none] at member
    cases member
  · rintro rfl
    rfl

/-! ### Ledgers with one root -/

/-- One mountain stands on another: its leaves are the inner nodes of the other at the level that
makes up for their heights. -/
def StandsOn (leaves others : List Digest) (mountain other : Nat × Nat) : Prop :=
  mountain.2 ≤ other.2 ∧ ∀ k < 2 ^ mountain.2,
    node (hashPair hasher) (mountainLeaf hasher others other.1) (other.2 - mountain.2) k =
      mountainLeaf hasher leaves mountain.1 k

/-- Two ledgers are confused: both have leaves, as many mountains, and of any two corresponding
mountains one stands on the other; or one has no leaves, and the peaks of the other hash to the zero
digest. -/
def Confused (leaves others : List Digest) : Prop :=
  (leaves ≠ [] ∧ others ≠ [] ∧
    List.Forall₂ (fun mountain other => StandsOn hasher leaves others mountain other ∨
      StandsOn hasher others leaves other mountain) (mountains leaves.length)
      (mountains others.length)) ∨
  (leaves = [] ∧ others ≠ [] ∧ hasher.finalize (recomputePeaks hasher others) = hasher.zero) ∨
  (leaves ≠ [] ∧ others = [] ∧ hasher.finalize (recomputePeaks hasher leaves) = hasher.zero)

theorem root_ofLeaves (leaves : List Digest) :
    (ofLeaves hasher leaves).root hasher =
      if leaves = [] then hasher.zero else hasher.finalize (recomputePeaks hasher leaves) := by
  rw [root, (ofLeaves_spec hasher leaves).2]
  refine if_congr ?_ rfl rfl
  rw [List.isEmpty_iff, mountains_eq_nil_iff]

section

variable {hasher} (injective : Function.Injective hasher.finalize)

include injective

/-- The top of a mountain is the top of a higher one exactly when it stands on it. -/
theorem top_eq_of_le_iff (leaves others : List Digest) (mountain other : Nat × Nat)
    (le : mountain.2 ≤ other.2) :
    top hasher leaves mountain = top hasher others other ↔
      StandsOn hasher leaves others mountain other := by
  have heights : other.2 - mountain.2 + mountain.2 = other.2 := Nat.sub_add_cancel le
  have stands := node_eq_node_iff (hashPair_injective injective)
    (mountainLeaf hasher others other.1) (mountainLeaf hasher leaves mountain.1)
    (other.2 - mountain.2) mountain.2 0
  simp only [heights, Nat.zero_mul, Nat.zero_add] at stands
  rw [top, top, StandsOn, eq_comm, stands, and_iff_right le]

theorem top_eq_iff (leaves others : List Digest) (mountain other : Nat × Nat) :
    top hasher leaves mountain = top hasher others other ↔
      StandsOn hasher leaves others mountain other ∨
        StandsOn hasher others leaves other mountain := by
  have above := top_eq_of_le_iff injective leaves others mountain other
  have below := top_eq_of_le_iff injective others leaves other mountain
  constructor
  · intro same
    rcases Nat.le_total mountain.2 other.2 with le | le
    · exact .inl ((above le).mp same)
    · exact .inr ((below le).mp same.symm)
  · rintro (stands | stands)
    · exact (above stands.1).mpr stands
    · exact ((below stands.1).mpr stands).symm

/-- Two ledgers share a root exactly when both are empty or they are confused. -/
theorem root_eq_iff (leaves others : List Digest) :
    (ofLeaves hasher leaves).root hasher = (ofLeaves hasher others).root hasher ↔
      (leaves = [] ∧ others = []) ∨ Confused hasher leaves others := by
  rw [root_ofLeaves, root_ofLeaves, Confused]
  by_cases none : leaves = [] <;> by_cases none' : others = []
  · simp [none, none']
  · simp [none, none', eq_comm]
  · simp [none, none']
  · simp only [none, none', if_false, injective.eq_iff, recomputePeaks_eq_map, ne_eq,
      not_false_eq_true, true_and, false_and, or_false, false_or, and_false]
    rw [← List.forall₂_eq_eq_eq, List.forall₂_map_left_iff, List.forall₂_map_right_iff]
    have tops := top_eq_iff injective leaves others
    exact ⟨List.Forall₂.imp fun mountain other => (tops mountain other).mp,
      List.Forall₂.imp fun mountain other => (tops mountain other).mpr⟩

/-- Confused ledgers of one length are equal: no mountain stands below another. -/
theorem eq_of_root_eq (leaves others : List Digest) (length : leaves.length = others.length)
    (same : (ofLeaves hasher leaves).root hasher = (ofLeaves hasher others).root hasher) :
    leaves = others := by
  rcases (root_eq_iff injective leaves others).mp same with
    ⟨rfl, rfl⟩ | ⟨-, -, stands⟩ | ⟨rfl, some, -⟩ | ⟨some, rfl, -⟩
  · rfl
  · rw [← length, List.forall₂_same] at stands
    refine List.ext_getElem length fun index inside inside' => ?_
    obtain ⟨mountain, member, starts, within⟩ :=
      mem_mountainsFrom leaves.length leaves.length 0 index (by omega) inside (by omega)
    have place : mountain.1 + (index - mountain.1) = index := Nat.add_sub_cancel' starts
    have leaf : mountainLeaf hasher leaves mountain.1 (index - mountain.1) =
        mountainLeaf hasher others mountain.1 (index - mountain.1) := by
      rcases stands mountain member with ⟨-, each⟩ | ⟨-, each⟩
      · have here := each (index - mountain.1) (by omega)
        rw [Nat.sub_self] at here
        exact here.symm
      · have here := each (index - mountain.1) (by omega)
        rwa [Nat.sub_self] at here
    rwa [mountainLeaf, mountainLeaf, place, List.getElem?_eq_getElem inside,
      List.getElem?_eq_getElem inside', Option.getD_some, Option.getD_some] at leaf
  · exact absurd (List.eq_nil_of_length_eq_zero length.symm) some
  · exact absurd (List.eq_nil_of_length_eq_zero length) some

end

/-! ### Ledgers of records -/

/-- The range built by appending records one after the other. -/
def ofRecords (records : List (List UInt8)) : MerkleForest Digest :=
  records.foldl (fun forest data => (forest.appendData hasher data).1) new

/-- Appending records is appending their hashes. -/
theorem ofRecords_eq (records : List (List UInt8)) :
    ofRecords hasher records = ofLeaves hasher (records.map hasher.hashData) := by
  rw [ofRecords, ofLeaves, List.foldl_map]
  rfl

/-- A common root means a common ledger exactly when the two ledgers are equal or not confused: of
leaves, and of records, whose hashes are the leaves. -/
theorem root_commits_iff {hasher : Hasher Digest}
    (injective : Function.Injective hasher.finalize)
    (injectiveData : Function.Injective hasher.hashData) :
    (∀ leaves others : List Digest,
      ((ofLeaves hasher leaves).root hasher = (ofLeaves hasher others).root hasher →
          leaves = others) ↔
        (leaves = others ∨ ¬ Confused hasher leaves others)) ∧
    ∀ records others : List (List UInt8),
      ((ofRecords hasher records).root hasher = (ofRecords hasher others).root hasher →
          records = others) ↔
        (records = others ∨
          ¬ Confused hasher (records.map hasher.hashData) (others.map hasher.hashData)) := by
  have leaves : ∀ leaves others : List Digest,
      ((ofLeaves hasher leaves).root hasher = (ofLeaves hasher others).root hasher →
          leaves = others) ↔ (leaves = others ∨ ¬ Confused hasher leaves others) := by
    intro leaves others
    rw [root_eq_iff injective]
    constructor
    · intro commits
      by_cases confused : Confused hasher leaves others
      · exact .inl (commits (.inr confused))
      · exact .inr confused
    · rintro (rfl | clear) same
      · rfl
      · rcases same with ⟨rfl, rfl⟩ | confused
        · rfl
        · exact absurd confused clear
  refine ⟨leaves, fun records others => ?_⟩
  have hashes : records.map hasher.hashData = others.map hasher.hashData ↔ records = others :=
    (List.map_injective_iff.mpr injectiveData).eq_iff
  rw [ofRecords_eq, ofRecords_eq, ← hashes]
  exact leaves _ _

theorem pairingHasher_injective_data : Function.Injective pairingHasher.hashData := by
  intro first second same
  exact List.map_injective_iff.mpr (fun a b => UInt8.toNat_inj.mp) (Encodable.encode_injective same)

/-- For the pairing code. -/
theorem root_commits_iff_pairing :
    (∀ leaves others : List Nat,
      ((ofLeaves pairingHasher leaves).root pairingHasher =
          (ofLeaves pairingHasher others).root pairingHasher → leaves = others) ↔
        (leaves = others ∨ ¬ Confused pairingHasher leaves others)) ∧
    ∀ records others : List (List UInt8),
      ((ofRecords pairingHasher records).root pairingHasher =
          (ofRecords pairingHasher others).root pairingHasher → records = others) ↔
        (records = others ∨ ¬ Confused pairingHasher (records.map pairingHasher.hashData)
          (others.map pairingHasher.hashData)) :=
  root_commits_iff pairingHasher_injective pairingHasher_injective_data

/-- Two leaves have the root of the single leaf that is their hash, and two records that of the
record whose bytes are their hashes one after the other. -/
theorem root_of_inner_node :
    let pair := hashPair pairingHasher 1 2
    Function.Injective pairingHasher.finalize ∧ Function.Injective pairingHasher.hashData ∧
      (ofLeaves pairingHasher [1, 2]).root pairingHasher =
        (ofLeaves pairingHasher [pair]).root pairingHasher ∧ [1, 2] ≠ [pair] ∧
      (ofRecords pairingHasher [[], [0]]).root pairingHasher =
        (ofRecords pairingHasher [[0, 1]]).root pairingHasher ∧
      ([[], [0]] : List (List UInt8)) ≠ [[0, 1]] :=
  ⟨pairingHasher_injective, pairingHasher_injective_data, by decide, by decide, by decide +kernel,
    by decide⟩

end MerkleForest

end Hammurabi
