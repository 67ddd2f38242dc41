/-
This file shows that a proof outlives the appends that come after it.

The mountain of a leaf is the block of leaves in which the number of the leaf and the
number of all leaves first part when both are read from the top bit down. Every block
starts at a multiple of its size, so what lies beside a leaf on its way up depends on
the row of leaves and on the leaf's number alone, and not on how many leaves there
are. More leaves only say how far the way goes. So a proof never changes in what it
has, it gets longer at its end, and by the same nodes for all the leaves of a
mountain: those that lead on from the mountain's old peak.
-/

import Mathlib.Data.Nat.Bitwise
import Hammurabi.Accumulator
import Hammurabi.FixedShape

namespace Hammurabi

open HashTree

variable {Digest : Type} (hasher : Hasher Digest)

namespace MerkleForest

/-! ### Where two numbers part -/

/-- Above this bit the numbers agree, and from it on the second is behind. -/
def Parts (n index height : Nat) : Prop :=
  n / 2 ^ (height + 1) = index / 2 ^ (height + 1) ∧ index / 2 ^ height < n / 2 ^ height

theorem div_two_pow_congr (first second low high : Nat) (ascends : low ≤ high)
    (same : first / 2 ^ low = second / 2 ^ low) : first / 2 ^ high = second / 2 ^ high := by
  obtain ⟨more, rfl⟩ := Nat.exists_eq_add_of_le ascends
  rw [Nat.pow_add, ← Nat.div_div_eq_div_mul, ← Nat.div_div_eq_div_mul, same]

/-- A number that is further away parts higher up. -/
theorem Parts.mono {n n' index height height' : Nat} (parts : Parts n index height)
    (parts' : Parts n' index height') (grows : n ≤ n') : height ≤ height' := by
  by_contra lower
  have agree := div_two_pow_congr n' index (height' + 1) height (Nat.not_le.mp lower) parts'.1
  have further : n / 2 ^ height ≤ n' / 2 ^ height := Nat.div_le_div_right grows
  have behind := parts.2
  omega

theorem Parts.unique {n index height height' : Nat} (parts : Parts n index height)
    (parts' : Parts n index height') : height = height' :=
  Nat.le_antisymm (parts.mono parts' (Nat.le_refl n)) (parts'.mono parts (Nat.le_refl n))

/-- The bit at which two numbers part is the highest in which they differ. -/
theorem Parts.log2_xor {n index height : Nat} (parts : Parts n index height) :
    (n ^^^ index).log2 = height := by
  have above : (n ^^^ index) / 2 ^ (height + 1) = 0 := by
    rw [← Nat.shiftRight_eq_div_pow, Nat.shiftRight_xor_distrib, Nat.shiftRight_eq_div_pow,
      Nat.shiftRight_eq_div_pow, parts.1, Nat.xor_self]
  have here : (n ^^^ index) / 2 ^ height ≠ 0 := by
    rw [← Nat.shiftRight_eq_div_pow, Nat.shiftRight_xor_distrib, Nat.shiftRight_eq_div_pow,
      Nat.shiftRight_eq_div_pow, Nat.xor_ne_zero_iff]
    exact (Nat.ne_of_lt parts.2).symm
  have below : n ^^^ index < 2 ^ (height + 1) := by
    rcases Nat.div_eq_zero_iff.mp above with none | small
    · exact absurd none (Nat.two_pow_pos _).ne'
    · exact small
  have reached : 2 ^ height ≤ n ^^^ index := by
    by_contra small
    exact here (Nat.div_eq_of_lt (Nat.not_le.mp small))
  have positive : n ^^^ index ≠ 0 := by
    have := Nat.two_pow_pos height
    omega
  exact (Nat.log2_eq_iff positive).mpr ⟨reached, below⟩

/-- The numbers still part at the same bit as long as the first has not reached the next multiple
above it. -/
theorem Parts.iff_lt {n n' index height : Nat} (parts : Parts n index height) (grows : n ≤ n') :
    Parts n' index height ↔ n' < (index / 2 ^ (height + 1) + 1) * 2 ^ (height + 1) := by
  have positive := Nat.two_pow_pos (height + 1)
  have further : n / 2 ^ (height + 1) ≤ n' / 2 ^ (height + 1) := Nat.div_le_div_right grows
  have ahead : n / 2 ^ height ≤ n' / 2 ^ height := Nat.div_le_div_right grows
  rw [← Nat.div_lt_iff_lt_mul positive, Parts]
  have agree := parts.1
  have behind := parts.2
  omega

/-- Of two indices that agree from a bit on, both part there from what one of them parts from. -/
theorem Parts.congr {n index other height : Nat} (parts : Parts n index height) (low : Nat)
    (below : low ≤ height) (same : other / 2 ^ low = index / 2 ^ low) : Parts n other height := by
  rw [Parts, div_two_pow_congr other index low height below same,
    div_two_pow_congr other index low (height + 1) (by omega) same]
  exact parts

/-! ### The mountain of a leaf by its number -/

/-- A mountain starts at a multiple of twice its size, which is where the number of leaves has its
bit for it. -/
theorem mountainsFrom_aligned (n fuel offset k : Nat) (cleared : offset = n / 2 ^ k * 2 ^ k)
    (mountain : Nat × Nat) (member : mountain ∈ mountainsFrom n fuel offset) :
    mountain.1 = n / 2 ^ (mountain.2 + 1) * 2 ^ (mountain.2 + 1) ∧
      n / 2 ^ mountain.2 = 2 * (n / 2 ^ (mountain.2 + 1)) + 1 := by
  induction fuel generalizing offset k with
  | zero => cases member
  | succ fuel inductionHypothesis =>
    by_cases remains : offset < n
    · obtain ⟨height, -, fits, highest, listed⟩ := mountainsFrom_succ n fuel offset remains
      have whole := Nat.div_add_mod' n (2 ^ k)
      have short := Nat.mod_lt n (Nat.two_pow_pos k)
      have smaller : 2 ^ height < 2 ^ k := by omega
      have lower : height < k := (Nat.pow_lt_pow_iff_right Nat.one_lt_two).mp smaller
      obtain ⟨more, rfl⟩ := Nat.exists_eq_add_of_lt lower
      -- What is cleared below a higher bit is cleared below this one, and the rest is below it too.
      have multiple : offset = n / 2 ^ (height + more + 1) * 2 ^ more * 2 ^ (height + 1) := by
        rw [cleared]
        ring
      have rest : n = n / 2 ^ (height + more + 1) * 2 ^ more * 2 ^ (height + 1) + (n - offset) := by
        omega
      have quotient : n / 2 ^ (height + 1) = n / 2 ^ (height + more + 1) * 2 ^ more :=
        Nat.div_eq_of_lt_le (by omega) (by rw [Nat.succ_mul]; omega)
      have start : offset = n / 2 ^ (height + 1) * 2 ^ (height + 1) := by rw [quotient, multiple]
      have double : n / 2 ^ (height + 1) * 2 ^ (height + 1) =
          2 * (n / 2 ^ (height + 1)) * 2 ^ height := by
        rw [Nat.pow_succ]
        ring
      have odd : n / 2 ^ height = 2 * (n / 2 ^ (height + 1)) + 1 := by
        rw [Nat.pow_succ] at highest
        exact Nat.div_eq_of_lt_le (by rw [Nat.succ_mul]; omega)
          (by rw [Nat.succ_mul, Nat.succ_mul]; omega)
      rw [listed] at member
      rcases List.mem_cons.mp member with rfl | later
      · exact ⟨start, odd⟩
      · refine inductionHypothesis _ height ?_ later
        rw [odd, start, Nat.pow_succ']
        ring
    · rw [mountainsFrom, if_neg remains] at member
      cases member

/-- The mountain that holds an index is as high as the bit at which the index and the number of
leaves part, and it starts where the index has its lower bits cleared. -/
theorem parts_of_holds (n index : Nat) (mountain : Nat × Nat) (member : mountain ∈ mountains n)
    (holds : Holds mountain index) :
    Parts n index mountain.2 ∧ mountain.1 = index / 2 ^ mountain.2 * 2 ^ mountain.2 := by
  have positive := Nat.two_pow_pos mountain.2
  obtain ⟨start, odd⟩ := mountainsFrom_aligned n n 0 n
    (by rw [Nat.div_eq_of_lt Nat.lt_two_pow_self, Nat.zero_mul]) mountain member
  obtain ⟨starts, ends⟩ := holds
  have double : n / 2 ^ (mountain.2 + 1) * 2 ^ (mountain.2 + 1) =
      2 * (n / 2 ^ (mountain.2 + 1)) * 2 ^ mountain.2 := by
    rw [Nat.pow_succ]
    ring
  have block : index / 2 ^ mountain.2 = 2 * (n / 2 ^ (mountain.2 + 1)) :=
    Nat.div_eq_of_lt_le (by omega) (by rw [Nat.succ_mul]; omega)
  have half : index / 2 ^ (mountain.2 + 1) = index / 2 ^ mountain.2 / 2 := by
    rw [Nat.pow_succ, Nat.div_div_eq_div_mul]
  exact ⟨⟨by omega, by omega⟩, by rw [block, start, double]⟩

theorem lt_of_parts {n index height : Nat} (parts : Parts n index height) : index < n := by
  by_contra reached
  exact absurd parts.2
    (Nat.not_lt.mpr (Nat.div_le_div_right (c := 2 ^ height) (Nat.not_lt.mp reached)))

/-- Every index of a range parts from the number of leaves somewhere. -/
theorem exists_parts (n index : Nat) (inside : index < n) : ∃ height, Parts n index height := by
  obtain ⟨mountain, member, holds⟩ :=
    mem_mountainsFrom n n 0 index (Nat.zero_le _) inside (by omega)
  exact ⟨mountain.2, (parts_of_holds n index mountain member holds).1⟩

/-- Where the search finds a leaf: its position in the mountain is its number without the bits from
the mountain's height on. -/
theorem findPeakForLeaf_of_parts (leaves : List Digest) (index height : Nat)
    (parts : Parts leaves.length index height) :
    ∃ peakIdx, (ofLeaves hasher leaves).findPeakForLeaf index =
        .ok (peakIdx, index % 2 ^ height, 2 ^ height) ∧
      IsMountainOf hasher leaves (ofLeaves hasher leaves).peaks index peakIdx (index % 2 ^ height)
        height ∧
      (mountains leaves.length)[peakIdx]? = some (index / 2 ^ height * 2 ^ height, height) := by
  obtain ⟨mountain, member, holds⟩ :=
    mem_mountainsFrom leaves.length leaves.length 0 index (Nat.zero_le _) (lt_of_parts parts)
      (by omega)
  obtain ⟨parts', start⟩ := parts_of_holds _ index mountain member holds
  obtain rfl := parts.unique parts'
  obtain ⟨peakIdx, listed, search⟩ :=
    findPeakForLeaf_holds hasher leaves index mountain member holds
  obtain ⟨found, here⟩ := search leaves rfl
  have rest : index - mountain.1 = index % 2 ^ mountain.2 := by
    have whole := Nat.div_add_mod' index (2 ^ mountain.2)
    omega
  rw [rest] at found here
  refine ⟨peakIdx, found, here, ?_⟩
  rw [listed, ← start]

/-- The proof of a leaf is its way up in the row of all leaves, as far as its mountain goes. -/
theorem proof_eq_path (leaves : List Digest) (index height : Nat) (leaf : Nat → Digest)
    (agrees : ∀ k, (inside : k < leaves.length) → leaf k = leaves[k])
    (parts : Parts leaves.length index height) :
    (ofLeaves hasher leaves).proof hasher index =
      .ok (path (hashPair hasher) leaf 0 index height) := by
  obtain ⟨peakIdx, found, mountain, -⟩ := findPeakForLeaf_of_parts hasher leaves index height parts
  have whole := Nat.div_add_mod' index (2 ^ height)
  have start : index - index % 2 ^ height = index / 2 ^ height * 2 ^ height := by omega
  rw [proof_of_mountain hasher leaves index _ _ height found mountain, start,
    path_congr (hashPair hasher) _ leaf 0 _ height (index / 2 ^ height) mountain.inside, whole]
  intro k below
  rw [Nat.zero_add] at below ⊢
  have inside : index / 2 ^ height * 2 ^ height + k < leaves.length := by
    have fits := mountain.fits
    omega
  rw [mountainLeaf, List.getElem?_eq_getElem inside, Option.getD_some, agrees _ inside]

/-- The top of a leaf's mountain is the node above the leaf in the row of all leaves. -/
theorem node_of_mountain (leaves peaks : List Digest) (index peakIdx height : Nat)
    (leaf : Nat → Digest) (agrees : ∀ k, (inside : k < leaves.length) → leaf k = leaves[k])
    (mountain : IsMountainOf hasher leaves peaks index peakIdx (index % 2 ^ height) height) :
    node (hashPair hasher) (mountainLeaf hasher leaves (index - index % 2 ^ height)) height 0 =
      node (hashPair hasher) leaf height (index / 2 ^ height) := by
  have whole := Nat.div_add_mod' index (2 ^ height)
  have fits := mountain.fits
  refine node_congr (hashPair hasher) _ _ height _ _ fun k below => ?_
  have inside : index - index % 2 ^ height + (0 * 2 ^ height + k) < leaves.length := by omega
  rw [mountainLeaf, List.getElem?_eq_getElem inside, Option.getD_some,
    agrees _ (by omega : index / 2 ^ height * 2 ^ height + k < leaves.length)]
  congr 1
  omega

/-- Leaves that the search finds under one peak agree from the mountain's height on. -/
theorem same_block (leaves : List Digest) (index other height : Nat)
    (parts : Parts leaves.length index height) (peakIdx localIdx otherIdx size size' : Nat)
    (found : (ofLeaves hasher leaves).findPeakForLeaf index = .ok (peakIdx, localIdx, size))
    (foundOther : (ofLeaves hasher leaves).findPeakForLeaf other =
      .ok (peakIdx, otherIdx, size')) : other / 2 ^ height = index / 2 ^ height := by
  obtain ⟨first, found', -, listed⟩ := findPeakForLeaf_of_parts hasher leaves index height parts
  have inside : other < leaves.length := by
    by_contra outside
    rw [findPeakForLeaf_outside hasher leaves other (Nat.not_lt.mp outside)] at foundOther
    cases foundOther
  obtain ⟨height', parts'⟩ := exists_parts _ _ inside
  obtain ⟨second, foundOther', -, listed'⟩ :=
    findPeakForLeaf_of_parts hasher leaves other height' parts'
  have here : peakIdx = first := congrArg Prod.fst (Except.ok.inj (found.symm.trans found'))
  have there : peakIdx = second :=
    congrArg Prod.fst (Except.ok.inj (foundOther.symm.trans foundOther'))
  rw [← here] at listed
  rw [← there, listed] at listed'
  obtain ⟨start, rfl⟩ := Prod.mk.inj (Option.some.inj listed')
  exact (Nat.eq_of_mul_eq_mul_right (Nat.two_pow_pos height) start).symm

/-! ### Growing -/

/-- What appends do to the proof of a leaf: it keeps what it has and goes on with `further`. -/
structure ProofGrows (leaves more : List Digest) (index : Nat) (siblings further : List Digest) :
    Prop where
  before : (ofLeaves hasher leaves).proof hasher index = .ok siblings
  after : (more.foldl (append hasher) (ofLeaves hasher leaves)).proof hasher index =
    .ok (siblings ++ further)
  height : siblings.length = (leaves.length ^^^ index).log2
  /-- It is as it was until the mountain and as many leaves after it are full. -/
  kept : further = [] ↔ leaves.length + more.length <
    (index / 2 ^ (siblings.length + 1) + 1) * 2 ^ (siblings.length + 1)
  /-- Every leaf of the mountain goes on with the same. -/
  shared : ∀ other peakIdx localIdx otherIdx size size',
    (ofLeaves hasher leaves).findPeakForLeaf index = .ok (peakIdx, localIdx, size) →
    (ofLeaves hasher leaves).findPeakForLeaf other = .ok (peakIdx, otherIdx, size') →
    ∃ theirs, (ofLeaves hasher leaves).proof hasher other = .ok theirs ∧
      (more.foldl (append hasher) (ofLeaves hasher leaves)).proof hasher other =
        .ok (theirs ++ further)
  /-- It leads from the old peak of the mountain to the new root. -/
  carries : ∃ peakIdx localIdx peakIdx' localIdx' size peak,
    (ofLeaves hasher leaves).findPeakForLeaf index =
      .ok (peakIdx, localIdx, 2 ^ siblings.length) ∧
    (ofLeaves hasher leaves).peaks[peakIdx]? = some peak ∧
    (more.foldl (append hasher) (ofLeaves hasher leaves)).findPeakForLeaf index =
      .ok (peakIdx', localIdx', size) ∧
    (more.foldl (append hasher) (ofLeaves hasher leaves)).climbedRoot hasher peak further peakIdx'
        (localIdx' / 2 ^ siblings.length) =
      (more.foldl (append hasher) (ofLeaves hasher leaves)).root hasher

/-- A row that goes on has the leaves it had. -/
theorem row_append (leaves more : List Digest) (k : Nat) (inside : k < leaves.length) :
    row hasher (leaves ++ more) k = leaves[k] := by
  rw [row, List.getElem?_append_left inside, List.getElem?_eq_getElem inside, Option.getD_some]

theorem row_eq_getElem (leaves : List Digest) (k : Nat) (inside : k < leaves.length) :
    row hasher leaves k = leaves[k] := by
  rw [row, List.getElem?_eq_getElem inside, Option.getD_some]

/-- Appends never change what a proof has. They only make it longer, at its end and by the same
nodes for all leaves of a mountain, and what they add is the proof of the mountain's old peak. -/
theorem proofs_grow (leaves more : List Digest) (index : Nat) (inside : index < leaves.length) :
    ∃ siblings further, ProofGrows hasher leaves more index siblings further := by
  obtain ⟨height, parts⟩ := exists_parts _ _ inside
  have grows : leaves.length ≤ (leaves ++ more).length := by
    rw [List.length_append]
    exact Nat.le_add_right _ _
  obtain ⟨height', parts'⟩ := exists_parts (leaves ++ more).length index (by omega)
  obtain ⟨rise, rfl⟩ := Nat.exists_eq_add_of_le (parts.mono parts' grows)
  let leaf := row hasher (leaves ++ more)
  -- A leaf of the same mountain parts at the same bits, before and after.
  have proofs : ∀ other, other / 2 ^ height = index / 2 ^ height →
      (ofLeaves hasher leaves).proof hasher other =
          .ok (path (hashPair hasher) leaf 0 other height) ∧
        (more.foldl (append hasher) (ofLeaves hasher leaves)).proof hasher other =
          .ok (path (hashPair hasher) leaf 0 other height ++
            path (hashPair hasher) leaf height (index / 2 ^ height) rise) := by
    intro other same
    refine ⟨proof_eq_path hasher leaves other height leaf (row_append hasher leaves more)
      (parts.congr height (Nat.le_refl _) same), ?_⟩
    rw [← ofLeaves_append, proof_eq_path hasher (leaves ++ more) other (height + rise) leaf
      (row_eq_getElem hasher _) (parts'.congr height (Nat.le_add_right _ _) same), path_add,
      Nat.zero_add, same]
  refine ⟨path (hashPair hasher) leaf 0 index height,
    path (hashPair hasher) leaf height (index / 2 ^ height) rise, (proofs index rfl).1,
    (proofs index rfl).2, ?_, ?_, ?_, ?_⟩
  · rw [length_path, parts.log2_xor]
  · rw [length_path, ← List.length_append, ← parts.iff_lt grows, ← List.length_eq_zero_iff,
      length_path]
    constructor
    · rintro rfl
      exact parts'
    · intro still
      have same := still.unique parts'
      omega
  · intro other peakIdx localIdx otherIdx size size' found foundOther
    exact ⟨_, proofs other (same_block hasher leaves index other height parts _ _ _ _ _ found
      foundOther)⟩
  · obtain ⟨peakIdx, found, mountain, -⟩ :=
      findPeakForLeaf_of_parts hasher leaves index height parts
    obtain ⟨peakIdx', found', mountain', -⟩ :=
      findPeakForLeaf_of_parts hasher (leaves ++ more) index (height + rise) parts'
    have peak := mountain.peak
    rw [node_of_mountain hasher leaves _ index peakIdx height leaf (row_append hasher leaves more)
      mountain] at peak
    refine ⟨peakIdx, _, peakIdx', index % 2 ^ (height + rise), 2 ^ (height + rise), _,
      by rwa [length_path], peak, ?_⟩
    rw [← ofLeaves_append, length_path]
    refine ⟨found', ?_⟩
    have low : index % 2 ^ (height + rise) / 2 ^ height % 2 ^ rise =
        index / 2 ^ height % 2 ^ rise := by
      rw [Nat.pow_add, Nat.mod_mul_right_div_self, Nat.mod_mod]
    have arrives : climb (hashPair hasher) (node (hashPair hasher) leaf height (index / 2 ^ height))
        (index % 2 ^ (height + rise) / 2 ^ height)
        (path (hashPair hasher) leaf height (index / 2 ^ height) rise) =
        node (hashPair hasher) (mountainLeaf hasher (leaves ++ more)
          (index - index % 2 ^ (height + rise))) (height + rise) 0 := by
      rw [climb_congr (hashPair hasher) _ _ (index / 2 ^ height) _ (by rwa [length_path]),
        climb_path, Nat.div_div_eq_div_mul, ← Nat.pow_add,
        node_of_mountain hasher (leaves ++ more) _ index peakIdx' (height + rise) leaf
          (row_eq_getElem hasher _) mountain']
    rw [climbedRoot, arrives]
    exact climbedRoot_of_climb hasher (leaves ++ more) index peakIdx' _ _ mountain' _ [] rfl

/-- The third of three leaves is a mountain of its own, and the fourth makes it part of a higher
one. -/
theorem proofs_grow_three : ∃ siblings further,
    ProofGrows pairingHasher [1, 2, 3] [4] 2 siblings further ∧ siblings.length = 0 ∧
      further ≠ [] := by
  obtain ⟨siblings, further, grows⟩ := proofs_grow pairingHasher [1, 2, 3] [4] 2 (by decide)
  have alone : siblings.length = 0 := grows.height
  refine ⟨siblings, further, grows, alone, fun same => ?_⟩
  have short := grows.kept.mp same
  rw [alone] at short
  exact absurd short (by decide)

end MerkleForest

end Hammurabi
