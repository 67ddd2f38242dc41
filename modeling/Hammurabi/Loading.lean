/-
This file settles when a range read from a document is one that appending could have
built.

Reading decodes the leaves and the peaks apart from each other and takes the count as
it stands; nothing is recomputed, and the root the document records is not read. So
what is loaded is consistent exactly when the document is, and a loaded range with too
few peaks accepts any value under an index whose peak is missing. A consistent range
accepts what C-free hashing allows it to: the nodes of its tree, and the values that
hash up to a leaf.
-/

import Hammurabi.Library.Json
import Hammurabi.Library.Outcome
import Hammurabi.Soundness

namespace Hammurabi

open HashTree Json

variable {Digest : Type} (hasher : Hasher Digest)

/-! ### Writing a range -/

def MerkleForest.toJson (forest : MerkleForest Digest) : Value := .object [
  ("leaves", .array (forest.leaves.map fun leaf => .string (hasher.hexEncode leaf))),
  ("peaks", .array (forest.peaks.map fun peak => .string (hasher.hexEncode peak))),
  ("root", .string (hasher.hexEncode (forest.root hasher))),
  ("count", .number (.posInt forest.count))]

/-! ### Reading a range -/

section Reading

-- The digest a hexadecimal text stands for, if it stands for one.
variable (decodeDigest : String → Option Digest)

/-- The digests of the items of an array. -/
def decodeHashArray : List Value → Except MmrError (List Digest)
  | [] => .ok []
  | item :: items =>
    match item.asStr with
    | none => .error .empty
    | some text =>
      match decodeDigest text with
      | none => .error .proofVerificationFailed
      | some digest => (decodeHashArray items).map (digest :: ·)

/-- The digests a document lists under a key. -/
def hashesUnder (json : Value) (key : String) : Except MmrError (List Digest) :=
  match (json.get key).bind Value.asArray with
  | none => .error .empty
  | some items => decodeHashArray decodeDigest items

/-- The count a document states, zero if it states none. -/
def statedCount (json : Value) : UInt64 := ((json.get "count").bind Value.asU64).getD 0

def MerkleForest.fromJson (json : Value) : Except MmrError (MerkleForest Digest) := do
  let leaves ← hashesUnder decodeDigest json "leaves"
  let peaks ← hashesUnder decodeDigest json "peaks"
  return { leaves := leaves, peaks := peaks, count := statedCount json }

/-- A range is loaded exactly as its leaves, its peaks and its count stand in the document. -/
theorem MerkleForest.fromJson_eq_ok_iff (json : Value) (forest : MerkleForest Digest) :
    fromJson decodeDigest json = .ok forest ↔
      hashesUnder decodeDigest json "leaves" = .ok forest.leaves ∧
        hashesUnder decodeDigest json "peaks" = .ok forest.peaks ∧
        forest.count = statedCount json := by
  unfold fromJson
  rw [Outcome.bind_eq_ok]
  simp only [Outcome.bind_eq_ok]
  constructor
  · rintro ⟨leaves, leavesRead, peaks, peaksRead, built⟩
    cases built
    exact ⟨leavesRead, peaksRead, rfl⟩
  · rintro ⟨leavesRead, peaksRead, count⟩
    obtain ⟨leaves, peaks, stated⟩ := forest
    exact ⟨leaves, leavesRead, peaks, peaksRead, by rw [← count]; rfl⟩

/-- Digests written one by one are read back. -/
theorem decodeHashArray_map (inverse : ∀ digest, decodeDigest (hasher.hexEncode digest) =
    some digest) (digests : List Digest) :
    decodeHashArray decodeDigest
      (digests.map fun digest => .string (hasher.hexEncode digest)) = .ok digests := by
  induction digests with
  | nil => rfl
  | cons digest digests inductionHypothesis =>
    rw [List.map_cons, decodeHashArray, Value.asStr_string]
    dsimp only
    rw [inverse]
    dsimp only
    rw [inductionHypothesis]
    rfl

/-- A range survives its JSON form. -/
theorem MerkleForest.fromJson_toJson (inverse : ∀ digest, decodeDigest (hasher.hexEncode digest) =
    some digest) (forest : MerkleForest Digest) :
    fromJson decodeDigest (forest.toJson hasher) = .ok forest :=
  (fromJson_eq_ok_iff decodeDigest _ forest).mpr
    ⟨decodeHashArray_map hasher decodeDigest inverse forest.leaves,
      decodeHashArray_map hasher decodeDigest inverse forest.peaks, rfl⟩

end Reading

/-- A hexadecimal text decodes to 32 bytes or to no digest. -/
def blake3DecodeDigest (primitives : Primitives) (text : String) : Option (FixedBytes 32) :=
  match primitives.hexDecode text with
  | .error _ => none
  | .ok bytes => FixedBytes.ofList? 32 bytes

/-- The digest of a text written for it is read back. -/
theorem blake3DecodeDigest_hexEncode (primitives : Primitives) (hex : HexRoundTrip primitives)
    (digest : FixedBytes 32) :
    blake3DecodeDigest primitives ((blake3Hasher primitives).hexEncode digest) = some digest := by
  rw [blake3DecodeDigest, blake3Hasher, hex]
  exact FixedBytes.ofList?_val digest

namespace MerkleForest

/-! ### What a consistent range accepts -/

/-- A node of the tree over the leaves: of the mountain some index lies in, at some level. -/
def IsNode (leaves : List Digest) (value : Digest) : Prop :=
  ∃ index peakIdx localIdx height level position,
    (ofLeaves hasher leaves).findPeakForLeaf index = .ok (peakIdx, localIdx, 2 ^ height) ∧
    level ≤ height ∧ position < 2 ^ (height - level) ∧
    value = node (hashPair hasher) (mountainLeaf hasher leaves (index - localIdx)) level position

/-- Nothing goes below the leaves but nodes of the tree. -/
def Sealed (leaves : List Digest) : Prop :=
  ∀ value siblings index, GoesBelow hasher leaves value siblings index →
    IsNode hasher leaves value

/-- Leaves that are no hashes of pairs are sealed: nothing goes below them. -/
theorem sealed_of_not_pair (leaves : List Digest)
    (notPair : ∀ leaf ∈ leaves, ∀ first second, leaf ≠ hashPair hasher first second) :
    Sealed hasher leaves := by
  rintro value _ index ⟨peakIdx, localIdx, height, front, back, found, rfl, some, -, climbs, -⟩
  exfalso
  have inside : index < leaves.length := by
    by_contra outside
    rw [findPeakForLeaf_outside hasher leaves index (by omega)] at found
    cases found
  obtain ⟨peakIdx', localIdx', height', found', mountain⟩ :=
    findPeakForLeaf_spec hasher leaves index inside
  obtain ⟨rfl, rfl⟩ := mountain_unique hasher leaves index _ _ _ _ _ _ found' found
  have low : localIdx' / 2 ^ front.length ≤ localIdx' := Nat.div_le_self _ _
  have held : index - localIdx' + localIdx' / 2 ^ front.length < leaves.length := by
    have fits := mountain.fits
    have bound := mountain.inside
    omega
  obtain ⟨first, second, pair⟩ := exists_climb_eq (hashPair hasher) value localIdx' front some
  refine notPair _ (List.getElem_mem held) first second ?_
  rw [← pair, climbs, mountainLeaf, List.getElem?_eq_getElem held, Option.getD_some]

theorem root_congr (forest other : MerkleForest Digest) (peaks : forest.peaks = other.peaks) :
    forest.root hasher = other.root hasher := by
  rw [root, root, peaks]

variable [DecidableEq Digest]

/-- Whether a proof verifies depends on the leaves and the peaks alone. -/
theorem verify_congr (forest other : MerkleForest Digest) (leaves : forest.leaves = other.leaves)
    (peaks : forest.peaks = other.peaks) (value : Digest) (siblings : List Digest)
    (index : Nat) :
    forest.verify hasher value siblings index = other.verify hasher value siblings index := by
  obtain ⟨_, _, _⟩ := forest
  obtain ⟨_, _, _⟩ := other
  obtain rfl := leaves
  obtain rfl := peaks
  rfl

/-- With a collision-free hash, a range built by appending accepts nodes of its tree only, exactly
when its leaves are sealed. -/
theorem verify_isNode_iff {hasher : Hasher Digest} (injective : Function.Injective hasher.finalize)
    (leaves : List Digest) :
    (∀ value siblings index, (ofLeaves hasher leaves).verify hasher value siblings index = true →
      IsNode hasher leaves value) ↔ Sealed hasher leaves := by
  have accepted : ∀ value siblings index peakIdx localIdx height,
      (ofLeaves hasher leaves).findPeakForLeaf index = .ok (peakIdx, localIdx, 2 ^ height) →
      IsMountainOf hasher leaves (ofLeaves hasher leaves).peaks index peakIdx localIdx height →
      ((ofLeaves hasher leaves).verify hasher value siblings index = true ↔ _) :=
    fun value siblings index peakIdx localIdx height found mountain =>
      (verify_of_found hasher _ value siblings index _ _ _ found).trans
        ((climbedRoot_eq_root_iff injective leaves value siblings index peakIdx localIdx height
          mountain).trans (climbsToTop_iff injective leaves value siblings index peakIdx localIdx
            height mountain.inside found))
  constructor
  · intro sound value siblings index below
    have inside : index < leaves.length := by
      by_contra outside
      obtain ⟨peakIdx, localIdx, height, front, back, found, -⟩ := below
      rw [findPeakForLeaf_outside hasher leaves index (by omega)] at found
      cases found
    obtain ⟨peakIdx, localIdx, height, found, mountain⟩ :=
      findPeakForLeaf_spec hasher leaves index inside
    exact sound value siblings index
      ((accepted value siblings index peakIdx localIdx height found mountain).mpr
        (.inr (.inr below)))
  · intro sealed' value siblings index verified
    have inside : index < leaves.length := by
      by_contra outside
      rw [verify, findPeakForLeaf_outside hasher leaves index (by omega)] at verified
      cases verified
    obtain ⟨peakIdx, localIdx, height, found, mountain⟩ :=
      findPeakForLeaf_spec hasher leaves index inside
    rcases (accepted value siblings index peakIdx localIdx height found mountain).mp verified with
      ⟨stored, -⟩ | ⟨peakIdx', localIdx', height', found', short, presented, -⟩ | below
    · exact ⟨index, peakIdx, localIdx, height, 0, localIdx, found, Nat.zero_le _,
        mountain.inside, stored⟩
    · refine ⟨index, peakIdx', localIdx', height', _, _, found', Nat.sub_le .., ?_, presented⟩
      rw [Nat.sub_sub_self (Nat.le_of_lt short)]
      exact Nat.mod_lt _ (Nat.two_pow_pos _)
    · exact sealed' value siblings index below

/-! ### What is loaded -/

variable (decodeDigest : String → Option Digest)

/-- What a document loads as is consistent: the peaks and the count are those of the leaves, the
root is the recorded one, and only nodes of the tree over the leaves verify. -/
def LoadsConsistent (json : Value) : Prop :=
  ∀ forest, fromJson decodeDigest json = .ok forest →
    forest.peaks = recomputePeaks hasher forest.leaves ∧
    forest.count.toNat = forest.leaves.length ∧
    (json.get "root").bind Value.asStr = some (hasher.hexEncode (forest.root hasher)) ∧
    ∀ value siblings index, forest.verify hasher value siblings index = true →
      IsNode hasher forest.leaves value

/-- Where the leaves and the peaks of a document decode, the peaks, the count and the root it
records are those of the range built by appending its leaves, and the leaves are sealed. -/
def Agrees (json : Value) : Prop :=
  ∀ leaves peaks, hashesUnder decodeDigest json "leaves" = .ok leaves →
    hashesUnder decodeDigest json "peaks" = .ok peaks →
    let built := ofLeaves hasher leaves
    peaks = built.peaks ∧ (statedCount json).toNat = built.len ∧
      (json.get "root").bind Value.asStr = some (hasher.hexEncode (built.root hasher)) ∧
      Sealed hasher leaves

/-- A document loads as a consistent range exactly when it agrees with the range built by appending
its leaves. -/
theorem loadsConsistent_iff {hasher : Hasher Digest}
    (injective : Function.Injective hasher.finalize) (json : Value) :
    LoadsConsistent hasher decodeDigest json ↔ Agrees hasher decodeDigest json := by
  -- A range with the leaves and the peaks of a built one is it, as far as verifying goes.
  have built : ∀ forest : MerkleForest Digest,
      forest.peaks = (ofLeaves hasher forest.leaves).peaks →
      ((∀ value siblings index, forest.verify hasher value siblings index = true →
        IsNode hasher forest.leaves value) ↔ Sealed hasher forest.leaves) := by
    intro forest peaks
    rw [← verify_isNode_iff injective]
    have same := verify_congr hasher forest (ofLeaves hasher forest.leaves)
      (ofLeaves_leaves hasher _).symm peaks
    simp only [same]
  constructor
  · intro consistent leaves peaks leavesRead peaksRead
    let forest : MerkleForest Digest := ⟨leaves, peaks, statedCount json⟩
    obtain ⟨recomputed, count, recorded, nodes⟩ := consistent forest
      ((fromJson_eq_ok_iff decodeDigest json forest).mpr ⟨leavesRead, peaksRead, rfl⟩)
    have peaksBuilt : forest.peaks = (ofLeaves hasher forest.leaves).peaks :=
      recomputed.trans (ofLeaves_spec hasher leaves).2.symm
    refine ⟨peaksBuilt, ?_, ?_, (built forest peaksBuilt).mp nodes⟩
    · rw [ofLeaves_len]
      exact count
    · rw [recorded, root_congr hasher forest _ peaksBuilt]
  · intro agrees forest loaded
    obtain ⟨leavesRead, peaksRead, count⟩ := (fromJson_eq_ok_iff decodeDigest json forest).mp loaded
    obtain ⟨peaksBuilt, stated, recorded, closed⟩ := agrees _ _ leavesRead peaksRead
    refine ⟨peaksBuilt.trans (ofLeaves_spec hasher _).2, ?_, ?_,
      (built forest peaksBuilt).mpr closed⟩
    · rw [count, stated, ofLeaves_len]
    · rw [recorded, root_congr hasher forest _ peaksBuilt]

/-! ### Documents of numbers -/

/-- The number a decimal text stands for. -/
def readDecimal (text : String) : Option Nat :=
  if text.toList.all Char.isDigit then some (Nat.ofDigitChars 10 text.toList 0) else none

/-- A document that lists leaves and peaks, with a count and a root. -/
def rangeDocument (leaves peaks : List String) (count : UInt64) (root : String) : Value :=
  .object [("count", .number (.posInt count)), ("leaves", .array (leaves.map .string)),
    ("peaks", .array (peaks.map .string)), ("root", .string root)]

/-- The document of a range of three leaves, which are hashes of other lists than pairs, loads as a
consistent range. -/
theorem loadsConsistent_iff_three : LoadsConsistent pairingHasher readDecimal
    (rangeDocument ["0", "1", "3"] ["10", "3"] 3 "180") := by
  refine (loadsConsistent_iff readDecimal pairingHasher_injective _).mpr ?_
  intro leaves peaks leavesRead peaksRead
  obtain rfl : [0, 1, 3] = leaves := Except.ok.inj leavesRead
  obtain rfl : [10, 3] = peaks := Except.ok.inj peaksRead
  refine ⟨by decide, rfl, by decide, sealed_of_not_pair pairingHasher _ ?_⟩
  have apart : ∀ (list : List Nat) (first second : Nat), list.length ≠ 2 →
      pairingHasher.finalize list ≠ hashPair pairingHasher first second := by
    intro list first second length same
    rw [pairingHasher_injective same] at length
    exact length rfl
  simp only [List.forall_mem_cons, List.not_mem_nil, false_imp_iff, implies_true, and_true]
  exact ⟨fun first second => apart [] first second (by decide),
    fun first second => apart [0] first second (by decide),
    fun first second => apart [1] first second (by decide)⟩

/-- Three leaves with one peak that is none of theirs, and the root of that peak, are loaded, and
every value verifies at the last of them, under every proof. -/
theorem loads_foreign_peak :
    let document := rangeDocument ["1", "2", "3"] ["7"] 3 "57"
    Function.Injective pairingHasher.finalize ∧
      ¬ LoadsConsistent pairingHasher readDecimal document ∧
      ∃ forest, fromJson readDecimal document = .ok forest ∧ forest.leaves = [1, 2, 3] ∧
        pairingHasher.hexEncode (forest.root pairingHasher) = "57" ∧
        ∀ value siblings, forest.verify pairingHasher value siblings 2 = true := by
  have loaded : fromJson readDecimal (rangeDocument ["1", "2", "3"] ["7"] 3 "57") =
      .ok ⟨[1, 2, 3], [7], 3⟩ := rfl
  refine ⟨pairingHasher_injective, ?_, _, loaded, rfl, by decide, fun value siblings => ?_⟩
  · intro consistent
    exact absurd (consistent _ loaded).1 (by decide)
  · exact (verify_of_found pairingHasher _ value siblings 2 1 0 1 rfl).mpr rfl

end MerkleForest

end Hammurabi
