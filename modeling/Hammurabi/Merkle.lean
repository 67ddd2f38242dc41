/-
This file is the Merkle mountain range of the ledger.

The leaves are split into mountains, perfect trees over the largest power of two
that still fits, from the left; the peaks are their roots and the root of the range
is the hash of the peaks. A proof lists the siblings from a leaf to the peak of its
mountain, and verifying climbs along them and puts the result in the peak's place.

Every digest is 32 bytes and a hash is always taken of whole digests one after the
other, so the hash is a function of the list of digests. Which digests there are,
and what that function is, are parameters.
-/

import Hammurabi.Crypto
import Hammurabi.Library.HashTree

namespace Hammurabi

/-! ### Hashing -/

/-- The hash of digests one after the other, over a type of digests. -/
structure Hasher (Digest : Type) where
  zero : Digest
  finalize : List Digest → Digest
  hashData : List UInt8 → Digest
  hexEncode : Digest → String

/-- The hasher of the ledger: BLAKE3 of the concatenated digests. -/
def blake3Hasher (primitives : Primitives) : Hasher (FixedBytes 32) where
  zero := .filled 32 0
  finalize digests := primitives.blake3 (digests.flatMap Subtype.val)
  hashData := primitives.blake3
  hexEncode digest := primitives.hexEncode digest.1

/-- Merkle mountain range errors. -/
inductive MmrError where
  | indexOutOfBounds (index : Nat)
  | empty
  | proofVerificationFailed
  | rootMismatch (expected actual : String)
  deriving DecidableEq, Repr

def MmrError.toString : MmrError → String
  | .indexOutOfBounds index => s!"index out of bounds: {index}"
  | .empty => "empty MMR: no leaves"
  | .proofVerificationFailed => "proof verification failed"
  | .rootMismatch expected actual => s!"root mismatch: expected {expected}, got {actual}"

variable {Digest : Type} (hasher : Hasher Digest)

def hashPair (a b : Digest) : Digest := hasher.finalize [a, b]

/-! ### Mountains -/

/-- Double the size while it still fits in what remains. -/
def growSize (remaining : Nat) : Nat → Nat → Nat
  | 0, size => size
  | fuel + 1, size => if size * 2 ≤ remaining then growSize remaining fuel (size * 2) else size

/-- The largest power of two that fits in what remains. -/
def mountainSize (remaining : Nat) : Nat := growSize remaining remaining 1

/-- Pair up the level until one node is left. -/
def collapse : Nat → List Digest → List Digest
  | 0, level => level
  | fuel + 1, level =>
    if level.length > 1 then collapse fuel (HashTree.nextLevel (hashPair hasher) level) else level

/-- All the levels, from the given one to the single node. -/
def collectLevels : Nat → List Digest → List (List Digest)
  | 0, level => [level]
  | fuel + 1, level =>
    if level.length > 1 then
      level :: collectLevels fuel (HashTree.nextLevel (hashPair hasher) level)
    else [level]

/-- The siblings along the way up from a position, level by level. -/
def collectSiblings : List (List Digest) → Nat → List Digest
  | [], _ => []
  | nodes :: levels, pos =>
    let found :=
      if pos % 2 = 0 ∧ pos + 1 < nodes.length then nodes[pos + 1]?
      else if pos % 2 = 1 then nodes[pos - 1]?
      else none
    found.toList ++ collectSiblings levels (pos / 2)

/-! ### The range -/

/-- A Merkle mountain range. -/
structure MerkleForest (Digest : Type) where
  leaves : List Digest
  peaks : List Digest
  count : UInt64

/-- A leaf with its proof, the root and the index. -/
structure CompactProof (Digest : Type) where
  leaf : Digest
  proof : List Digest
  root : Digest
  index : Nat

namespace MerkleForest

def new : MerkleForest Digest := ⟨[], [], 0⟩

/-- The leaves from `start`, `size` of them. -/
def slice (leaves : List Digest) (start size : Nat) : List Digest := (leaves.drop start).take size

/-- The root of the mountain over the leaves from `start`. -/
def buildMerkleTree (leaves : List Digest) (start size : Nat) : Digest :=
  if size = 1 then (leaves[start]?).getD hasher.zero
  else (collapse hasher size (slice leaves start size)).headD hasher.zero

/-- The peaks of the mountains from `offset` on. -/
def peaksFrom (leaves : List Digest) : Nat → Nat → List Digest
  | 0, _ => []
  | fuel + 1, offset =>
    if offset < leaves.length then
      let size := mountainSize (leaves.length - offset)
      buildMerkleTree hasher leaves offset size :: peaksFrom leaves fuel (offset + size)
    else []

def recomputePeaks (leaves : List Digest) : List Digest :=
  peaksFrom hasher leaves leaves.length 0

def append (forest : MerkleForest Digest) (leaf : Digest) : MerkleForest Digest where
  leaves := forest.leaves ++ [leaf]
  peaks := recomputePeaks hasher (forest.leaves ++ [leaf])
  count := forest.count + 1

/-- Append the hash of a record, and return it. -/
def appendData (forest : MerkleForest Digest) (data : List UInt8) :
    MerkleForest Digest × Digest :=
  let hash := hasher.hashData data
  (forest.append hasher hash, hash)

def root (forest : MerkleForest Digest) : Digest :=
  if forest.peaks.isEmpty then hasher.zero else hasher.finalize forest.peaks

def len (forest : MerkleForest Digest) : Nat := forest.leaves.length

def getLeaf (forest : MerkleForest Digest) (index : Nat) : Except MmrError Digest :=
  match forest.leaves[index]? with
  | none => .error (.indexOutOfBounds index)
  | some leaf => .ok leaf

/-- Look for the mountain of a leaf, from the mountain at `offset` on: its peak's position, the
position of the leaf in it, and its size. -/
def findPeakFrom (n index : Nat) : Nat → Nat → Nat → Except MmrError (Nat × Nat × Nat)
  | 0, _, _ => .error (.indexOutOfBounds index)
  | fuel + 1, peakIdx, offset =>
    if offset < n then
      let size := mountainSize (n - offset)
      if index < offset + size then .ok (peakIdx, index - offset, size)
      else findPeakFrom n index fuel (peakIdx + 1) (offset + size)
    else .error (.indexOutOfBounds index)

def findPeakForLeaf (forest : MerkleForest Digest) (index : Nat) :
    Except MmrError (Nat × Nat × Nat) :=
  let n := forest.leaves.length
  if index ≥ n then .error (.indexOutOfBounds index) else findPeakFrom n index n 0 0

def proof (forest : MerkleForest Digest) (index : Nat) : Except MmrError (List Digest) := do
  let (_, localIdx, size) ← forest.findPeakForLeaf index
  let start := index - localIdx
  let levels := collectLevels hasher size (slice forest.leaves start size)
  return collectSiblings levels.dropLast localIdx

/-- The root the peaks would have with the climb's result in one peak's place. -/
def climbedRoot (forest : MerkleForest Digest) (leaf : Digest) (proof : List Digest)
    (peakIdx localIdx : Nat) : Digest :=
  hasher.finalize
    (forest.peaks.set peakIdx (HashTree.climb (hashPair hasher) leaf localIdx proof))

def verify [DecidableEq Digest] (forest : MerkleForest Digest) (leaf : Digest)
    (proof : List Digest) (index : Nat) : Bool :=
  match forest.findPeakForLeaf index with
  | .error _ => false
  | .ok (peakIdx, localIdx, _) =>
    forest.climbedRoot hasher leaf proof peakIdx localIdx = forest.root hasher

def verifyWithRoot [DecidableEq Digest] (forest : MerkleForest Digest) (leaf : Digest)
    (proof : List Digest) (index : Nat) (expectedRoot : Digest) : Except MmrError Unit := do
  let (peakIdx, localIdx, _) ← forest.findPeakForLeaf index
  let computedRoot := forest.climbedRoot hasher leaf proof peakIdx localIdx
  if computedRoot ≠ expectedRoot then
    throw (.rootMismatch (hasher.hexEncode expectedRoot) (hasher.hexEncode computedRoot))
  return ()

def compactProof (forest : MerkleForest Digest) (index : Nat) :
    Except MmrError (CompactProof Digest) := do
  return {
    leaf := ← forest.getLeaf index
    proof := ← forest.proof hasher index
    root := forest.root hasher
    index := index }

def verifyCompact [DecidableEq Digest] (forest : MerkleForest Digest)
    (compact : CompactProof Digest) : Bool :=
  forest.verify hasher compact.leaf compact.proof compact.index

/-- The range built by appending leaves one after the other. -/
def ofLeaves (leaves : List Digest) : MerkleForest Digest := leaves.foldl (append hasher) new

end MerkleForest

end Hammurabi
