/-
This file shows that the search for a leaf and the building of the peaks cut the leaves
into the same mountains, and that nothing is read out of range on the way.

The sizes of the mountains are the powers of two in the number of leaves, the largest
first. The functions of the range are then written a second time, with nothing in place
of every access past the end, every chunk of one and the last return of the search; that
they still return something, and the same, says that none of these is ever reached. It
rests on one thing: a level of a mountain has a power of two nodes, so it pairs up until
one is left.
-/

import Mathlib.Data.Nat.BitIndices
import Hammurabi.FixedShape

namespace Hammurabi

open HashTree

variable {Digest : Type} (hasher : Hasher Digest)

namespace MerkleForest

/-! ### The sizes of the mountains -/

/-- The mountains get lower. -/
theorem mountainsFrom_descending (n fuel offset : Nat) :
    (mountainsFrom n fuel offset).Pairwise fun first second => second.2 < first.2 := by
  induction fuel generalizing offset with
  | zero => exact .nil
  | succ fuel inductionHypothesis =>
    by_cases remains : offset < n
    · obtain ⟨height, -, -, highest, listed⟩ := mountainsFrom_succ n fuel offset remains
      rw [listed]
      refine .cons (fun later member => ?_) (inductionHypothesis _)
      have bounds := bounds_mountainsFrom n fuel _ later member
      rw [Nat.pow_succ] at highest
      have smaller : 2 ^ later.2 < 2 ^ height := by omega
      exact (Nat.pow_lt_pow_iff_right (by decide)).mp smaller
    · rw [mountainsFrom, if_neg remains]
      exact .nil

/-- Together they hold all the leaves. -/
theorem sum_mountainsFrom (n fuel offset : Nat) (starts : offset ≤ n)
    (enough : n ≤ offset + fuel) :
    ((mountainsFrom n fuel offset).map fun mountain => 2 ^ mountain.2).sum = n - offset := by
  induction fuel generalizing offset with
  | zero => exact (Nat.sub_eq_zero_of_le enough).symm
  | succ fuel inductionHypothesis =>
    by_cases remains : offset < n
    · obtain ⟨height, -, fits, -, listed⟩ := mountainsFrom_succ n fuel offset remains
      have positive := Nat.two_pow_pos height
      rw [listed, List.map_cons, List.sum_cons, inductionHypothesis _ (by omega) (by omega)]
      dsimp only
      omega
    · rw [mountainsFrom, if_neg remains]
      exact (Nat.sub_eq_zero_of_le (Nat.le_of_not_lt remains)).symm

/-- The heights of the mountains are the places of the ones in the binary number of the leaves, from
the top down. -/
theorem heights_mountains (n : Nat) :
    (mountains n).map Prod.snd = n.bitIndices.reverse := by
  have ascending : ((mountains n).map Prod.snd).reverse.SortedLT := by
    rw [List.sortedLT_iff_pairwise, List.pairwise_reverse, List.pairwise_map]
    exact mountainsFrom_descending n n 0
  have whole : (((mountains n).map Prod.snd).reverse.map fun height => 2 ^ height).sum = n := by
    rw [List.map_reverse, List.sum_reverse, List.map_map]
    exact sum_mountainsFrom n n 0 (Nat.zero_le _) (by omega)
  have places := Nat.bitIndices_sum_map_two_pow ascending
  rw [whole] at places
  rw [places, List.reverse_reverse]

/-! ### The same functions with every access checked -/

/-- The leaves from `start` on, each read at its index; nothing if one is not there. -/
def checkedLeaves (leaves : List Digest) (start size : Nat) : Option (List Digest) :=
  (List.range' start size).mapM fun i => leaves[i]?

/-- Pair up a level; nothing at a chunk of one. -/
def pairUp : List Digest → Option (List Digest)
  | [] => some []
  | [_] => none
  | a :: b :: rest => (pairUp rest).map (hashPair hasher a b :: ·)

/-- Pair up until one node is left; nothing if that takes more rounds than are given. -/
def checkedCollapse : Nat → List Digest → Option (List Digest)
  | 0, level => if level.length > 1 then none else some level
  | fuel + 1, level =>
    if level.length > 1 then (pairUp hasher level).bind (checkedCollapse fuel) else some level

def checkedTree (leaves : List Digest) (start size : Nat) : Option Digest :=
  if size = 1 then leaves[start]?
  else do
    let level ← checkedLeaves leaves start size
    let level ← checkedCollapse hasher size level
    level[0]?

def checkedPeaksFrom (leaves : List Digest) : Nat → Nat → Option (List Digest)
  | 0, offset => if offset < leaves.length then none else some []
  | fuel + 1, offset =>
    if offset < leaves.length then do
      let size := mountainSize (leaves.length - offset)
      let peak ← checkedTree hasher leaves offset size
      let peaks ← checkedPeaksFrom leaves fuel (offset + size)
      return peak :: peaks
    else some []

def checkedPeaks (leaves : List Digest) : Option (List Digest) :=
  checkedPeaksFrom hasher leaves leaves.length 0

/-- The search; nothing where it runs past the last mountain. -/
def checkedFindFrom (n index : Nat) : Nat → Nat → Nat → Option (Nat × Nat × Nat)
  | 0, _, _ => none
  | fuel + 1, peakIdx, offset =>
    if offset < n then
      let size := mountainSize (n - offset)
      if index < offset + size then
        if offset ≤ index then some (peakIdx, index - offset, size) else none
      else checkedFindFrom n index fuel (peakIdx + 1) (offset + size)
    else none

def checkedFind (forest : MerkleForest Digest) (index : Nat) :
    Option (Except MmrError (Nat × Nat × Nat)) :=
  let n := forest.leaves.length
  if index ≥ n then some (.error (.indexOutOfBounds index))
  else (checkedFindFrom n index n 0 0).map .ok

def checkedLevels : Nat → List Digest → Option (List (List Digest))
  | 0, level => if level.length > 1 then none else some [level]
  | fuel + 1, level =>
    if level.length > 1 then do
      let next ← pairUp hasher level
      let levels ← checkedLevels fuel next
      return level :: levels
    else some [level]

/-- The levels but the last; nothing if there is none. -/
def checkedInit (levels : List (List Digest)) : Option (List (List Digest)) :=
  if levels.length = 0 then none else some (levels.take (levels.length - 1))

def checkedSiblings : List (List Digest) → Nat → Option (List Digest)
  | [], _ => some []
  | nodes :: levels, pos =>
    if pos % 2 = 0 ∧ pos + 1 < nodes.length then do
      let sibling ← nodes[pos + 1]?
      let siblings ← checkedSiblings levels (pos / 2)
      return sibling :: siblings
    else if pos % 2 = 1 then do
      let sibling ← nodes[pos - 1]?
      let siblings ← checkedSiblings levels (pos / 2)
      return sibling :: siblings
    else checkedSiblings levels (pos / 2)

/-- The siblings of a leaf whose mountain is found; nothing if the mountain starts before the
range does. -/
def checkedPath (leaves : List Digest) (index localIdx size : Nat) : Option (List Digest) :=
  if localIdx ≤ index then do
    let level ← checkedLeaves leaves (index - localIdx) size
    let levels ← checkedLevels hasher size level
    let below ← checkedInit levels
    checkedSiblings below localIdx
  else none

def checkedProof (forest : MerkleForest Digest) (index : Nat) :
    Option (Except MmrError (List Digest)) := do
  match ← forest.checkedFind index with
  | .error error => return .error error
  | .ok (_, localIdx, size) =>
    let siblings ← checkedPath hasher forest.leaves index localIdx size
    return .ok siblings

/-! ### Nothing is out of range -/

/-- Leaves that are all there are read. -/
theorem checkedLeaves_eq (leaves : List Digest) (start size : Nat)
    (fits : start + size ≤ leaves.length) :
    checkedLeaves leaves start size = some (slice leaves start size) := by
  induction size generalizing start with
  | zero => rw [slice, List.take_zero]; rfl
  | succ size inductionHypothesis =>
    have inside : start < leaves.length := by omega
    have rest := inductionHypothesis (start + 1) (by omega)
    rw [checkedLeaves] at rest
    rw [checkedLeaves, List.range'_succ, List.mapM_cons, List.getElem?_eq_getElem inside, rest,
      slice, slice, List.drop_eq_getElem_cons inside, List.take_succ_cons]
    rfl

/-- A level of even width has no chunk of one. -/
theorem pairUp_eq (nodes : List Digest) (even : nodes.length % 2 = 0) :
    pairUp hasher nodes = some (nextLevel (hashPair hasher) nodes) := by
  fun_induction pairUp hasher nodes with
  | case1 => rfl
  | case2 => simp at even
  | case3 a b rest inductionHypothesis =>
    rw [List.length_cons, List.length_cons] at even
    rw [inductionHypothesis (by omega), nextLevel]
    rfl

theorem pairUp_level (leaf : Nat → Digest) (height m : Nat) :
    pairUp hasher (level (hashPair hasher) leaf height (2 ^ (m + 1))) =
      some (level (hashPair hasher) leaf (height + 1) (2 ^ m)) := by
  rw [pairUp_eq, nextLevel_pow]
  rw [length_level, Nat.pow_succ']
  exact Nat.mul_mod_right 2 _

theorem checkedCollapse_level (leaf : Nat → Digest) (height m fuel : Nat) (enough : m ≤ fuel) :
    checkedCollapse hasher fuel (level (hashPair hasher) leaf height (2 ^ m)) =
      some [node (hashPair hasher) leaf (height + m) 0] := by
  induction m generalizing height fuel with
  | zero =>
    have single : ¬(level (hashPair hasher) leaf height (2 ^ 0)).length > 1 := by
      rw [length_level]
      decide
    cases fuel with
    | zero => rw [checkedCollapse, if_neg single]; rfl
    | succ fuel => rw [checkedCollapse, if_neg single]; rfl
  | succ m inductionHypothesis =>
    obtain ⟨fuel, rfl⟩ : ∃ rest, fuel = rest + 1 := ⟨fuel - 1, by omega⟩
    rw [checkedCollapse, if_pos (one_lt_length_level hasher leaf height m), pairUp_level,
      Option.bind_some, inductionHypothesis (height + 1) fuel (by omega)]
    congr 3
    omega

theorem checkedTree_eq (leaves : List Digest) (start height : Nat)
    (fits : start + 2 ^ height ≤ leaves.length) :
    checkedTree hasher leaves start (2 ^ height) =
      some (buildMerkleTree hasher leaves start (2 ^ height)) := by
  rw [buildMerkleTree_eq hasher leaves start height fits, checkedTree]
  cases height with
  | zero =>
    have inside : start < leaves.length := fits
    rw [Nat.pow_zero, if_pos rfl, node, mountainLeaf, Nat.add_zero,
      List.getElem?_eq_getElem inside, Option.getD_some]
  | succ height =>
    have large : 2 ^ (height + 1) ≠ 1 := by
      rw [Nat.pow_succ]
      omega
    rw [if_neg large, checkedLeaves_eq leaves start _ fits,
      slice_eq_level hasher leaves start _ fits]
    change (checkedCollapse hasher _ _).bind _ = _
    rw [checkedCollapse_level hasher _ 0 (height + 1) _ (Nat.le_of_lt Nat.lt_two_pow_self),
      Nat.zero_add]
    rfl

/-- Building the peaks stays in range. -/
theorem checkedPeaksFrom_eq (leaves : List Digest) (fuel offset : Nat)
    (enough : leaves.length ≤ offset + fuel) :
    checkedPeaksFrom hasher leaves fuel offset = some (peaksFrom hasher leaves fuel offset) := by
  induction fuel generalizing offset with
  | zero => rw [checkedPeaksFrom, if_neg (by omega), peaksFrom]
  | succ fuel inductionHypothesis =>
    rw [checkedPeaksFrom, peaksFrom]
    by_cases remains : offset < leaves.length
    · obtain ⟨height, size, fits, -⟩ := mountainSize_spec (leaves.length - offset) (by omega)
      have positive := Nat.two_pow_pos height
      rw [if_pos remains, if_pos remains]
      simp only [size, checkedTree_eq hasher leaves offset height (by omega),
        inductionHypothesis (offset + 2 ^ height) (by omega)]
      rfl
    · rw [if_neg remains, if_neg remains]

/-- A search that finds a mountain does so before it runs past the last one. -/
theorem checkedFindFrom_eq (n index fuel first offset : Nat) (starts : offset ≤ index)
    (found : Nat × Nat × Nat) (finds : findPeakFrom n index fuel first offset = .ok found) :
    checkedFindFrom n index fuel first offset = some found := by
  induction fuel generalizing first offset with
  | zero => cases finds
  | succ fuel inductionHypothesis =>
    rw [findPeakFrom] at finds
    rw [checkedFindFrom]
    by_cases remains : offset < n
    · rw [if_pos remains] at finds ⊢
      dsimp only at finds ⊢
      by_cases here : index < offset + mountainSize (n - offset)
      · rw [if_pos here] at finds ⊢
        rw [if_pos starts]
        exact congrArg some (Except.ok.inj finds)
      · rw [if_neg here] at finds ⊢
        exact inductionHypothesis _ _ (Nat.le_of_not_lt here) finds
    · rw [if_neg remains] at finds
      cases finds

theorem checkedLevels_level (leaf : Nat → Digest) (height m fuel : Nat) (enough : m ≤ fuel) :
    checkedLevels hasher fuel (level (hashPair hasher) leaf height (2 ^ m)) =
      some (collectLevels hasher fuel (level (hashPair hasher) leaf height (2 ^ m))) := by
  induction m generalizing height fuel with
  | zero =>
    have single : ¬(level (hashPair hasher) leaf height (2 ^ 0)).length > 1 := by
      rw [length_level]
      decide
    cases fuel with
    | zero => rw [checkedLevels, if_neg single, collectLevels]
    | succ fuel => rw [checkedLevels, if_neg single, collectLevels, if_neg single]
  | succ m inductionHypothesis =>
    obtain ⟨fuel, rfl⟩ : ∃ rest, fuel = rest + 1 := ⟨fuel - 1, by omega⟩
    have wide := one_lt_length_level hasher leaf height m
    rw [checkedLevels, if_pos wide, collectLevels, if_pos wide, pairUp_level, nextLevel_pow]
    change (checkedLevels hasher fuel _).bind _ = _
    rw [inductionHypothesis (height + 1) fuel (by omega)]
    rfl

/-- A sibling that is looked for where it is. -/
theorem checkedSiblings_cons (nodes : List Digest) (levels : List (List Digest)) (pos : Nat)
    (sibling : Digest)
    (found : (if pos % 2 = 0 ∧ pos + 1 < nodes.length then nodes[pos + 1]?
      else if pos % 2 = 1 then nodes[pos - 1]? else none) = some sibling) :
    checkedSiblings (nodes :: levels) pos =
      (checkedSiblings levels (pos / 2)).map (sibling :: ·) := by
  rw [checkedSiblings]
  split at found
  · rename_i left
    rw [if_pos left, found]
    cases checkedSiblings levels (pos / 2) <;> rfl
  · rename_i notLeft
    rw [if_neg notLeft]
    split at found
    · rename_i right
      rw [if_pos right, found]
      cases checkedSiblings levels (pos / 2) <;> rfl
    · cases found

theorem checkedSiblings_levels (leaf : Nat → Digest) (height m fuel pos : Nat)
    (enough : m ≤ fuel) (inside : pos < 2 ^ m) :
    checkedSiblings
        (collectLevels hasher fuel (level (hashPair hasher) leaf height (2 ^ m))).dropLast pos =
      some (path (hashPair hasher) leaf height pos m) := by
  induction m generalizing height fuel pos with
  | zero =>
    have single : ¬(level (hashPair hasher) leaf height (2 ^ 0)).length > 1 := by
      rw [length_level]
      decide
    cases fuel with
    | zero => rfl
    | succ fuel => rw [collectLevels, if_neg single]; rfl
  | succ m inductionHypothesis =>
    obtain ⟨fuel, rfl⟩ : ∃ rest, fuel = rest + 1 := ⟨fuel - 1, by omega⟩
    have half : pos / 2 < 2 ^ m := by
      rw [Nat.pow_succ'] at inside
      omega
    rw [collectLevels, if_pos (one_lt_length_level hasher leaf height m), nextLevel_pow,
      List.dropLast_cons_of_ne_nil (collectLevels_ne_nil hasher _ _),
      checkedSiblings_cons _ _ _ _ (found_sibling hasher leaf height m pos inside),
      inductionHypothesis (height + 1) fuel (pos / 2) (by omega) half]
    rfl

theorem checkedInit_eq (levels : List (List Digest)) (some : levels ≠ []) :
    checkedInit levels = .some levels.dropLast := by
  rw [checkedInit, if_neg fun none => some (List.length_eq_zero_iff.mp none),
    List.dropLast_eq_take]

/-- Along the way up from a leaf of a mountain nothing is out of range. -/
theorem checkedPath_of_mountain (leaves peaks : List Digest) (index peakIdx localIdx height : Nat)
    (mountain : IsMountainOf hasher leaves peaks index peakIdx localIdx height) :
    checkedPath hasher leaves index localIdx (2 ^ height) =
      some (path (hashPair hasher) (mountainLeaf hasher leaves (index - localIdx)) 0 localIdx
        height) := by
  have short : height ≤ 2 ^ height := Nat.le_of_lt Nat.lt_two_pow_self
  rw [checkedPath, if_pos mountain.starts, checkedLeaves_eq leaves _ _ mountain.fits,
    slice_eq_level hasher leaves _ _ mountain.fits]
  change (checkedLevels hasher _ _).bind _ = _
  rw [checkedLevels_level hasher _ 0 height _ short, Option.bind_some,
    checkedInit_eq _ (collectLevels_ne_nil hasher _ _)]
  exact checkedSiblings_levels hasher _ 0 height _ localIdx short mountain.inside

/-! ### The search and the peaks -/

theorem checkedFind_of_mountain (leaves : List Digest) (index : Nat)
    (inside : index < leaves.length) (found : Nat × Nat × Nat)
    (finds : (ofLeaves hasher leaves).findPeakForLeaf index = .ok found) :
    (ofLeaves hasher leaves).checkedFind index = some (.ok found) := by
  rw [findPeakForLeaf, ofLeaves_leaves, if_neg (Nat.not_le_of_lt inside)] at finds
  rw [checkedFind, ofLeaves_leaves, if_neg (Nat.not_le_of_lt inside),
    checkedFindFrom_eq _ _ _ _ _ (Nat.zero_le _) found finds]
  rfl

theorem checkedFind_outside (leaves : List Digest) (index : Nat)
    (outside : leaves.length ≤ index) :
    (ofLeaves hasher leaves).checkedFind index = some (.error (.indexOutOfBounds index)) := by
  rw [checkedFind, ofLeaves_leaves]
  exact if_pos outside

/-- The mountains of a range: as large as the powers of two in the number of its leaves, the largest
first, their tops the peaks, each leaf found in its own; with no access out of range, no chunk of
one and no search that runs out. -/
structure MountainsAgree (leaves : List Digest) : Prop where
  sizes : ((mountains leaves.length).map fun mountain => 2 ^ mountain.2) =
    leaves.length.bitIndices.reverse.map fun place => 2 ^ place
  descending : (mountains leaves.length).Pairwise fun first second => 2 ^ second.2 < 2 ^ first.2
  peaks : (ofLeaves hasher leaves).peaks = (mountains leaves.length).map fun mountain =>
    buildMerkleTree hasher leaves mountain.1 (2 ^ mountain.2)
  found : ∀ index < leaves.length, ∃ peakIdx localIdx height,
    (ofLeaves hasher leaves).findPeakForLeaf index = .ok (peakIdx, localIdx, 2 ^ height) ∧
      localIdx < 2 ^ height ∧ localIdx ≤ index ∧
      index - localIdx + 2 ^ height ≤ leaves.length ∧
      (mountains leaves.length)[peakIdx]? = some (index - localIdx, height) ∧
      (ofLeaves hasher leaves).peaks[peakIdx]? =
        some (buildMerkleTree hasher leaves (index - localIdx) (2 ^ height))
  builtInRange : checkedPeaks hasher leaves = some (ofLeaves hasher leaves).peaks
  foundInRange : ∀ index, (ofLeaves hasher leaves).checkedFind index =
    some ((ofLeaves hasher leaves).findPeakForLeaf index)
  provedInRange : ∀ index, (ofLeaves hasher leaves).checkedProof hasher index =
    some ((ofLeaves hasher leaves).proof hasher index)

theorem peaks_eq_trees (leaves : List Digest) :
    (ofLeaves hasher leaves).peaks = (mountains leaves.length).map fun mountain =>
      buildMerkleTree hasher leaves mountain.1 (2 ^ mountain.2) := by
  rw [(ofLeaves_spec hasher leaves).2, recomputePeaks_eq_map]
  refine List.map_congr_left fun mountain member => ?_
  rw [buildMerkleTree_eq hasher leaves _ _ (bounds_mountainsFrom _ _ _ _ member).2]
  rfl

/-- The search for a leaf and the building of the peaks cut every range into the same mountains. -/
theorem mountains_agree (leaves : List Digest) : MountainsAgree hasher leaves where
  sizes := by
    rw [← heights_mountains, List.map_map]
    rfl
  descending := (mountainsFrom_descending _ _ _).imp fun lower =>
    Nat.pow_lt_pow_right (by decide) lower
  peaks := peaks_eq_trees hasher leaves
  found index inside := by
    obtain ⟨mountain, member, holds⟩ :=
      mem_mountainsFrom leaves.length leaves.length 0 index (Nat.zero_le _) inside (by omega)
    obtain ⟨peakIdx, listed, search⟩ :=
      findPeakForLeaf_holds hasher leaves index mountain member holds
    obtain ⟨finds, here⟩ := search leaves rfl
    have start : index - (index - mountain.1) = mountain.1 := Nat.sub_sub_self holds.1
    refine ⟨peakIdx, index - mountain.1, mountain.2, finds, here.inside, here.starts, here.fits,
      ?_, ?_⟩
    · rw [start, listed]
    · rw [peaks_eq_trees, List.getElem?_map, listed, start]
      rfl
  builtInRange := by
    rw [checkedPeaks, checkedPeaksFrom_eq hasher leaves _ _ (by omega),
      (ofLeaves_spec hasher leaves).2]
    rfl
  foundInRange index := by
    rcases Nat.lt_or_ge index leaves.length with inside | outside
    · obtain ⟨_, _, _, finds, -⟩ := findPeakForLeaf_spec hasher leaves index inside
      rw [checkedFind_of_mountain hasher leaves index inside _ finds, finds]
    · rw [checkedFind_outside hasher leaves index outside,
        findPeakForLeaf_outside hasher leaves index outside]
  provedInRange index := by
    rcases Nat.lt_or_ge index leaves.length with inside | outside
    · obtain ⟨_, _, _, finds, mountain⟩ := findPeakForLeaf_spec hasher leaves index inside
      rw [proof_of_mountain hasher leaves index _ _ _ finds mountain, checkedProof,
        checkedFind_of_mountain hasher leaves index inside _ finds, ofLeaves_leaves]
      change (checkedPath hasher _ _ _ _).bind _ = _
      rw [checkedPath_of_mountain hasher leaves _ index _ _ _ mountain]
      rfl
    · rw [checkedProof, checkedFind_outside hasher leaves index outside,
        proof_outside hasher leaves index outside]
      rfl

end MerkleForest

end Hammurabi
