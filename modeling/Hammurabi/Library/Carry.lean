/-
This file is the incremental accumulator of perfect trees.

It keeps the tops of perfect trees with their heights, the last one first. A new leaf is
pushed as a tree of height zero, and as long as the last two trees are of one height
they are combined into a tree one higher, as a carry runs through a binary counter. What
is kept is then a stack of trees side by side over the leaves, of heights that grow
strictly from the last to the first.
-/

import Mathlib.Data.List.Induction
import Hammurabi.Library.HashTree

namespace HashTree

variable {Node : Type} (combine : Node → Node → Node)

/-! ### Pushing a leaf -/

/-- Put a tree after the others, and combine the last two as long as they are of one height. -/
def carry (height : Nat) (top : Node) : List (Nat × Node) → List (Nat × Node)
  | [] => [(height, top)]
  | (height', left) :: rest =>
    if height' = height then carry (height + 1) (combine left top) rest
    else (height, top) :: (height', left) :: rest

/-- Append a leaf. -/
def push (stack : List (Nat × Node)) (leaf : Node) : List (Nat × Node) := carry combine 0 leaf stack

/-- Append leaves one after the other. -/
def accumulate (leaves : List Node) : List (Nat × Node) := leaves.foldl (push combine) []

/-- A carry combines the last trees with the new one, from the last to the first, and leaves the
others as they are. -/
theorem exists_carry_eq (height : Nat) (top : Node) (stack : List (Nat × Node)) :
    ∃ merged kept, stack = merged ++ kept ∧ carry combine height top stack =
      (height + merged.length, merged.foldl (fun top tree => combine tree.2 top) top) :: kept := by
  induction stack generalizing height top with
  | nil => exact ⟨[], [], rfl, rfl⟩
  | cons tree rest inductionHypothesis =>
    rw [carry]
    split
    · obtain ⟨merged, kept, split, carried⟩ :=
        inductionHypothesis (height + 1) (combine tree.2 top)
      refine ⟨tree :: merged, kept, congrArg (tree :: ·) split, ?_⟩
      rw [carried, List.length_cons, List.foldl_cons, Nat.add_assoc, Nat.add_comm 1]
    · exact ⟨[], tree :: rest, rfl, rfl⟩

/-! ### Trees side by side -/

/-- Two rows that agree below a node have the same node. -/
theorem node_congr (first second : Nat → Node) (height position position' : Nat)
    (same : ∀ k < 2 ^ height,
      first (position * 2 ^ height + k) = second (position' * 2 ^ height + k)) :
    node combine first height position = node combine second height position' := by
  induction height generalizing position position' with
  | zero => simpa [node] using same
  | succ height inductionHypothesis =>
    have double : 2 ^ (height + 1) = 2 ^ height + 2 ^ height := by rw [Nat.pow_succ]; omega
    have left : ∀ position, 2 * position * 2 ^ height = position * 2 ^ (height + 1) := by
      intro position
      rw [Nat.pow_succ']
      ring
    have right : ∀ position,
        (2 * position + 1) * 2 ^ height = position * 2 ^ (height + 1) + 2 ^ height := by
      intro position
      rw [Nat.succ_mul, left]
    rw [node, node]
    congr 1
    · refine inductionHypothesis _ _ fun k inside => ?_
      rw [left, left]
      exact same k (by omega)
    · refine inductionHypothesis _ _ fun k inside => ?_
      rw [right, right, Nat.add_assoc, Nat.add_assoc]
      exact same (2 ^ height + k) (by omega)

theorem sibling_add (block position : Nat) :
    sibling (2 * block + position) = 2 * block + sibling position := by
  rw [sibling, sibling, Nat.mul_add_mod]
  split
  · rfl
  · omega

/-- A path inside a block of leaves is the same in any row that has the block, at the place where it
has it. -/
theorem path_congr (first second : Nat → Node) (level position height block : Nat)
    (inside : position < 2 ^ height)
    (same : ∀ k < 2 ^ (level + height), first k = second (block * 2 ^ (level + height) + k)) :
    path combine first level position height =
      path combine second level (block * 2 ^ height + position) height := by
  induction height generalizing level position with
  | zero => rfl
  | succ height inductionHypothesis =>
    have double : block * 2 ^ (height + 1) = 2 * (block * 2 ^ height) := by
      rw [Nat.pow_succ']
      ring
    rw [path, path, double, sibling_add, Nat.mul_add_div Nat.two_pos]
    congr 1
    · refine node_congr combine _ _ level _ _ fun k below => ?_
      have beside : sibling position < 2 ^ (height + 1) := by
        rw [sibling]
        rw [Nat.pow_succ'] at inside ⊢
        split
        · omega
        · omega
      have fits : sibling position * 2 ^ level + k < 2 ^ (level + (height + 1)) := by
        calc sibling position * 2 ^ level + k
            < (sibling position + 1) * 2 ^ level := by rw [Nat.succ_mul]; omega
          _ ≤ 2 ^ (height + 1) * 2 ^ level := Nat.mul_le_mul_right _ beside
          _ = 2 ^ (level + (height + 1)) := by rw [← Nat.pow_add, Nat.add_comm]
      rw [same _ fits]
      congr 1
      rw [← double, Nat.pow_add]
      ring
    · refine inductionHypothesis (level + 1) (position / 2) ?_ fun k below => ?_
      · rw [Nat.pow_succ'] at inside
        omega
      · rw [show level + 1 + height = level + (height + 1) by omega] at below ⊢
        exact same k below

variable (leaf : Nat → Node)

/-- The top of the tree over the leaves from `start` on. -/
def topFrom (start height : Nat) : Node := node combine (fun k => leaf (start + k)) height 0

/-- Two neighbouring trees of one height combine into the tree over both. -/
theorem topFrom_succ (start height : Nat) :
    topFrom combine leaf start (height + 1) =
      combine (topFrom combine leaf start height)
        (topFrom combine leaf (start + 2 ^ height) height) := by
  rw [topFrom, node, topFrom]
  congr 1
  refine node_congr combine _ _ height _ _ fun k _ => ?_
  congr 1
  omega

/-- A stack holds the trees over the first leaves, side by side, the last one first, and each lower
than those before it. -/
def Stacked : Nat → List (Nat × Node) → Prop
  | count, [] => count = 0
  | count, (height, top) :: rest =>
    ∃ start, start + 2 ^ height = count ∧ top = topFrom combine leaf start height ∧
      (∀ tree ∈ rest, height < tree.1) ∧ Stacked start rest

/-- Putting a tree, no higher than the others, behind a stack gives a stack. -/
theorem stacked_carry (start height : Nat) (rest : List (Nat × Node))
    (stacked : Stacked combine leaf start rest) (low : ∀ tree ∈ rest, height ≤ tree.1) :
    Stacked combine leaf (start + 2 ^ height)
      (carry combine height (topFrom combine leaf start height) rest) := by
  induction rest generalizing start height with
  | nil => exact ⟨start, rfl, rfl, fun tree none => absurd none List.not_mem_nil, stacked⟩
  | cons tree rest inductionHypothesis =>
    obtain ⟨height', left⟩ := tree
    rw [carry]
    by_cases same : height' = height
    · obtain rfl := same
      obtain ⟨before, rfl, rfl, above, below⟩ := stacked
      have joined := inductionHypothesis before (height' + 1) below above
      rw [topFrom_succ] at joined
      rw [if_pos rfl, Nat.add_assoc, ← Nat.two_mul, ← Nat.pow_succ']
      exact joined
    · have lower : height < height' :=
        Nat.lt_of_le_of_ne (low _ List.mem_cons_self) (Ne.symm same)
      rw [if_neg same]
      refine ⟨start, rfl, rfl, fun tree member => ?_, stacked⟩
      rcases List.mem_cons.mp member with rfl | later
      · exact lower
      · obtain ⟨-, -, -, above, -⟩ := stacked
        exact Nat.lt_trans lower (above tree later)

theorem stacked_push (count : Nat) (stack : List (Nat × Node))
    (stacked : Stacked combine leaf count stack) :
    Stacked combine leaf (count + 1) (push combine stack (leaf count)) :=
  stacked_carry combine leaf count 0 stack stacked fun tree _ => Nat.zero_le tree.1

/-- Appending leaves one after the other gives the stack over them. -/
theorem stacked_accumulate (leaves : List Node)
    (row : ∀ index, (inside : index < leaves.length) → leaf index = leaves[index]) :
    Stacked combine leaf leaves.length (accumulate combine leaves) := by
  induction leaves using List.reverseRecOn with
  | nil => rfl
  | append_singleton leaves last inductionHypothesis =>
    have before := inductionHypothesis fun index inside => by
      rw [row index (by rw [List.length_append]; omega), List.getElem_append_left inside]
    have here : leaf leaves.length = last := by
      rw [row leaves.length (by simp), List.getElem_concat_length rfl]
    have after := stacked_push combine leaf leaves.length _ before
    rw [here] at after
    rw [accumulate, List.foldl_append, List.length_append]
    exact after

end HashTree
