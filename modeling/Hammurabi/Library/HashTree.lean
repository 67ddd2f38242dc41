/-
This file is the perfect binary tree over a row of leaves, for an arbitrary way to
combine two nodes.

A node is named by its level above the leaves and its position in the level. A
climb takes a node and a list of siblings upward, and the parity of the position
says on which side each sibling sits. Along a node's own path the climb arrives at
the node above; and when combining is injective no other start and no other list
arrives there from that level. Only the low bits of the position matter to a climb,
one for each sibling, and a climb along a longer list is one climb after another.
-/

import Mathlib.Algebra.Ring.Nat
import Mathlib.Data.List.Basic
import Mathlib.Order.Basic
import Mathlib.Tactic.Ring

namespace HashTree

variable {Node : Type} (combine : Node → Node → Node)

/-! ### Nodes and paths -/

/-- The node at a level and a position, over a row of leaves. -/
def node (leaf : Nat → Node) : Nat → Nat → Node
  | 0, position => leaf position
  | level + 1, position =>
    combine (node leaf level (2 * position)) (node leaf level (2 * position + 1))

/-- The other child of the parent. -/
def sibling (position : Nat) : Nat := if position % 2 = 0 then position + 1 else position - 1

/-- The siblings met on the way up from a node, as many as asked for. -/
def path (leaf : Nat → Node) : Nat → Nat → Nat → List Node
  | _, _, 0 => []
  | level, position, height + 1 =>
    node combine leaf level (sibling position) :: path leaf (level + 1) (position / 2) height

/-- Combine a node with its sibling, on the side its position tells. -/
def join (position : Nat) (current other : Node) : Node :=
  if position % 2 = 0 then combine current other else combine other current

/-- Take a node upward along a list of siblings. -/
def climb : Node → Nat → List Node → Node
  | current, _, [] => current
  | current, position, other :: rest =>
    climb (join combine position current other) (position / 2) rest

@[simp] theorem length_path (leaf : Nat → Node) (level position height : Nat) :
    (path combine leaf level position height).length = height := by
  induction height generalizing level position with
  | zero => rfl
  | succ height inductionHypothesis => rw [path, List.length_cons, inductionHypothesis]

/-! ### Climbing along the own path -/

/-- A node joined with its sibling is the parent. -/
theorem join_sibling (leaf : Nat → Node) (level position : Nat) :
    join combine position (node combine leaf level position)
      (node combine leaf level (sibling position)) =
        node combine leaf (level + 1) (position / 2) := by
  rw [node, join, sibling]
  rcases Nat.mod_two_eq_zero_or_one position with even | odd
  · rw [if_pos even, if_pos even]
    have left : 2 * (position / 2) = position := by omega
    rw [left]
  · rw [if_neg (by omega), if_neg (by omega)]
    have left : 2 * (position / 2) = position - 1 := by omega
    have right : position - 1 + 1 = position := by omega
    rw [left, right]

/-- Along its own path a node arrives at the node above it. -/
theorem climb_path (leaf : Nat → Node) (level position height : Nat) :
    climb combine (node combine leaf level position) position
      (path combine leaf level position height) =
        node combine leaf (level + height) (position / 2 ^ height) := by
  induction height generalizing level position with
  | zero => rw [path, climb, Nat.add_zero, Nat.pow_zero, Nat.div_one]
  | succ height inductionHypothesis =>
    rw [path, climb, join_sibling, inductionHypothesis, Nat.div_div_eq_div_mul, Nat.pow_succ']
    congr 1
    omega

/-- A path that goes on further is one path after another. -/
theorem path_add (leaf : Nat → Node) (level position height more : Nat) :
    path combine leaf level position (height + more) =
      path combine leaf level position height ++
        path combine leaf (level + height) (position / 2 ^ height) more := by
  induction height generalizing level position with
  | zero => rw [Nat.zero_add, path, List.nil_append, Nat.add_zero, Nat.pow_zero, Nat.div_one]
  | succ height inductionHypothesis =>
    rw [Nat.succ_add, path, path, inductionHypothesis, List.cons_append, Nat.div_div_eq_div_mul,
      Nat.pow_succ', Nat.add_assoc level, Nat.add_comm 1]

/-! ### What a climb depends on -/

theorem climb_append (current : Node) (position : Nat) (front back : List Node) :
    climb combine current position (front ++ back) =
      climb combine (climb combine current position front) (position / 2 ^ front.length) back := by
  induction front generalizing current position with
  | nil => rw [List.nil_append, climb, List.length_nil, Nat.pow_zero, Nat.div_one]
  | cons other front inductionHypothesis =>
    rw [List.cons_append, climb, climb, inductionHypothesis, List.length_cons,
      Nat.div_div_eq_div_mul, Nat.pow_succ']

/-- A climb along some sibling ends in a combination. -/
theorem exists_climb_eq (current : Node) (position : Nat) (siblings : List Node)
    (some : siblings ≠ []) :
    ∃ first second, climb combine current position siblings = combine first second := by
  induction siblings generalizing current position with
  | nil => exact absurd rfl some
  | cons other rest inductionHypothesis =>
    rw [climb]
    by_cases last : rest = []
    · rw [last, climb, join]
      split
      · exact ⟨_, _, rfl⟩
      · exact ⟨_, _, rfl⟩
    · exact inductionHypothesis _ _ last

/-- Only the low bits of the position matter, one for each sibling. -/
theorem climb_congr (current : Node) (first second : Nat) (siblings : List Node)
    (same : first % 2 ^ siblings.length = second % 2 ^ siblings.length) :
    climb combine current first siblings = climb combine current second siblings := by
  induction siblings generalizing current first second with
  | nil => rfl
  | cons other rest inductionHypothesis =>
    rw [List.length_cons, Nat.pow_succ'] at same
    have low : first % 2 = second % 2 := by
      rw [← Nat.mod_mul_right_mod first 2 (2 ^ rest.length), same, Nat.mod_mul_right_mod]
    have high : first / 2 % 2 ^ rest.length = second / 2 % 2 ^ rest.length := by
      rw [← Nat.mod_mul_right_div_self, same, Nat.mod_mul_right_div_self]
    rw [climb, climb, join, join, low]
    exact inductionHypothesis _ _ _ high

/-! ### Climbing determines where it started -/

section Injective

variable {combine}

/-- Joining determines both nodes. -/
theorem join_injective (injective : Function.Injective2 combine) (position : Nat)
    (current other current' other' : Node)
    (same : join combine position current other = join combine position current' other') :
    current = current' ∧ other = other' := by
  rw [join, join] at same
  split at same
  · exact injective same
  · exact (injective same).symm

/-- From a level and a position, only the node there climbs to the node above, and only along its
own path. -/
theorem climb_eq_node_iff (injective : Function.Injective2 combine) (leaf : Nat → Node)
    (level position : Nat) (current : Node) (siblings : List Node) :
    climb combine current position siblings =
        node combine leaf (level + siblings.length) (position / 2 ^ siblings.length) ↔
      current = node combine leaf level position ∧
        siblings = path combine leaf level position siblings.length := by
  induction siblings generalizing level position current with
  | nil =>
    rw [climb, List.length_nil, Nat.add_zero, Nat.pow_zero, Nat.div_one, path]
    exact ⟨fun same => ⟨same, rfl⟩, fun both => both.1⟩
  | cons other rest inductionHypothesis =>
    have above := inductionHypothesis (level + 1) (position / 2)
      (join combine position current other)
    rw [Nat.div_div_eq_div_mul, ← Nat.pow_succ'] at above
    have levels : level + (rest.length + 1) = level + 1 + rest.length := by omega
    rw [climb, List.length_cons, levels, above, path, List.cons.injEq,
      ← join_sibling combine leaf level position]
    constructor
    · rintro ⟨joined, own⟩
      obtain ⟨here, beside⟩ := join_injective injective _ _ _ _ _ joined
      exact ⟨here, beside, own⟩
    · rintro ⟨rfl, rfl, own⟩
      exact ⟨rfl, own⟩

/-- A list shorter than the tree is high climbs to the top exactly from the node whose own path it
is: the one that many levels below the top, at the low bits of the position. -/
theorem climb_short_eq_top_iff (injective : Function.Injective2 combine) (leaf : Nat → Node)
    (height position : Nat) (current : Node) (siblings : List Node)
    (short : siblings.length ≤ height) :
    climb combine current position siblings = node combine leaf height 0 ↔
      current = node combine leaf (height - siblings.length) (position % 2 ^ siblings.length) ∧
        siblings = path combine leaf (height - siblings.length) (position % 2 ^ siblings.length)
          siblings.length := by
  have low : position % 2 ^ siblings.length < 2 ^ siblings.length :=
    Nat.mod_lt _ (Nat.two_pow_pos _)
  have determined := climb_eq_node_iff injective leaf (height - siblings.length)
    (position % 2 ^ siblings.length) current siblings
  rwa [Nat.div_eq_of_lt low, Nat.sub_add_cancel short,
    climb_congr combine current _ position siblings (Nat.mod_mod _ _)] at determined

/-- A list longer than the tree is high climbs to the top exactly when its end is the own path of a
leaf, and its front climbs to that leaf. -/
theorem climb_long_eq_top_iff (injective : Function.Injective2 combine) (leaf : Nat → Node)
    (height position : Nat) (current : Node) (front back : List Node)
    (long : back.length = height) (inside : position < 2 ^ height) :
    climb combine current position (front ++ back) = node combine leaf height 0 ↔
      climb combine current position front = leaf (position / 2 ^ front.length) ∧
        back = path combine leaf 0 (position / 2 ^ front.length) height := by
  have small : position / 2 ^ front.length < 2 ^ height :=
    Nat.lt_of_le_of_lt (Nat.div_le_self _ _) inside
  have determined := climb_eq_node_iff injective leaf 0 (position / 2 ^ front.length)
    (climb combine current position front) back
  rwa [long, Nat.div_eq_of_lt small, Nat.zero_add, ← climb_append, node] at determined

/-- A node is the node of another tree, a number of levels further down there, exactly when it
stands on that tree's leaves: each leaf below it is the node of the first tree at that place. -/
theorem node_eq_node_iff (injective : Function.Injective2 combine) (leaf leaf' : Nat → Node)
    (rise height position : Nat) :
    node combine leaf (rise + height) position = node combine leaf' height position ↔
      ∀ k < 2 ^ height,
        node combine leaf rise (position * 2 ^ height + k) = leaf' (position * 2 ^ height + k) := by
  induction height generalizing position with
  | zero => simp [node]
  | succ height inductionHypothesis =>
    have pairs : node combine leaf (rise + (height + 1)) position =
          node combine leaf' (height + 1) position ↔
        node combine leaf (rise + height) (2 * position) =
            node combine leaf' height (2 * position) ∧
          node combine leaf (rise + height) (2 * position + 1) =
            node combine leaf' height (2 * position + 1) := by
      rw [← Nat.add_assoc, node, node]
      exact injective.eq_iff
    have left : 2 * position * 2 ^ height = position * 2 ^ (height + 1) := by
      rw [Nat.pow_succ']
      ring
    have right : (2 * position + 1) * 2 ^ height = position * 2 ^ (height + 1) + 2 ^ height := by
      rw [Nat.succ_mul, left]
    have double : 2 ^ (height + 1) = 2 ^ height + 2 ^ height := by rw [Nat.pow_succ]; omega
    rw [pairs, inductionHypothesis, inductionHypothesis, left, right]
    constructor
    · rintro ⟨first, second⟩ k inside
      rcases Nat.lt_or_ge k (2 ^ height) with low | high
      · exact first k low
      · have there := second (k - 2 ^ height) (by omega)
        rwa [Nat.add_assoc, Nat.add_sub_cancel' high] at there
    · intro each
      refine ⟨fun k inside => each k (by omega), fun k inside => ?_⟩
      rw [Nat.add_assoc]
      exact each (2 ^ height + k) (by omega)

end Injective

/-! ### Levels as lists -/

/-- The next level up: neighbours combined in pairs, an odd one out carried over. -/
def nextLevel : List Node → List Node
  | first :: second :: rest => combine first second :: nextLevel rest
  | short => short

/-- A whole level, as a list. -/
def level (leaf : Nat → Node) (height width : Nat) : List Node :=
  (List.range width).map (node combine leaf height)

@[simp] theorem length_level (leaf : Nat → Node) (height width : Nat) :
    (level combine leaf height width).length = width := by
  rw [level, List.length_map, List.length_range]

/-- Pairing up the nodes of a level gives the level above. -/
theorem nextLevel_map (f : Nat → Node) (width : Nat) :
    nextLevel combine ((List.range (2 * width)).map f) =
      (List.range width).map fun position => combine (f (2 * position)) (f (2 * position + 1)) := by
  induction width generalizing f with
  | zero => rfl
  | succ width inductionHypothesis =>
    have double : 2 * (width + 1) = 2 * width + 1 + 1 := by omega
    rw [double, List.range_succ_eq_map, List.range_succ_eq_map, List.range_succ_eq_map]
    simp only [List.map_cons, List.map_map, Function.comp_def, nextLevel]
    congr 1
    exact inductionHypothesis fun position => f (position + 1 + 1)

theorem nextLevel_level (leaf : Nat → Node) (height width : Nat) :
    nextLevel combine (level combine leaf height (2 * width)) =
      level combine leaf (height + 1) width :=
  nextLevel_map combine (node combine leaf height) width

theorem getElem?_level (leaf : Nat → Node) (height width position : Nat)
    (inside : position < width) :
    (level combine leaf height width)[position]? = some (node combine leaf height position) := by
  rw [level, List.getElem?_map, List.getElem?_range inside, Option.map_some]

end HashTree
