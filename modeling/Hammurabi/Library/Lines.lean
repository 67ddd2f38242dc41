/-
This file is about texts written one after the other, with a separator after each or
between them.

The writing forgets which separators ended a text and which stood inside one: two
lists of texts are written alike exactly when the pieces of their texts, cut at the
separators, are the same. Texts without a separator are pieces themselves, so among
these nothing is forgotten; and only they are the pieces of what is written of them.
-/

import Mathlib.Data.List.Basic

namespace Lines

variable {Symbol : Type} (separator : Symbol)

/-- Each text ended by the separator, one after the other. -/
def terminated (texts : List (List Symbol)) : List Symbol :=
  texts.flatMap fun text => text ++ [separator]

theorem terminated_cons (text : List Symbol) (rest : List (List Symbol)) :
    terminated separator (text :: rest) = text ++ separator :: terminated separator rest := by
  rw [terminated, List.flatMap_cons, List.append_assoc, List.singleton_append]
  rfl

variable [DecidableEq Symbol]

/-- The pieces of each text, cut at the separators. -/
def pieces (texts : List (List Symbol)) : List (List Symbol) :=
  texts.flatMap (List.splitOn separator)

theorem pieces_cons (text : List Symbol) (rest : List (List Symbol)) :
    pieces separator (text :: rest) = text.splitOn separator ++ pieces separator rest :=
  List.flatMap_cons

/-- Cutting what is written gives the pieces, and the empty one after the last separator. -/
theorem splitOn_terminated (texts : List (List Symbol)) :
    (terminated separator texts).splitOn separator = pieces separator texts ++ [[]] := by
  induction texts with
  | nil => exact List.splitOn_nil separator
  | cons text rest inductionHypothesis =>
    rw [terminated_cons, List.splitOn_append_cons_self, inductionHypothesis, pieces_cons,
      List.append_assoc]

/-- Two lists of texts are written alike exactly when they have the same pieces. -/
theorem terminated_eq_iff (first second : List (List Symbol)) :
    terminated separator first = terminated separator second ↔
      pieces separator first = pieces separator second := by
  constructor
  · intro same
    have cut := congrArg (List.splitOn separator) same
    rw [splitOn_terminated, splitOn_terminated] at cut
    exact List.append_cancel_right cut
  · intro same
    have cut : (terminated separator first).splitOn separator =
        (terminated separator second).splitOn separator := by
      rw [splitOn_terminated, splitOn_terminated, same]
    calc terminated separator first
        = [separator].intercalate ((terminated separator first).splitOn separator) :=
          (List.intercalate_splitOn separator).symm
      _ = [separator].intercalate ((terminated separator second).splitOn separator) := by rw [cut]
      _ = terminated separator second := List.intercalate_splitOn separator

/-! ### Separators between the texts -/

/-- A piece has no separator in it. -/
theorem notMem_of_mem_splitOn (text piece : List Symbol)
    (member : piece ∈ text.splitOn separator) : separator ∉ piece := by
  induction text generalizing piece with
  | nil =>
    rw [List.splitOn_nil, List.mem_singleton] at member
    rw [member]
    exact List.not_mem_nil
  | cons symbol rest inductionHypothesis =>
    obtain ⟨first, others, cut⟩ := List.exists_cons_of_ne_nil (List.splitOn_ne_nil separator rest)
    rw [cut] at inductionHypothesis
    rw [List.splitOn_cons_eq_if_modifyHead, cut] at member
    split at member
    · rcases List.mem_cons.mp member with rfl | later
      · exact List.not_mem_nil
      · exact inductionHypothesis piece later
    · next other =>
      rcases List.mem_cons.mp member with rfl | later
      · rw [List.mem_cons, not_or]
        refine ⟨fun same => other (beq_iff_eq.mpr same.symm), ?_⟩
        exact inductionHypothesis first List.mem_cons_self
      · exact inductionHypothesis piece (List.mem_cons_of_mem _ later)

/-- Texts with separators between them are its pieces exactly when they have none in them, and
there are any. -/
theorem splitOn_intercalate_eq_iff (texts : List (List Symbol)) :
    ([separator].intercalate texts).splitOn separator = texts ↔
      texts ≠ [] ∧ ∀ text ∈ texts, separator ∉ text := by
  constructor
  · intro cut
    refine ⟨fun none => ?_, fun text member => ?_⟩
    · exact List.splitOn_ne_nil separator _ (cut.trans none)
    · exact notMem_of_mem_splitOn separator _ text (cut.symm ▸ member)
  · exact fun both => List.splitOn_intercalate separator both.2 both.1

/-! ### Texts that are pieces -/

/-- Texts without a separator are their own pieces. -/
theorem pieces_of_not_mem (texts : List (List Symbol))
    (absent : ∀ text ∈ texts, separator ∉ text) : pieces separator texts = texts := by
  induction texts with
  | nil => rfl
  | cons text rest inductionHypothesis =>
    rw [pieces_cons, List.splitOn_eq_singleton (absent text List.mem_cons_self),
      inductionHypothesis fun other member => absent other (List.mem_cons_of_mem _ member)]
    rfl

end Lines
