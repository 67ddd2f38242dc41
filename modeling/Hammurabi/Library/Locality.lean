/-
This file is about machines whose actions each name a key, and whose states have a part for
each key.

An action is local if it changes only the part of the key it names, and if its answer and
what it makes of that part rest on that part alone. For each key a run is then the run of
the actions that name it: neither the part nor the answers tell what else was done, or
where it stood among them. Runs that agree in each key's actions give the same answers.
-/

import Mathlib.Data.List.Perm.Basic

namespace Locality

section Machine

variable {State Action Key Part Answer : Type}
variable (step : State → Action → Answer × State) (named : Action → Key)
  (part : Key → State → Part)

/-- Every action changes only the part of the key it names, by that part alone. -/
structure Local : Prop where
  frame : ∀ state action key, key ≠ named action → part key (step state action).2 = part key state
  own : ∀ first second action, part (named action) first = part (named action) second →
    (step first action).1 = (step second action).1 ∧
      part (named action) (step first action).2 = part (named action) (step second action).2

/-- The state that a sequence of actions leads to. -/
def after (state : State) (actions : List Action) : State :=
  actions.foldl (fun before action => (step before action).2) state

/-- The actions of a sequence, each with its answer. -/
def transcript : State → List Action → List (Action × Answer)
  | _, [] => []
  | state, action :: actions =>
    (action, (step state action).1) :: transcript (step state action).2 actions

variable [DecidableEq Key]

/-- The actions that name a key. -/
def naming (key : Key) (actions : List Action) : List Action :=
  actions.filter fun action => named action = key

/-- The answers to the actions that name a key. -/
def answers (key : Key) (state : State) (actions : List Action) : List (Action × Answer) :=
  (transcript step state actions).filter fun entry => named entry.1 = key

variable {step named part}

/-- For each key a run is the run of the actions that name it, from any state with the same
part. -/
theorem Local.alone (isLocal : Local step named part) (key : Key) (actions : List Action)
    (first second : State) (same : part key first = part key second) :
    part key (after step first actions) = part key (after step second (naming named key actions)) ∧
      answers step named key first actions =
        transcript step second (naming named key actions) := by
  induction actions generalizing first second with
  | nil => exact ⟨same, rfl⟩
  | cons action actions inductionHypothesis =>
    by_cases names : named action = key
    · -- the action is taken on both sides
      subst names
      have kept : naming named (named action) (action :: actions) =
          action :: naming named (named action) actions :=
        List.filter_cons_of_pos (decide_eq_true rfl)
      obtain ⟨answered, parts⟩ := isLocal.own first second action same
      obtain ⟨left, listed⟩ := inductionHypothesis _ _ parts
      rw [kept]
      refine ⟨left, ?_⟩
      rw [answers, transcript, List.filter_cons, if_pos (decide_eq_true rfl), transcript, answered]
      exact congrArg _ listed
    · -- the action is taken on the one side only, and leaves the part alone
      have dropped : naming named key (action :: actions) = naming named key actions :=
        List.filter_cons_of_neg (by simpa using names)
      have parts : part key (step first action).2 = part key second :=
        (isLocal.frame first action key (Ne.symm names)).trans same
      obtain ⟨left, listed⟩ := inductionHypothesis _ _ parts
      rw [dropped]
      refine ⟨left, ?_⟩
      rw [answers, transcript, List.filter_cons, if_neg (by simpa using names)]
      exact listed

/-- Lists that agree at each key are the same up to order. -/
theorem perm_of_filter_eq {Entry : Type} (keyOf : Entry → Key) (first second : List Entry)
    (same : ∀ key, first.filter (fun entry => keyOf entry = key) =
      second.filter fun entry => keyOf entry = key) : first.Perm second := by
  classical
  refine List.perm_iff_count.mpr fun entry => ?_
  have counted : ∀ entries : List Entry,
      (entries.filter fun other => keyOf other = keyOf entry).count entry = entries.count entry :=
    fun entries => List.count_filter (decide_eq_true rfl)
  rw [← counted first, ← counted second, same]

/-- Runs from one state that agree in each key's actions give the same answers, and leave the same
parts. -/
theorem Local.reordered (isLocal : Local step named part) (state : State)
    (first second : List Action)
    (same : ∀ key, naming named key first = naming named key second) :
    (∀ key, part key (after step state first) = part key (after step state second)) ∧
      (∀ key, answers step named key state first = answers step named key state second) ∧
        (transcript step state first).Perm (transcript step state second) := by
  have each : ∀ key, answers step named key state first = answers step named key state second := by
    intro key
    rw [(isLocal.alone key first state state rfl).2, same,
      ← (isLocal.alone key second state state rfl).2]
  refine ⟨fun key => ?_, each,
    perm_of_filter_eq (fun entry : Action × Answer => named entry.1) _ _ each⟩
  rw [(isLocal.alone key first state state rfl).1, same,
    ← (isLocal.alone key second state state rfl).1]

end Machine

end Locality
