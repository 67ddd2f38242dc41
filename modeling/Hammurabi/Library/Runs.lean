/-
This file is about the runs of a system that takes one step after another.

Two patterns recur. An invariant holds at the start and is kept by every step,
so it holds wherever a run arrives. And a fact about the present is a fact about
the past: something began, and nothing has ended it since.
-/

import Mathlib.Logic.Basic

namespace Runs

/-! ### Runs and invariants -/

section Run

variable {State Action : Type}

/-- A run of a system, with the actions it takes. -/
inductive Run (Step : State → Action → State → Prop) : State → List Action → State → Prop where
  | stop (state : State) : Run Step state [] state
  | step {start middle finish : State} {action : Action} {actions : List Action}
      (first : Step start action middle) (rest : Run Step middle actions finish) :
      Run Step start (action :: actions) finish

variable {Step : State → Action → State → Prop} {holds : State → Prop}

/-- What every step keeps, every run keeps. -/
theorem Run.kept (kept : ∀ before action after, Step before action after → holds before →
    holds after) {start finish : State} {actions : List Action}
    (run : Run Step start actions finish) (initial : holds start) : holds finish := by
  induction run with
  | stop state => exact initial
  | step first rest inductionHypothesis => exact inductionHypothesis (kept _ _ _ first initial)

/-- What the steps of allowed actions keep, every run with these actions only keeps. -/
theorem Run.kept_of_allowed {allowed : Action → Prop}
    (kept : ∀ before action after, Step before action after → allowed action → holds before →
      holds after) {start finish : State} {actions : List Action}
    (run : Run Step start actions finish) (each : ∀ action ∈ actions, allowed action)
    (initial : holds start) : holds finish := by
  induction run with
  | stop state => exact initial
  | step first rest inductionHypothesis =>
    refine inductionHypothesis (fun action member => each action (List.mem_cons_of_mem _ member)) ?_
    exact kept _ _ _ first (each _ List.mem_cons_self) initial

/-- One run after another. -/
theorem Run.append {start middle finish : State} {front back : List Action}
    (first : Run Step start front middle) (second : Run Step middle back finish) :
    Run Step start (front ++ back) finish := by
  induction first with
  | stop state => exact second
  | step step rest inductionHypothesis => exact .step step (inductionHypothesis second)

/-- A run of a system is a run of any system that has all its steps. -/
theorem Run.mono {Other : State → Action → State → Prop}
    (more : ∀ before action after, Step before action after → Other before action after)
    {start finish : State} {actions : List Action} (run : Run Step start actions finish) :
    Run Other start actions finish := by
  induction run with
  | stop state => exact .stop state
  | step first rest inductionHypothesis => exact .step (more _ _ _ first) inductionHypothesis

/-- Taking actions one after the other is a run. -/
theorem run_of_foldlM (step : State → Action → Option State) (actions : List Action)
    (start finish : State) (taken : actions.foldlM step start = some finish) :
    Run (fun before action after => step before action = some after) start actions finish := by
  induction actions generalizing start with
  | nil =>
    cases taken
    exact .stop _
  | cons action actions inductionHypothesis =>
    rw [List.foldlM_cons, Option.bind_eq_bind, Option.bind_eq_some_iff] at taken
    obtain ⟨middle, first, rest⟩ := taken
    exact .step first (inductionHypothesis middle rest)

end Run

/-! ### One part among others -/

section Parts

variable {Part : Type} {holds : Part → Prop}

/-- What holds of every part still does when one of them becomes another of which it holds. -/
theorem forall_mem_replaced (front back : List Part) (part next : Part)
    (each : ∀ other ∈ front ++ part :: back, holds other) (changed : holds next) :
    ∀ other ∈ front ++ next :: back, holds other := by
  obtain ⟨inFront, inRest⟩ := List.forall_mem_append.mp each
  exact List.forall_mem_append.mpr
    ⟨inFront, List.forall_mem_cons.mpr ⟨changed, (List.forall_mem_cons.mp inRest).2⟩⟩

/-- What holds of every part still does when one is added of which it holds. -/
theorem forall_mem_added (parts : List Part) (added : Part) (each : ∀ other ∈ parts, holds other)
    (new : holds added) : ∀ other ∈ parts ++ [added], holds other :=
  List.forall_mem_append.mpr ⟨each, List.forall_mem_singleton.mpr new⟩

end Parts

/-! ### What began and has not ended since -/

section Since

variable {Event : Type}

/-- Some event of the history begins it, and no later event ends it. -/
def Since (begins ends : Event → Prop) (history : List Event) : Prop :=
  ∃ before event after, history = before ++ event :: after ∧ begins event ∧
    ∀ later ∈ after, ¬ ends later

theorem not_since_nil (begins ends : Event → Prop) : ¬ Since begins ends [] := by
  rintro ⟨before, event, after, same, -⟩
  exact List.append_ne_nil_of_right_ne_nil before (List.cons_ne_nil event after) same.symm

/-- One more event either begins it, or fails to end what was under way. -/
theorem since_append_singleton (begins ends : Event → Prop) (history : List Event)
    (event : Event) :
    Since begins ends (history ++ [event]) ↔
      begins event ∨ (Since begins ends history ∧ ¬ ends event) := by
  constructor
  · rintro ⟨before, first, after, same, begun, unended⟩
    rcases List.eq_nil_or_concat after with rfl | ⟨initial, last, rfl⟩
    · obtain ⟨-, single⟩ := List.append_inj' same rfl
      obtain rfl := (List.cons.inj single).1
      exact .inl begun
    · rw [List.concat_eq_append] at same unended
      rw [← List.cons_append, ← List.append_assoc] at same
      obtain ⟨rfl, single⟩ := List.append_inj' same rfl
      obtain rfl := (List.cons.inj single).1
      refine .inr ⟨⟨before, first, initial, rfl, begun, ?_⟩, ?_⟩
      · exact fun later member => unended later (List.mem_append_left _ member)
      · exact unended event (List.mem_append_right _ List.mem_cons_self)
  · rintro (begun | ⟨⟨before, first, after, rfl, begun, unended⟩, open'⟩)
    · exact ⟨history, event, [], rfl, begun, fun later member => nomatch member⟩
    · refine ⟨before, first, after ++ [event], ?_, begun, ?_⟩
      · rw [List.append_assoc, List.cons_append]
      · intro later member
        rcases List.mem_append.mp member with inAfter | inLast
        · exact unended later inAfter
        · rw [List.mem_singleton.mp inLast]
          exact open'

/-- What began is an event of the history. -/
theorem Since.exists_begins {begins ends : Event → Prop} {history : List Event}
    (since : Since begins ends history) : ∃ event ∈ history, begins event := by
  obtain ⟨before, event, after, rfl, begun, -⟩ := since
  exact ⟨event, List.mem_append_right _ List.mem_cons_self, begun⟩

end Since

end Runs
