/-
This file says when a fallible computation succeeds: a sequence when each of its
parts does, a guarded one when the guard does not fire.
-/

import Mathlib.Logic.Basic

namespace Outcome

variable {Error Failure Content Next : Type}

theorem bind_eq_ok (first : Except Error Content) (next : Content → Except Error Next)
    (result : Next) :
    first >>= next = .ok result ↔ ∃ content, first = .ok content ∧ next content = .ok result := by
  cases first with
  | error failure =>
    constructor
    · intro same
      cases same
    · rintro ⟨content, same, -⟩
      cases same
  | ok content =>
    constructor
    · exact fun same => ⟨content, rfl, same⟩
    · rintro ⟨other, same, succeeds⟩
      rwa [Except.ok.inj same]

theorem mapError_eq_ok (rename : Error → Failure) (first : Except Error Content)
    (content : Content) : first.mapError rename = .ok content ↔ first = .ok content := by
  cases first with
  | error failure =>
    constructor
    · intro succeeds
      cases succeeds
    · intro succeeds
      cases succeeds
  | ok other =>
    constructor
    · intro succeeds
      rw [Except.ok.inj succeeds]
    · intro succeeds
      rw [Except.ok.inj succeeds]
      rfl

/-- A computation that fails first when a condition holds. -/
theorem guard_eq_ok (fires : Prop) [Decidable fires] (failure : Error)
    (after : Content → Except Error Next) (rest : Except Error Next) (result : Next) :
    (if fires then throw failure >>= after else rest) = .ok result ↔
      ¬ fires ∧ rest = .ok result := by
  by_cases condition : fires
  · rw [if_pos condition]
    exact ⟨fun same => (by cases same), fun both => absurd condition both.1⟩
  · rw [if_neg condition]
    exact ⟨fun same => ⟨condition, same⟩, fun both => both.2⟩

theorem isOk_iff (first : Except Error Unit) : first.isOk = true ↔ first = .ok () := by
  cases first with
  | error failure => simp only [Except.isOk, Except.toBool, Bool.false_eq_true, reduceCtorEq]
  | ok content => simp only [Except.isOk, Except.toBool]

end Outcome
