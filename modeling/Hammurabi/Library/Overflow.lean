/-
This file is signed 64-bit addition and subtraction under the two build profiles.

The release profile wraps around. The debug profile, which the tests run under, aborts
when the exact result is no 64-bit integer. Where the exact result is one, both
profiles agree and the machine integer is exact.
-/

import Mathlib.Algebra.Ring.Int.Defs
import Mathlib.Algebra.Ring.Nat
import Hammurabi.Library.Outcome

namespace Overflow

/-- How a program is built. -/
inductive Profile where
  | debug
  | release
  deriving DecidableEq, Repr

/-- An integer that is a signed 64-bit one. -/
def Fits (exact : Int) : Prop := -2 ^ 63 ≤ exact ∧ exact < 2 ^ 63

instance : DecidablePred Fits := fun exact =>
  inferInstanceAs (Decidable (-2 ^ 63 ≤ exact ∧ exact < 2 ^ 63))

namespace Profile

/-- What a machine operation comes to, if it does not abort. -/
def outcome (profile : Profile) (exact : Int) (wrapped : Int64) : Option Int64 :=
  match profile with
  | .debug => if Fits exact then some wrapped else none
  | .release => some wrapped

/-- An operation with this exact result does not abort. -/
def Allows (profile : Profile) (exact : Int) : Prop := profile = .release ∨ Fits exact

/-- The sum, if it does not abort. -/
def add (profile : Profile) (first second : Int64) : Option Int64 :=
  profile.outcome (first.toInt + second.toInt) (first + second)

/-- The difference, if it does not abort. -/
def sub (profile : Profile) (first second : Int64) : Option Int64 :=
  profile.outcome (first.toInt - second.toInt) (first - second)

instance (profile : Profile) : DecidablePred profile.Allows := fun exact =>
  inferInstanceAs (Decidable (profile = .release ∨ Fits exact))

theorem outcome_eq (profile : Profile) (exact : Int) (wrapped : Int64) :
    profile.outcome exact wrapped = if profile.Allows exact then some wrapped else none := by
  cases profile with
  | debug => simp only [outcome, Allows, reduceCtorEq, false_or]
  | release => simp only [outcome, Allows, true_or, if_true]

theorem add_eq (profile : Profile) (first second : Int64) :
    profile.add first second =
      if profile.Allows (first.toInt + second.toInt) then some (first + second) else none :=
  outcome_eq profile _ _

theorem sub_eq (profile : Profile) (first second : Int64) :
    profile.sub first second =
      if profile.Allows (first.toInt - second.toInt) then some (first - second) else none :=
  outcome_eq profile _ _

end Profile

/-! ### Computations that may abort -/

section Arriving

variable {Error Content Next : Type}

/-- Something arrives at one value where a condition holds, and aborts elsewhere. -/
theorem eq_some_iff_of_cases {holds : Prop} {reached : Option Content} {value : Content}
    (arrives : holds → reached = some value) (aborts : ¬ holds → reached = none)
    (result : Content) : reached = some result ↔ holds ∧ result = value := by
  by_cases condition : holds
  · rw [arrives condition, Option.some.injEq]
    exact ⟨fun same => ⟨condition, same.symm⟩, fun both => both.2.symm⟩
  · rw [aborts condition]
    exact ⟨fun same => (by cases same), fun both => absurd both.1 condition⟩

/-- A fallible computation that does not abort, followed by one that does not. -/
theorem arrives_bind {first : Except Error Content} {next : Content → ExceptT Error Option Next}
    {next' : Content → Except Error Next}
    (each : ∀ content, first = .ok content → next content = ExceptT.mk (some (next' content))) :
    (liftM first >>= next : ExceptT Error Option Next) = ExceptT.mk (some (first >>= next')) := by
  cases first with
  | error failure => rfl
  | ok content => exact each content rfl

/-- A guarded one: where the condition holds it fails, and does not abort. -/
theorem arrives_guard {fires : Prop} [Decidable fires] {failure : Error}
    {after : Content → ExceptT Error Option Next} {after' : Content → Except Error Next}
    {rest : ExceptT Error Option Next} {rest' : Except Error Next}
    (same : ¬ fires → rest = ExceptT.mk (some rest')) :
    (if fires then throw failure >>= after else rest) =
      ExceptT.mk (some (if fires then throw failure >>= after' else rest')) := by
  by_cases condition : fires
  · rw [if_pos condition, if_pos condition]
    rfl
  · rw [if_neg condition, if_neg condition, same condition]

end Arriving

/-! ### Exact results -/

/-- A sum that fits is exact. -/
theorem toInt_add_of_fits (first second : Int64) (fits : Fits (first.toInt + second.toInt)) :
    (first + second).toInt = first.toInt + second.toInt := by
  rw [Int64.toInt_add]
  exact Int.bmod_eq_of_le (by have := fits.1; omega) (by have := fits.2; omega)

/-- A sum with a positive number that does not fit wraps to a smaller one. -/
theorem toInt_add_of_not_fits (first second : Int64) (positive : 0 < second.toInt)
    (overflows : ¬ Fits (first.toInt + second.toInt)) :
    (first + second).toInt = first.toInt + second.toInt - 2 ^ 64 := by
  have lowFirst := Int64.le_toInt first
  have highFirst := Int64.toInt_lt first
  have highSecond := Int64.toInt_lt second
  have above : 2 ^ 63 ≤ first.toInt + second.toInt := by
    by_contra below
    exact overflows ⟨by omega, by omega⟩
  rw [Int64.toInt_add, ← Int.sub_bmod_right]
  exact Int.bmod_eq_of_le (by omega) (by omega)

end Overflow
