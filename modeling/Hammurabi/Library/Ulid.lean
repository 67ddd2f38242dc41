/-
This file is the textual form of a ULID: a 128-bit number as twenty-six
characters of the Crockford alphabet, most significant digit first.
-/

import Mathlib.Algebra.Ring.Nat
import Mathlib.Data.List.Basic

/-- A universally unique, lexicographically sortable identifier. -/
structure Ulid where
  value : Nat
  fits : value < 2 ^ 128
  deriving DecidableEq, Repr

namespace Ulid

/-- The identifier of all zeros. -/
protected def nil : Ulid := ⟨0, by decide⟩

/-- The Crockford alphabet: digits and capitals without I, L, O and U. -/
def alphabet : List Char := "0123456789ABCDEFGHJKMNPQRSTVWXYZ".toList

/-- The digit of a number modulo thirty-two. -/
def digit (number : Nat) : Char := alphabet.get ⟨number % 32, Nat.mod_lt _ (by decide)⟩

def toChars (ulid : Ulid) : List Char :=
  (List.range 26).map fun k => digit (ulid.value / 32 ^ (25 - k))

protected def toString (ulid : Ulid) : String := String.ofList ulid.toChars

theorem length_toChars (ulid : Ulid) : ulid.toChars.length = 26 := by
  rw [toChars, List.length_map, List.length_range]

/-- Every digit is a visible ASCII character, and needs no escape in any text. -/
theorem digit_bounds (number : Nat) :
    0x30 ≤ (digit number).toNat ∧ (digit number).toNat ≤ 0x5a := by
  have every : (alphabet.all fun c => 0x30 ≤ c.toNat ∧ c.toNat ≤ 0x5a) = true := by decide
  exact of_decide_eq_true (List.all_eq_true.mp every _ (List.get_mem _ _))

theorem toChars_bounds (ulid : Ulid) :
    ∀ c ∈ ulid.toChars, 0x30 ≤ c.toNat ∧ c.toNat ≤ 0x5a := by
  intro c member
  obtain ⟨k, -, rfl⟩ := List.mem_map.mp member
  exact digit_bounds _

end Ulid
