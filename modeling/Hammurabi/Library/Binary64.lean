/-
This file is the nearest double of a natural number and the shortest decimal that
stands for a double, in exact integer arithmetic.

A double has 53 significant bits, so a longer number is rounded at the weight its
53rd bit has, a half to the even neighbour. Rounding is monotone and does nothing
twice. A decimal stands for a double when it rounds to it; the shortest one ends in
as many zeros as any decimal that stands for it, and of those it is the nearest.
By monotonicity it is enough to look at the two multiples around the double.
-/

import Mathlib.Algebra.Ring.Nat
import Mathlib.Algebra.Order.Ring.Nat

namespace Binary64

/-! ### Rounding -/

/-- A number over a unit, rounded to a whole number, a half to the even one. -/
def roundHalfEven (n unit : Nat) : Nat :=
  if 2 * (n % unit) < unit ∨ (2 * (n % unit) = unit ∧ n / unit % 2 = 0) then n / unit
  else n / unit + 1

/-- The weight of the last of the 53 significant bits of a number. -/
def lastPlace (n : Nat) : Nat := 2 ^ (n.log2 - 52)

/-- The double nearest to a natural number. -/
def nearest (n : Nat) : Nat := roundHalfEven n (lastPlace n) * lastPlace n

theorem roundHalfEven_of_dvd (n unit : Nat) (positive : 0 < unit) (divides : unit ∣ n) :
    roundHalfEven n unit = n / unit := by
  rw [roundHalfEven, Nat.mod_eq_zero_of_dvd divides, if_pos (Or.inl (by omega))]

theorem roundHalfEven_mono (unit : Nat) {a b : Nat} (le : a ≤ b) :
    roundHalfEven a unit ≤ roundHalfEven b unit := by
  have quotients : a / unit ≤ b / unit := Nat.div_le_div_right le
  have above : roundHalfEven a unit ≤ a / unit + 1 := by
    rw [roundHalfEven]
    split <;> omega
  have below : b / unit ≤ roundHalfEven b unit := by
    rw [roundHalfEven]
    split <;> omega
  rcases Nat.lt_or_ge (a / unit) (b / unit) with less | same
  · omega
  · have equal : a / unit = b / unit := Nat.le_antisymm quotients same
    have splitA := Nat.div_add_mod a unit
    have splitB := Nat.div_add_mod b unit
    rw [equal] at splitA
    have remainders : a % unit ≤ b % unit := by omega
    rw [roundHalfEven, roundHalfEven, equal]
    split <;> split <;> omega

theorem lastPlace_pos (n : Nat) : 0 < lastPlace n := Nat.two_pow_pos _

/-- A multiple of its last place is a double. -/
theorem nearest_of_dvd (n : Nat) (divides : lastPlace n ∣ n) : nearest n = n := by
  rw [nearest, roundHalfEven_of_dvd n _ (lastPlace_pos n) divides, Nat.div_mul_cancel divides]

/-- Every whole number up to `2 ^ 53` is a double. -/
theorem nearest_of_le (n : Nat) (small : n ≤ 2 ^ 53) : nearest n = n := by
  apply nearest_of_dvd
  rcases Nat.lt_or_ge n (2 ^ 53) with less | large
  · rcases Nat.eq_zero_or_pos n with rfl | positive
    · exact Nat.dvd_zero _
    · have short := (Nat.log2_lt (k := 53) (by omega)).mpr less
      have one : n.log2 - 52 = 0 := by omega
      rw [lastPlace, one]
      exact Nat.one_dvd n
  · have equal : n = 2 ^ 53 := Nat.le_antisymm small large
    rw [equal]
    decide

theorem two_pow_log2_le_nearest (n : Nat) (some : n ≠ 0) : 2 ^ n.log2 ≤ nearest n := by
  have lower := Nat.log2_self_le some
  have divides : lastPlace n ∣ 2 ^ n.log2 := Nat.pow_dvd_pow 2 (Nat.sub_le _ _)
  have rounded := roundHalfEven_mono (lastPlace n) lower
  rw [roundHalfEven_of_dvd _ _ (lastPlace_pos n) divides] at rounded
  calc 2 ^ n.log2 = 2 ^ n.log2 / lastPlace n * lastPlace n := (Nat.div_mul_cancel divides).symm
    _ ≤ roundHalfEven n (lastPlace n) * lastPlace n := Nat.mul_le_mul_right _ rounded

theorem nearest_le_two_pow (n : Nat) : nearest n ≤ 2 ^ (n.log2 + 1) := by
  have upper : n ≤ 2 ^ (n.log2 + 1) := Nat.le_of_lt Nat.lt_log2_self
  have divides : lastPlace n ∣ 2 ^ (n.log2 + 1) := Nat.pow_dvd_pow 2 (by omega)
  have rounded := roundHalfEven_mono (lastPlace n) upper
  rw [roundHalfEven_of_dvd _ _ (lastPlace_pos n) divides] at rounded
  calc roundHalfEven n (lastPlace n) * lastPlace n
      ≤ 2 ^ (n.log2 + 1) / lastPlace n * lastPlace n := Nat.mul_le_mul_right _ rounded
    _ = 2 ^ (n.log2 + 1) := Nat.div_mul_cancel divides

/-- Rounding keeps the order. -/
theorem nearest_mono {a b : Nat} (le : a ≤ b) : nearest a ≤ nearest b := by
  rcases Nat.eq_zero_or_pos a with rfl | positive
  · rw [nearest_of_le 0 (Nat.zero_le _)]
    exact Nat.zero_le _
  · have lengths : a.log2 ≤ b.log2 :=
      (Nat.le_log2 (by omega)).mpr ((Nat.log2_self_le (by omega)).trans le)
    rcases Nat.lt_or_ge a.log2 b.log2 with shorter | same
    · calc nearest a ≤ 2 ^ (a.log2 + 1) := nearest_le_two_pow a
        _ ≤ 2 ^ b.log2 := Nat.pow_le_pow_right (by decide) shorter
        _ ≤ nearest b := two_pow_log2_le_nearest b (by omega)
    · have places : lastPlace a = lastPlace b := by
        rw [lastPlace, lastPlace, Nat.le_antisymm lengths same]
      rw [nearest, nearest, places]
      exact Nat.mul_le_mul_right _ (roundHalfEven_mono _ le)

/-- A double is its own nearest double. -/
theorem nearest_nearest (n : Nat) : nearest (nearest n) = nearest n := by
  rcases Nat.eq_zero_or_pos n with rfl | positive
  · rw [nearest_of_le 0 (Nat.zero_le _), nearest_of_le 0 (Nat.zero_le _)]
  · apply nearest_of_dvd
    have lower := two_pow_log2_le_nearest n (by omega)
    have upper := nearest_le_two_pow n
    have some : nearest n ≠ 0 := by
      have power := Nat.two_pow_pos n.log2
      omega
    rcases Nat.lt_or_ge (nearest n) (2 ^ (n.log2 + 1)) with less | carried
    · have length : (nearest n).log2 = n.log2 := (Nat.log2_eq_iff some).mpr ⟨lower, less⟩
      rw [lastPlace, length]
      exact Nat.dvd_mul_left _ _
    -- rounding up to the next power of two makes the number one bit longer
    · have power : nearest n = 2 ^ (n.log2 + 1) := Nat.le_antisymm upper carried
      rw [power, lastPlace, Nat.log2_two_pow]
      exact Nat.pow_dvd_pow 2 (Nat.sub_le _ _)

/-! ### The shortest decimal -/

/-- The multiple of a scale that stands for a double: of the two around it the one that rounds back,
and if both do, the nearer one, the even one on a tie. -/
def decimalAt (double scale : Nat) : Option Nat :=
  let below := double / scale
  if nearest (below * scale) = double then
    if nearest ((below + 1) * scale) = double then some (roundHalfEven double scale * scale)
    else some (below * scale)
  else if nearest ((below + 1) * scale) = double then some ((below + 1) * scale)
  else none

/-- The decimal with the most final zeros that stands for a double, among those with at most as many
as given. -/
def shortestFrom (double : Nat) : Nat → Nat
  | 0 => double
  | zeros + 1 => (decimalAt double (10 ^ (zeros + 1))).getD (shortestFrom double zeros)

/-- The shortest decimal that stands for a double. It has fewer zeros than the double has bits. -/
def shortest (double : Nat) : Nat := shortestFrom double double.log2

/-- How far two numbers are apart. -/
def gap (a b : Nat) : Nat := (a - b) + (b - a)

/-- Of two multiples of a scale the first is nearer to a number, or as near and even. -/
def Nearer (scale number first second : Nat) : Prop :=
  gap first number < gap second number ∨
    (gap first number = gap second number ∧ first / scale % 2 = 0)

/-- A decimal that ends in some zeros is the shortest that stands for a double: no decimal with more
zeros does, and of those with as many it is the nearest, the one with an even last digit on a
tie. -/
structure IsShortest (double decimal zeros : Nat) : Prop where
  ends : 10 ^ zeros ∣ decimal
  back : nearest decimal = double
  most : ∀ other, 10 ^ (zeros + 1) ∣ other → nearest other ≠ double
  closest : ∀ other, 10 ^ zeros ∣ other → nearest other = double → other ≠ decimal →
    Nearer (10 ^ zeros) double decimal other

/-- Rounding gives the nearest multiple. -/
theorem nearer_roundHalfEven (number scale k : Nat) (positive : 0 < scale)
    (other : k ≠ roundHalfEven number scale) :
    Nearer scale number (roundHalfEven number scale * scale) (k * scale) := by
  have split := Nat.div_add_mod' number scale
  have remainder := Nat.mod_lt number positive
  rw [Nearer, gap, gap, Nat.mul_div_cancel _ positive]
  unfold roundHalfEven at other ⊢
  generalize number / scale = quotient at *
  generalize number % scale = rest at *
  have next : (quotient + 1) * scale = quotient * scale + scale := Nat.succ_mul _ _
  rcases Nat.lt_or_ge k quotient with below | above
  · have far : (k + 1) * scale ≤ quotient * scale := Nat.mul_le_mul_right scale below
    rw [Nat.succ_mul] at far
    split
    · omega
    · omega
  · have far : (quotient + 1) * scale ≤ k * scale ∨ k = quotient := by
      rcases Nat.lt_or_ge quotient k with more | same
      · exact .inl (Nat.mul_le_mul_right scale more)
      · exact .inr (Nat.le_antisymm same above)
    split at other
    · rename_i down
      rw [if_pos down]
      omega
    · rename_i up
      rw [if_neg up]
      rcases far with far | rfl
      · have further : (quotient + 2) * scale ≤ k * scale :=
          Nat.mul_le_mul_right scale (by
            rcases Nat.lt_or_ge (quotient + 1) k with more | less
            · exact more
            · have := Nat.le_of_mul_le_mul_right far positive
              omega)
        rw [Nat.succ_mul] at further
        omega
      · omega

section

variable {double scale : Nat} (fixed : nearest double = double) (positive : 0 < scale)

include fixed

/-- If a multiple from below stands for the double, so does the last one. -/
theorem back_below (k : Nat) (le : k ≤ double / scale) (back : nearest (k * scale) = double) :
    nearest (double / scale * scale) = double := by
  apply Nat.le_antisymm
  · exact (nearest_mono (Nat.div_mul_le_self double scale)).trans_eq fixed
  · exact back.symm.le.trans (nearest_mono (Nat.mul_le_mul_right scale le))

include positive

/-- If a multiple from above stands for the double, so does the first one. -/
theorem back_above (k : Nat) (lt : double / scale < k) (back : nearest (k * scale) = double) :
    nearest ((double / scale + 1) * scale) = double := by
  apply Nat.le_antisymm
  · exact (nearest_mono (Nat.mul_le_mul_right scale lt)).trans_eq back
  · have above : double ≤ (double / scale + 1) * scale :=
      Nat.le_of_lt ((Nat.div_lt_iff_lt_mul positive).mp (Nat.lt_succ_self _))
    exact fixed.symm.le.trans (nearest_mono above)

/-- Without a decimal at a scale no multiple of it stands for the double. -/
theorem decimalAt_eq_none (none : decimalAt double scale = none) (other : Nat)
    (ends : scale ∣ other) : nearest other ≠ double := by
  intro back
  obtain ⟨k, rfl⟩ := exists_eq_mul_left_of_dvd ends
  unfold decimalAt at none
  rcases Nat.lt_or_ge (double / scale) k with above | below
  · simp only [back_above fixed positive k above back, if_true] at none
    split at none
    · cases none
    · cases none
  · simp only [back_below fixed k below back, if_true] at none
    split at none
    · cases none
    · cases none

/-- The decimal at a scale is a multiple of it, stands for the double, and is the nearest of those
that do. -/
theorem decimalAt_eq_some (decimal : Nat) (found : decimalAt double scale = some decimal) :
    scale ∣ decimal ∧ nearest decimal = double ∧
      ∀ other, scale ∣ other → nearest other = double → other ≠ decimal →
        Nearer scale double decimal other := by
  have split := Nat.div_add_mod' double scale
  have remainder := Nat.mod_lt double positive
  have next : (double / scale + 1) * scale = double / scale * scale + scale := Nat.succ_mul _ _
  unfold decimalAt at found
  by_cases below : nearest (double / scale * scale) = double
  · by_cases above : nearest ((double / scale + 1) * scale) = double
    · simp only [below, above, if_true, Option.some.injEq] at found
      subst found
      refine ⟨Nat.dvd_mul_left _ _, ?_, ?_⟩
      · unfold roundHalfEven
        split
        · exact below
        · exact above
      · intro other ends _ different
        obtain ⟨k, rfl⟩ := exists_eq_mul_left_of_dvd ends
        exact nearer_roundHalfEven double scale k positive fun same => different (by rw [same])
    · simp only [below, above, if_true, if_false, Option.some.injEq] at found
      subst found
      refine ⟨Nat.dvd_mul_left _ _, below, ?_⟩
      intro other ends back different
      obtain ⟨k, rfl⟩ := exists_eq_mul_left_of_dvd ends
      have under : k < double / scale := by
        rcases Nat.lt_trichotomy k (double / scale) with less | rfl | more
        · exact less
        · exact absurd rfl different
        · exact absurd (back_above fixed positive k more back) above
      have far : (k + 1) * scale ≤ double / scale * scale := Nat.mul_le_mul_right scale under
      rw [Nat.succ_mul] at far
      exact .inl (by unfold gap; omega)
  · by_cases above : nearest ((double / scale + 1) * scale) = double
    · simp only [below, above, if_true, if_false, Option.some.injEq] at found
      subst found
      refine ⟨Nat.dvd_mul_left _ _, above, ?_⟩
      intro other ends back different
      obtain ⟨k, rfl⟩ := exists_eq_mul_left_of_dvd ends
      have past : double / scale + 1 < k := by
        rcases Nat.lt_trichotomy k (double / scale + 1) with less | rfl | more
        · exact absurd (back_below fixed k (by omega) back) below
        · exact absurd rfl different
        · exact more
      have far : (double / scale + 1 + 1) * scale ≤ k * scale := Nat.mul_le_mul_right scale past
      rw [Nat.succ_mul] at far
      exact .inl (by unfold gap; omega)
    · simp only [below, above, if_false] at found
      cases found

end

/-- Searching downward from a number of zeros that no decimal of the double exceeds finds the
shortest one. -/
theorem shortestFrom_spec (double zeros : Nat) (fixed : nearest double = double)
    (most : ∀ other, 10 ^ (zeros + 1) ∣ other → nearest other ≠ double) :
    ∃ exactly, IsShortest double (shortestFrom double zeros) exactly := by
  induction zeros with
  | zero =>
    refine ⟨0, Nat.one_dvd _, fixed, most, fun other _ _ different => .inl ?_⟩
    unfold gap shortestFrom
    rw [shortestFrom] at different
    omega
  | succ zeros inductionHypothesis =>
    have positive : 0 < 10 ^ (zeros + 1) := Nat.pow_pos (by decide)
    rw [shortestFrom]
    cases found : decimalAt double (10 ^ (zeros + 1)) with
    | none => exact inductionHypothesis (decimalAt_eq_none fixed positive found)
    | some decimal =>
      obtain ⟨ends, back, closest⟩ := decimalAt_eq_some fixed positive decimal found
      exact ⟨zeros + 1, ends, back, most, closest⟩

/-- The shortest decimal of a double is found. -/
theorem shortest_spec (double : Nat) (fixed : nearest double = double) (some : double ≠ 0) :
    ∃ zeros, IsShortest double (shortest double) zeros := by
  refine shortestFrom_spec double double.log2 fixed fun other ends back => ?_
  rcases Nat.eq_zero_or_pos other with rfl | positive
  · rw [nearest_of_le 0 (Nat.zero_le _)] at back
    exact some back.symm
  · have large : 2 ^ (double.log2 + 1) ≤ other :=
      (Nat.pow_le_pow_left (by decide) _).trans (Nat.le_of_dvd positive ends)
    have rounded := nearest_mono large
    rw [nearest_of_dvd (2 ^ (double.log2 + 1)), back] at rounded
    · exact absurd rounded (Nat.not_le_of_gt Nat.lt_log2_self)
    · rw [lastPlace, Nat.log2_two_pow]
      exact Nat.pow_dvd_pow 2 (Nat.sub_le _ _)

/-- Two multiples of a scale that stand for one double are not both the nearest. -/
theorem not_both_nearest {double scale first second : Nat} (positive : 0 < scale)
    (endsFirst : scale ∣ first) (endsSecond : scale ∣ second) (less : first < second)
    (backFirst : nearest first = double) (backSecond : nearest second = double)
    (closest : ∀ other, scale ∣ other → nearest other = double → other ≠ first →
      Nearer scale double first other)
    (nearer : Nearer scale double second first) : False := by
  obtain ⟨j, rfl⟩ := exists_eq_mul_left_of_dvd endsFirst
  obtain ⟨k, rfl⟩ := exists_eq_mul_left_of_dvd endsSecond
  have order : j < k := Nat.lt_of_mul_lt_mul_right less
  have here := closest (k * scale) endsSecond backSecond (by omega)
  unfold Nearer gap at here nearer
  rw [Nat.mul_div_cancel _ positive] at here nearer
  -- both are as near and even, so the multiple between them is nearer
  have between : (j + 2) * scale ≤ k * scale := Nat.mul_le_mul_right scale (by omega)
  have step : (j + 1) * scale = j * scale + scale := Nat.succ_mul _ _
  have steps : (j + 2) * scale = j * scale + scale + scale := by rw [Nat.succ_mul, step]
  have middle : nearest ((j + 1) * scale) = double := by
    apply Nat.le_antisymm
    · exact (nearest_mono (by omega)).trans_eq backSecond
    · exact backFirst.symm.le.trans (nearest_mono (by omega))
  have strictly := closest ((j + 1) * scale) (Nat.dvd_mul_left _ _) middle (by omega)
  unfold Nearer gap at strictly
  omega

/-- A double has one shortest decimal. -/
theorem IsShortest.unique {double first second zeros zeros' : Nat}
    (one : IsShortest double first zeros) (two : IsShortest double second zeros') :
    first = second := by
  have scales : zeros = zeros' := by
    rcases Nat.lt_trichotomy zeros zeros' with less | same | more
    · exact absurd two.back (one.most second ((Nat.pow_dvd_pow 10 less).trans two.ends))
    · exact same
    · exact absurd one.back (two.most first ((Nat.pow_dvd_pow 10 more).trans one.ends))
  subst scales
  have positive : 0 < 10 ^ zeros := Nat.pow_pos (by decide)
  rcases Nat.lt_trichotomy first second with less | same | more
  · exact (not_both_nearest positive one.ends two.ends less one.back two.back one.closest
      (two.closest first one.ends one.back (by omega))).elim
  · exact same
  · exact (not_both_nearest positive two.ends one.ends more two.back one.back two.closest
      (one.closest second two.ends two.back (by omega))).elim

/-! ### The numbers that are their own shortest decimal -/

/-- A natural number is small, or it is the shortest decimal of its nearest double. -/
def IsOwnShortest (n : Nat) : Prop :=
  n ≤ 2 ^ 53 ∨ ∃ zeros, IsShortest (nearest n) n zeros

theorem nearest_ne_zero (n : Nat) (some : n ≠ 0) : nearest n ≠ 0 := by
  have lower := two_pow_log2_le_nearest n some
  have power := Nat.two_pow_pos n.log2
  omega

/-- A small number is the only short decimal of its double, which is itself. -/
theorem shortest_of_le (n : Nat) (small : n ≤ 2 ^ 53) : shortest n = n := by
  rcases Nat.eq_zero_or_pos n with rfl | positive
  · rfl
  · have fixed := nearest_of_le n small
    obtain ⟨zeros, short⟩ := shortest_spec n fixed (by omega)
    have back := short.back
    rcases Nat.lt_or_ge (2 ^ 53) (shortest n) with large | within
    · have above := nearest_mono (Nat.le_of_lt large)
      rw [back, nearest_of_le _ (Nat.le_refl _)] at above
      rw [Nat.le_antisymm small above]
      decide +kernel
    · rwa [nearest_of_le _ within] at back

/-- Rounding a number to a double and printing the shortest decimal of that gives the number back
exactly for these. -/
theorem shortest_nearest_iff (n : Nat) : shortest (nearest n) = n ↔ IsOwnShortest n := by
  rcases Nat.lt_or_ge (2 ^ 53) n with large | small
  · have some : nearest n ≠ 0 := nearest_ne_zero n (by omega)
    obtain ⟨zeros, short⟩ := shortest_spec (nearest n) (nearest_nearest n) some
    constructor
    · intro same
      rw [same] at short
      exact .inr ⟨zeros, short⟩
    · rintro (small | ⟨zeros', own⟩)
      · omega
      · exact short.unique own
  · rw [nearest_of_le n small]
    exact ⟨fun _ => .inl small, fun _ => shortest_of_le n small⟩

end Binary64
