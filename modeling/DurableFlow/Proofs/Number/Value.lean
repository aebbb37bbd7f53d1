import DurableFlow.Number.Basic
import Mathlib.Algebra.Order.Field.Power
import Mathlib.Algebra.Order.Ring.Rat
import Mathlib.Data.Rat.Cast.Order
import Mathlib.Tactic.Linarith

/-!
# The value of a number

A number stands for a rational number, whatever its form. Floats are compared by cross
multiplication of two quotients, and so by their values.
-/

namespace DurableFlow

namespace Binary64

/-- The rational number that a float stands for. -/
def value (x : Binary64) : ℚ :=
  (if x.negative then -1 else 1) * (x.mantissa * (2 : ℚ) ^ x.exponent)

variable {x y : Binary64}

/-- A power of two, as the quotient of a power with a natural exponent and another one. -/
theorem two_zpow (e : ℤ) :
    (2 : ℚ) ^ e = ((2 ^ e.toNat : ℕ) : ℚ) / ((2 ^ (-e).toNat : ℕ) : ℚ) := by
  obtain ⟨n, rfl | rfl⟩ := e.eq_nat_or_neg
  · simp
  · simp [zpow_neg]

theorem signedRatio_pos (x : Binary64) : (0 : ℚ) < x.signedRatio.2 := by
  have positive : 0 < 2 ^ (-x.exponent).toNat := Nat.two_pow_pos _
  exact_mod_cast positive

/-- The quotient of integers that a float is computed with is its value. -/
theorem value_eq_div (x : Binary64) :
    x.value = (x.signedRatio.1 : ℚ) / (x.signedRatio.2 : ℚ) := by
  rw [value, two_zpow]
  cases negative : x.negative <;> simp [signedRatio, ratio, negative, mul_div_assoc, neg_div]

theorem compare_eq_lt_iff : x.compare y = .lt ↔ x.value < y.value := by
  rw [value_eq_div, value_eq_div, div_lt_div_iff₀ x.signedRatio_pos y.signedRatio_pos, compare,
    Int.compare_eq_lt]
  exact_mod_cast Iff.rfl

theorem compare_eq_gt_iff : x.compare y = .gt ↔ y.value < x.value := by
  rw [value_eq_div, value_eq_div, div_lt_div_iff₀ y.signedRatio_pos x.signedRatio_pos, compare,
    Int.compare_eq_gt]
  exact_mod_cast Iff.rfl

theorem compare_eq_eq_iff : x.compare y = .eq ↔ x.value = y.value := by
  rw [value_eq_div, value_eq_div, div_eq_div_iff x.signedRatio_pos.ne' y.signedRatio_pos.ne',
    compare, Int.compare_eq_eq]
  exact_mod_cast Iff.rfl

/-- Floats are the same if they have the same value. -/
theorem same_iff : x.same y = true ↔ x.value = y.value := by
  rw [same, beq_iff_eq, compare_eq_eq_iff]

end Binary64

/-- The rational number that a number stands for. -/
def Number.value : Number → ℚ
  | .int i => i
  | .float x => x.value

end DurableFlow
