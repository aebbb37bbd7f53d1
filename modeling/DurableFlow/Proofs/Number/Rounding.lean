import DurableFlow.Proofs.Number.Exact
import DurableFlow.Proofs.Number.Value
import Mathlib.Algebra.Order.Group.Int
import Mathlib.Tactic.Positivity
import Mathlib.Tactic.Ring

/-!
# Rounding to the nearest float

An integer of 64 bits is computed with as the float that is nearest to it. Rounding to the
nearest float keeps every number that is a float, and it never turns the order of two numbers
round; two different integers may come to the same float. An integer of at most 53 bits is a
float, so it is kept.
-/

namespace DurableFlow

namespace Binary64

variable {x y : Binary64} {p q : ℚ}

/-- No float is nearer to a rational number than this one. -/
structure IsNearest (x : Binary64) (q : ℚ) : Prop where
  canonical : x.Canonical
  least : ∀ y : Binary64, y.Canonical → |q - x.value| ≤ |q - y.value|

/-- A number that is a float is kept. -/
theorem IsNearest.exact (near : x.IsNearest q) (canonical : y.Canonical) (is : y.value = q) :
    x.value = q := by
  have none : |q - x.value| ≤ |q - y.value| := near.least y canonical
  rw [is, sub_self, abs_zero] at none
  have same : q - x.value = 0 := abs_nonpos_iff.mp none
  linarith

/-- The order of two numbers is not turned round. -/
theorem IsNearest.mono (near : x.IsNearest p) (near' : y.IsNearest q) (less : p < q) :
    x.value ≤ y.value := by
  by_contra turned
  have below : y.value < x.value := not_le.mp turned
  have first := sq_le_sq.mpr (near.least y near'.canonical)
  have second := sq_le_sq.mpr (near'.least x near.canonical)
  -- both numbers would have to lie on the other side of the midpoint of the two floats
  have middle : x.value + y.value ≤ 2 * p := by nlinarith
  have middle' : 2 * q ≤ x.value + y.value := by nlinarith
  linarith

section Quotients

theorem roundQuotient_cases (n d : Nat) :
    roundQuotient n d = n / d ∧ 2 * (n % d) ≤ d ∨
      roundQuotient n d = n / d + 1 ∧ d ≤ 2 * (n % d) := by
  unfold roundQuotient
  dsimp only
  split
  · right
    constructor
    · rfl
    · omega
  · left
    constructor
    · rfl
    · omega

/-- No multiple of a unit is nearer to a number than the one that the number is rounded to. -/
theorem roundQuotient_near (n : Nat) {d : Nat} (pos : 0 < d) (z : Int) :
    ((n : Int) - (roundQuotient n d * d : Nat)).natAbs ≤ ((n : Int) - z * d).natAbs := by
  have split : (d : Int) * (n / d : Nat) + (n % d : Nat) = n := by
    exact_mod_cast Nat.div_add_mod n d
  have inside : n % d < d := Nat.mod_lt n pos
  have cases := roundQuotient_cases n d
  generalize n / d = q at *
  generalize n % d = r at *
  have side : z * d ≤ (d : Int) * q ∨ (d : Int) * q + d ≤ z * d := by
    rcases Int.lt_or_le z (q + 1) with below | above
    · left
      rw [Int.mul_comm (d : Int)]
      exact Int.mul_le_mul_of_nonneg_right (Int.lt_add_one_iff.mp below) (Int.natCast_nonneg d)
    · right
      have times := Int.mul_le_mul_of_nonneg_right above (Int.natCast_nonneg d)
      rw [Int.add_mul, Int.one_mul] at times
      rw [Int.mul_comm (d : Int)]
      exact times
  rcases cases with ⟨down, small⟩ | ⟨up, large⟩
  · rw [down, Nat.mul_comm, Int.natCast_mul]
    omega
  · rw [up, Nat.mul_comm, Nat.mul_add, Nat.mul_one, Int.natCast_add, Int.natCast_mul]
    omega

end Quotients

section Integers

variable {n : Nat}

/-- The distance of the floats around a natural number, where they are all integers. -/
def unit (n : Nat) : Nat := 2 ^ (n.log2 - 52)

/-- The natural number that a natural number is rounded to. -/
def rounded (n : Nat) : Nat := roundQuotient n (unit n) * unit n

theorem rounded_eq_self (small : n < 2 ^ (53 : Nat)) : rounded n = n := by
  by_cases none : n = 0
  · subst none
    decide
  · have digits : n.log2 < 53 := (Nat.log2_lt none).mpr small
    have one : unit n = 1 := by
      rw [unit, show n.log2 - 52 = 0 by omega, Nat.pow_zero]
    rw [rounded, one, roundQuotient_one, Nat.mul_one]

/-- No float is nearer to a natural number than the one that it is rounded to. -/
theorem rounded_near (n : Nat) (canonical : y.Canonical) :
    |(n : ℚ) - rounded n| ≤ |(n : ℚ) - y.value| := by
  have multiple : ∀ z : ℤ, |(n : ℚ) - rounded n| ≤ |(n : ℚ) - z * unit n| := by
    intro z
    have near : ((n : Int) - (rounded n : Nat)).natAbs ≤ ((n : Int) - z * unit n).natAbs :=
      roundQuotient_near n (Nat.two_pow_pos _) z
    have cast : (((n : Int) - (rounded n : Nat)).natAbs : ℚ) ≤
        (((n : Int) - z * unit n).natAbs : ℚ) := by exact_mod_cast near
    rw [Nat.cast_natAbs, Nat.cast_natAbs] at cast
    push_cast at cast
    exact cast
  have nonneg : (0 : ℚ) ≤ n := Nat.cast_nonneg n
  have size : (0 : ℚ) ≤ y.mantissa * (2 : ℚ) ^ y.exponent := by positivity
  cases sign : y.negative with
  | true =>
    have value : y.value = -(y.mantissa * (2 : ℚ) ^ y.exponent) := by
      rw [value, sign, if_pos rfl, neg_one_mul]
    have zero := multiple 0
    rw [Int.cast_zero, zero_mul, sub_zero, abs_of_nonneg nonneg] at zero
    rw [value, abs_of_nonneg (by linarith : (0 : ℚ) ≤ n - -(y.mantissa * 2 ^ y.exponent))]
    linarith
  | false =>
    have value : y.value = y.mantissa * (2 : ℚ) ^ y.exponent := by
      simp [value, sign]
    obtain ⟨bits, -, -, -⟩ := canonical
    rcases Nat.lt_or_ge n.log2 53 with short | long
    · -- there is nothing to round
      have small : n < 2 ^ (53 : Nat) := by
        calc n < 2 ^ (n.log2 + 1) := Nat.lt_log2_self
          _ ≤ 2 ^ (53 : Nat) := Nat.pow_le_pow_right (by decide) (by omega)
      rw [rounded_eq_self small, sub_self, abs_zero]
      exact abs_nonneg _
    · obtain ⟨s, log⟩ : ∃ s : Nat, n.log2 = 52 + s := ⟨n.log2 - 52, by omega⟩
      have step : unit n = 2 ^ s := by
        rw [unit, log, Nat.add_sub_cancel_left]
      rcases Int.lt_or_le y.exponent s with fine | coarse
      · -- the float lies below the power of two that the number begins with
        have begins : 2 ^ (52 + s) ≤ n := by
          rw [← log]
          exact Nat.log2_self_le (by rintro rfl; simp at long)
        have begins' : ((2 : ℚ) ^ (52 : Nat)) * 2 ^ s ≤ n := by
          rw [← pow_add]
          exact_mod_cast begins
        have below : y.value ≤ (2 : ℚ) ^ (52 : Nat) * 2 ^ s := by
          rw [value]
          calc (y.mantissa : ℚ) * 2 ^ y.exponent
              ≤ (2 : ℚ) ^ (53 : Nat) * 2 ^ ((s : ℤ) - 1) := by
                apply mul_le_mul
                · exact_mod_cast bits.le
                · exact zpow_le_zpow_right₀ (by norm_num) (by omega)
                · positivity
                · positivity
            _ = (2 : ℚ) ^ (52 : Nat) * 2 ^ s := by
                rw [zpow_sub₀ (by norm_num), zpow_natCast]
                norm_num
                ring
        have near : |(n : ℚ) - rounded n| ≤ |(n : ℚ) - 2 ^ (52 : Nat) * 2 ^ s| := by
          have multiple := multiple (2 ^ (52 : Nat))
          rw [step] at multiple
          exact_mod_cast multiple
        rw [abs_of_nonneg (by linarith : (0 : ℚ) ≤ n - 2 ^ (52 : Nat) * 2 ^ s)] at near
        rw [abs_of_nonneg (by linarith : (0 : ℚ) ≤ n - y.value)]
        linarith
      · -- the float is a multiple of the unit
        obtain ⟨j, more⟩ : ∃ j : Nat, y.exponent = j + s := ⟨(y.exponent - s).toNat, by omega⟩
        have near := multiple (y.mantissa * 2 ^ j)
        rw [step] at near
        push_cast at near
        rw [value, more, zpow_add₀ (by norm_num), zpow_natCast, zpow_natCast, ← mul_assoc]
        exact near

/-- A natural number that is not too large is rounded to a float. -/
theorem ofRatio_nat (negative : Bool) (pos : n ≠ 0) (small : n.log2 < 900) :
    ∃ x, ofRatio negative n 1 = some x ∧ x.Canonical ∧
      x.value = (if negative then -1 else 1) * (rounded n : ℚ) := by
  rcases Nat.lt_or_ge n.log2 53 with short | long
  · have few : n < 2 ^ (53 : Nat) := (Nat.log2_lt pos).mp short
    obtain ⟨j, filled, found⟩ := ofRatio_one negative pos few
    refine ⟨_, found, ⟨?_, ?_, ?_, .inl ?_⟩, ?_⟩
    · calc n * 2 ^ j < 2 ^ (n.log2 + 1) * 2 ^ j :=
            Nat.mul_lt_mul_of_pos_right Nat.lt_log2_self (Nat.two_pow_pos j)
        _ = 2 ^ (53 : Nat) := by rw [← Nat.pow_add]; congr 1; omega
    · show (-1074 : Int) ≤ -(j : Int)
      omega
    · show -(j : Int) ≤ 971
      omega
    · calc 2 ^ (52 : Nat) = 2 ^ n.log2 * 2 ^ j := by rw [← Nat.pow_add, filled]
        _ ≤ n * 2 ^ j := Nat.mul_le_mul_right _ (Nat.log2_self_le pos)
    · have cancel : (2 : ℚ) ^ j * ((2 : ℚ) ^ j)⁻¹ = 1 := mul_inv_cancel₀ (by positivity)
      rw [value, rounded_eq_self few, zpow_neg, zpow_natCast, Nat.cast_mul, Nat.cast_pow,
        Nat.cast_ofNat, mul_assoc, cancel, mul_one]
  · obtain ⟨s, log⟩ : ∃ s : Nat, n.log2 = 52 + s := ⟨n.log2 - 52, by omega⟩
    have step : unit n = 2 ^ s := by
      rw [unit, log, Nat.add_sub_cancel_left]
    have low : 2 ^ (52 : Nat) ≤ n / 2 ^ s := by
      rw [Nat.le_div_iff_mul_le (Nat.two_pow_pos s), ← Nat.pow_add, ← log]
      exact Nat.log2_self_le pos
    have high : n / 2 ^ s < 2 ^ (53 : Nat) := by
      rw [Nat.div_lt_iff_lt_mul (Nat.two_pow_pos s), ← Nat.pow_add]
      calc n < 2 ^ (n.log2 + 1) := Nat.lt_log2_self
        _ = 2 ^ (53 + s) := by rw [log]; congr 1; omega
    have close := roundQuotient_cases n (2 ^ s)
    have exponent : max (floorLog2 n 1 - 52) minExponent = (s : Int) := by
      rw [floorLog2_one pos, minExponent]
      omega
    have rounds : (rounded n : ℚ) = roundQuotient n (2 ^ s) * 2 ^ s := by
      rw [rounded, step]
      push_cast
      rfl
    simp only [ofRatio, if_neg pos, exponent, Int.toNat_natCast, Int.toNat_neg_natCast,
      Nat.pow_zero, Nat.mul_one, Nat.one_mul]
    by_cases carry : roundQuotient n (2 ^ s) = 2 ^ (53 : Nat)
    · simp only [carry, if_true]
      rw [if_neg (by rw [maxExponent]; omega)]
      refine ⟨_, rfl, ⟨?_, ?_, ?_, .inl (Nat.le_refl _)⟩, ?_⟩
      · show 2 ^ (52 : Nat) < 2 ^ (53 : Nat)
        decide
      · show (-1074 : Int) ≤ s + 1
        omega
      · show (s : Int) + 1 ≤ 971
        omega
      · have carried : ((2 ^ (52 : Nat) : Nat) : ℚ) * (2 : ℚ) ^ ((s : ℤ) + 1) =
            (2 ^ (53 : Nat) : Nat) * 2 ^ s := by
          rw [zpow_add₀ (by norm_num), zpow_natCast, zpow_one]
          push_cast
          ring
        rw [value, rounds, carry, carried]
    · simp only [if_neg carry]
      rw [if_neg (by rw [maxExponent]; omega)]
      refine ⟨_, rfl, ⟨?_, ?_, ?_, .inl ?_⟩, ?_⟩
      · show roundQuotient n (2 ^ s) < 2 ^ (53 : Nat)
        omega
      · show (-1074 : Int) ≤ s
        omega
      · show (s : Int) ≤ 971
        omega
      · show 2 ^ (52 : Nat) ≤ roundQuotient n (2 ^ s)
        omega
      · rw [value, rounds, zpow_natCast]

theorem value_neg (x : Binary64) : x.neg.value = -x.value := by
  cases sign : x.negative <;> simp [value, neg, sign]

theorem Canonical.neg (canonical : x.Canonical) : x.neg.Canonical := canonical

theorem canonical_zero : (zero false).Canonical := by
  decide

theorem value_zero : (zero false).value = 0 := by
  simp [value, zero]

/-- An integer that is not too large is computed with as a float nearest to it. -/
theorem ofInt_near {i : Int} (small : i.natAbs.log2 < 900) : (ofInt i).IsNearest i := by
  by_cases none : i = 0
  · subst none
    constructor
    · exact canonical_zero
    · intro y _
      show |(0 : ℚ) - (zero false).value| ≤ _
      rw [value_zero, sub_zero, abs_zero]
      exact abs_nonneg _
  · have pos : i.natAbs ≠ 0 := by omega
    obtain ⟨x, found, canonical, value⟩ := ofRatio_nat (decide (i < 0)) pos small
    have is : ofInt i = x := by
      rw [ofInt, found, Option.getD_some]
    rw [is]
    refine ⟨canonical, fun y float => ?_⟩
    rcases Int.lt_or_le i 0 with below | above
    · -- the distances of a negative number are those of its opposite
      have size : (i : ℚ) = -(i.natAbs : ℚ) := by
        rw [Nat.cast_natAbs, abs_of_neg below]
        push_cast
        ring
      have opposite := rounded_near i.natAbs float.neg
      rw [value_neg] at opposite
      rw [value, decide_eq_true below, if_pos rfl, size]
      calc |-(i.natAbs : ℚ) - -1 * (rounded i.natAbs : ℚ)|
          = |(i.natAbs : ℚ) - rounded i.natAbs| := by rw [← abs_neg]; congr 1; ring
        _ ≤ |(i.natAbs : ℚ) - -y.value| := opposite
        _ = |-(i.natAbs : ℚ) - y.value| := by rw [← abs_neg]; congr 1; ring
    · have size : (i : ℚ) = (i.natAbs : ℚ) := by
        rw [Nat.cast_natAbs, abs_of_nonneg above]
      rw [value, decide_eq_false (Int.not_lt.mpr above), if_neg Bool.false_ne_true, one_mul, size]
      exact rounded_near i.natAbs float

/-- An integer of at most 53 bits is a float. -/
theorem value_ofInt {i : Int} (few : i.natAbs < 2 ^ (53 : Nat)) : (ofInt i).value = i := by
  by_cases none : i = 0
  · subst none
    exact value_zero
  · have pos : i.natAbs ≠ 0 := by omega
    have small : i.natAbs.log2 < 53 := (Nat.log2_lt pos).mpr few
    obtain ⟨x, found, -, value⟩ := ofRatio_nat (decide (i < 0)) pos (by omega)
    rw [ofInt, found, Option.getD_some, value, rounded_eq_self few, Nat.cast_natAbs]
    rcases Int.lt_or_le i 0 with below | above
    · rw [decide_eq_true below, if_pos rfl, abs_of_neg below]
      push_cast
      ring
    · rw [decide_eq_false (Int.not_lt.mpr above), if_neg Bool.false_ne_true, one_mul,
        abs_of_nonneg above]

end Integers

end Binary64

namespace Number

variable {m n : Number}

/-- The value that a number is compared by. -/
def rounded (n : Number) : ℚ := n.toBinary64.value

/-- A number is compared by the value of a float that is nearest to it. -/
theorem toBinary64_near (held : n.InRange) : n.toBinary64.IsNearest n.value := by
  cases n with
  | int i =>
    have bound : i.natAbs ≤ 2 ^ (64 : Nat) := by
      obtain ⟨low, high⟩ := held
      rw [minInt] at low
      rw [intBound] at high
      omega
    apply Binary64.ofInt_near
    by_cases none : i.natAbs = 0
    · rw [none]
      decide
    · have digits : i.natAbs.log2 < 65 := (Nat.log2_lt none).mpr (by omega)
      omega
  | float x =>
    constructor
    · exact held
    · intro y _
      show |x.value - x.value| ≤ _
      rw [sub_self, abs_zero]
      exact abs_nonneg _

/-- Numbers of one value are compared by one value. -/
theorem rounded_congr (held : m.InRange) (held' : n.InRange) (equal : m.value = n.value) :
    m.rounded = n.rounded := by
  cases m with
  | int i =>
    cases n with
    | int j =>
      have same : i = j := Int.cast_injective equal
      rw [same]
    | float y =>
      have kept : (int i).toBinary64.value = (int i).value :=
        (toBinary64_near held).exact held' equal.symm
      exact kept.trans equal
  | float x =>
    cases n with
    | int j =>
      have kept : (int j).toBinary64.value = (int j).value :=
        (toBinary64_near held').exact held equal
      exact equal.trans kept.symm
    | float y => exact equal

/-- Comparing never turns the order of two numbers round. -/
theorem rounded_mono (held : m.InRange) (held' : n.InRange) (order : m.value ≤ n.value) :
    m.rounded ≤ n.rounded := by
  rcases order.lt_or_eq with less | equal
  · exact (toBinary64_near held).mono (toBinary64_near held') less
  · exact (rounded_congr held held' equal).le

/-- A float, or an integer that is no larger than floats hold exactly. -/
def Exact : Number → Prop
  | .int i => i.natAbs < 2 ^ (53 : Nat)
  | .float _ => True

theorem Exact.rounded (precise : n.Exact) : n.rounded = n.value := by
  cases n with
  | int i => exact Binary64.value_ofInt precise
  | float x => rfl

end Number

end DurableFlow
