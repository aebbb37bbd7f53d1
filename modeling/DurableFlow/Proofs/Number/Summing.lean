import DurableFlow.Proofs.Number.Rounding

/-!
# Sums of whole floats

A sum of floats is computed as a quotient of integers and rounded once. A common factor of
the quotient makes no difference to the rounding, so the sum of two floats that are whole
numbers is rounded as the integer that it is.
-/

namespace DurableFlow

namespace Binary64

variable {x y : Binary64}

section Scaling

theorem roundQuotient_scale {c : Nat} (pos : 0 < c) (num den : Nat) :
    roundQuotient (num * c) (den * c) = roundQuotient num den := by
  have half : ∀ r : Nat, 2 * (r * c) > den * c ↔ 2 * r > den := by
    intro r
    rw [← Nat.mul_assoc]
    exact Nat.mul_lt_mul_right pos
  have tie : ∀ r : Nat, 2 * (r * c) = den * c ↔ 2 * r = den := by
    intro r
    rw [← Nat.mul_assoc]
    exact Nat.mul_left_inj pos.ne'
  simp only [roundQuotient, Nat.mul_div_mul_right _ _ pos, Nat.mul_mod_mul_right, half, tie]

theorem log2_mul_two_pow {n : Nat} (pos : n ≠ 0) (j : Nat) : (n * 2 ^ j).log2 = n.log2 + j := by
  rw [Nat.log2_eq_iff (Nat.mul_ne_zero pos (Nat.two_pow_pos j).ne'), Nat.pow_add,
    show n.log2 + j + 1 = (n.log2 + 1) + j by omega, Nat.pow_add 2 (n.log2 + 1)]
  constructor
  · exact Nat.mul_le_mul_right _ (Nat.log2_self_le pos)
  · exact Nat.mul_lt_mul_of_pos_right Nat.lt_log2_self (Nat.two_pow_pos j)

theorem floorLog2_scale {n : Nat} (pos : n ≠ 0) (j : Nat) :
    floorLog2 (n * 2 ^ j) (2 ^ j) = floorLog2 n 1 := by
  have power : (2 ^ j).log2 = j := Nat.log2_two_pow
  have begins : 2 ^ n.log2 ≤ n := Nat.log2_self_le pos
  rw [floorLog2_one pos, floorLog2, log2_mul_two_pow pos, power]
  simp only [Int.natCast_add, Int.add_sub_cancel, Int.toNat_natCast, Int.toNat_neg_natCast,
    Nat.pow_zero, Nat.mul_one]
  rw [if_pos]
  rw [Nat.mul_comm n]
  exact Nat.mul_le_mul_left _ begins

/-- A whole number is rounded as what it is, whatever power of two it is divided by. -/
theorem ofRatio_scale (negative : Bool) {n : Nat} (pos : n ≠ 0) (j : Nat) :
    ofRatio negative (n * 2 ^ j) (2 ^ j) = ofRatio negative n 1 := by
  have pos' : n * 2 ^ j ≠ 0 := Nat.mul_ne_zero pos (Nat.two_pow_pos j).ne'
  have scaled : ∀ p q : Nat,
      roundQuotient (n * 2 ^ j * p) (2 ^ j * q) = roundQuotient (n * p) (1 * q) := by
    intro p q
    rw [Nat.mul_right_comm, Nat.mul_comm (2 ^ j) q, roundQuotient_scale (Nat.two_pow_pos j),
      Nat.one_mul]
  simp only [ofRatio, if_neg pos, if_neg pos', floorLog2_scale pos, scaled]

end Scaling

/-- A float is a whole number. -/
def IsWhole (x : Binary64) (i : Int) : Prop := x.value = i

/-- The quotient that a whole float is computed with. -/
theorem IsWhole.signedRatio {i : Int} (whole : x.IsWhole i) :
    ∃ j : Nat, x.signedRatio = (i * ((2 ^ j : Nat) : Int), 2 ^ j) := by
  refine ⟨(-x.exponent).toNat, ?_⟩
  have is : (x.signedRatio.1 : ℚ) / (x.signedRatio.2 : ℚ) = i := by
    rw [← value_eq_div]
    exact whole
  rw [div_eq_iff x.signedRatio_pos.ne'] at is
  exact Prod.ext (by exact_mod_cast is) rfl

/-- The sum of two whole floats is rounded to the nearest float, once. -/
theorem IsWhole.add_near {i j : Int} (left : x.IsWhole i) (right : y.IsWhole j)
    (small : (i + j).natAbs.log2 < 900) :
    ∃ z, x.add y = some z ∧ z.IsNearest (x.value + y.value) := by
  obtain ⟨s, isLeft⟩ := left.signedRatio
  obtain ⟨t, isRight⟩ := right.signedRatio
  have total : i * ((2 ^ s : Nat) : Int) * ((2 ^ t : Nat) : Int) +
      j * ((2 ^ t : Nat) : Int) * ((2 ^ s : Nat) : Int) =
        (i + j) * ((2 ^ (s + t) : Nat) : Int) := by
    rw [Nat.pow_add, Int.natCast_mul]
    ring
  have sum : x.value + y.value = ((i + j : Int) : ℚ) := by
    rw [left, right, Int.cast_add]
  have adds : x.add y = ofSigned ((i + j) * ((2 ^ (s + t) : Nat) : Int)) (2 ^ (s + t))
      (x.negative && y.negative) := by
    simp only [add, isLeft, isRight, total, ← Nat.pow_add]
  rw [adds, sum]
  by_cases none : i + j = 0
  · -- the two cancel out, and the zero has a sign of its own
    rw [none, Int.zero_mul]
    refine ⟨zero (x.negative && y.negative), rfl, ?_, fun float _ => ?_⟩
    · cases x.negative && y.negative <;> decide
    · rw [show (zero (x.negative && y.negative)).value = 0 by simp [value, zero], Int.cast_zero,
        sub_zero, abs_zero]
      exact abs_nonneg _
  · have pos : (i + j).natAbs ≠ 0 := by omega
    have power : (0 : Int) < ((2 ^ (s + t) : Nat) : Int) := by exact_mod_cast Nat.two_pow_pos _
    have sign : decide ((i + j) * ((2 ^ (s + t) : Nat) : Int) < 0) = decide (i + j < 0) := by
      simp only [mul_neg_iff, power, power.not_gt, and_false, and_true, false_or]
    obtain ⟨z, rounds, -⟩ := ofRatio_nat (decide (i + j < 0)) pos small
    have is : ofInt (i + j) = z := by rw [ofInt, rounds, Option.getD_some]
    refine ⟨z, ?_, ?_⟩
    · rw [ofSigned, if_neg (mul_ne_zero none power.ne'), sign, Int.natAbs_mul, Int.natAbs_natCast,
        ofRatio_scale _ pos, rounds]
    · rw [← is]
      exact ofInt_near small

/-- An integer is rounded by at most the distance of the floats around it. -/
theorem rounded_le (n : Nat) : rounded n ≤ n + unit n := by
  have whole : unit n * (n / unit n) ≤ n := Nat.mul_div_le n (unit n)
  rw [rounded]
  rcases roundQuotient_cases n (unit n) with ⟨down, -⟩ | ⟨up, -⟩
  · rw [down, Nat.mul_comm]
    omega
  · rw [up, Nat.mul_comm, Nat.mul_add, Nat.mul_one]
    omega

end Binary64

/-- An integer of 64 bits is computed with as a whole number of at most 65 bits. -/
theorem Number.isWhole_toBinary64 {i : Int} (held : (Number.int i).InRange) :
    ∃ r : Int, (Number.int i).toBinary64.IsWhole r ∧ r.natAbs ≤ 2 ^ (65 : Nat) := by
  have bound : i.natAbs ≤ 2 ^ (64 : Nat) := by
    obtain ⟨low, high⟩ := held
    rw [minInt] at low
    rw [intBound] at high
    omega
  by_cases none : i = 0
  · exact ⟨0, by subst none; exact Binary64.value_zero.trans Int.cast_zero.symm, by decide⟩
  · have pos : i.natAbs ≠ 0 := by omega
    have digits : i.natAbs.log2 < 65 := (Nat.log2_lt pos).mpr (by omega)
    obtain ⟨x, found, -, value⟩ := Binary64.ofRatio_nat (decide (i < 0)) pos (by omega)
    have is : (Number.int i).toBinary64 = x := by
      rw [toBinary64, Binary64.ofInt, found, Option.getD_some]
    have step : Binary64.unit i.natAbs ≤ 2 ^ (12 : Nat) :=
      Nat.pow_le_pow_right (by decide) (by omega)
    have close := Binary64.rounded_le i.natAbs
    refine ⟨(if i < 0 then -1 else 1) * (Binary64.rounded i.natAbs : Int), ?_, ?_⟩
    · rw [Binary64.IsWhole, is, value]
      split <;> simp_all
    · split <;> omega

/-- The sum of two integers of 64 bits, as floats, is a float nearest to the sum of the two
floats; it is never beyond the format. -/
theorem Number.add_near {i j : Int} (held : (Number.int i).InRange)
    (held' : (Number.int j).InRange) :
    ∃ z, (Number.int i).toBinary64.add (Number.int j).toBinary64 = some z ∧
      z.IsNearest ((Number.int i).rounded + (Number.int j).rounded) := by
  obtain ⟨r, whole, few⟩ := isWhole_toBinary64 held
  obtain ⟨s, whole', few'⟩ := isWhole_toBinary64 held'
  apply whole.add_near whole'
  by_cases none : r + s = 0
  · rw [none]
    decide
  · have digits : (r + s).natAbs.log2 < 67 := (Nat.log2_lt (by omega)).mpr (by omega)
    omega

end DurableFlow
