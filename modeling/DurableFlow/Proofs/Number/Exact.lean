import DurableFlow.Number.Binary64

/-!
# Integers that a binary64 number holds exactly

An integer of at most 53 bits is brought to a mantissa of 53 bits by doubling, so no digit is
rounded away when it is read.
-/

namespace DurableFlow

namespace Binary64

theorem floorLog2_one {n : Nat} (pos : n ≠ 0) : floorLog2 n 1 = n.log2 := by
  have one : Nat.log2 1 = 0 := by decide
  have low : 2 ^ n.log2 ≤ n := Nat.log2_self_le pos
  simp only [floorLog2, one, Int.natCast_zero, Int.sub_zero, Int.toNat_natCast, Nat.one_mul]
  rw [if_pos]
  exact Nat.le_trans low (Nat.le_mul_of_pos_right n (Nat.two_pow_pos _))

theorem roundQuotient_one (n : Nat) : roundQuotient n 1 = n := by
  simp [roundQuotient, Nat.mod_one]

/-- A positive integer below `2 ^ 53` keeps all its digits: `j` doublings fill the mantissa. -/
theorem ofRatio_one (negative : Bool) {n : Nat} (pos : n ≠ 0) (small : n < 2 ^ (53 : Nat)) :
    ∃ j : Nat, n.log2 + j = 52 ∧ ofRatio negative n 1 = some ⟨negative, n * 2 ^ j, -j⟩ := by
  have digits : n.log2 < 53 := (Nat.log2_lt pos).mpr small
  obtain ⟨j, filled⟩ : ∃ j : Nat, n.log2 + j = 52 := ⟨52 - n.log2, by omega⟩
  have exponent : max ((n.log2 : Int) - 52) minExponent = -(j : Int) := by
    rw [minExponent]
    omega
  have shift : n * 2 ^ j < 2 ^ (53 : Nat) :=
    calc n * 2 ^ j < 2 ^ (n.log2 + 1) * 2 ^ j :=
          Nat.mul_lt_mul_of_pos_right Nat.lt_log2_self (Nat.two_pow_pos j)
      _ = 2 ^ (53 : Nat) := by rw [← Nat.pow_add]; congr 1; omega
  refine ⟨j, filled, ?_⟩
  simp only [ofRatio, if_neg pos, floorLog2_one pos, exponent, Int.neg_neg, Int.toNat_natCast,
    Int.toNat_neg_natCast, Nat.pow_zero, Nat.mul_one, roundQuotient_one,
      if_neg (Nat.ne_of_lt shift)]
  rw [if_neg]
  show ¬ -(j : Int) > 971
  omega

theorem toInt?_shifted (n j : Nat) : toInt? ⟨false, n * 2 ^ j, -j⟩ = some (n : Int) := by
  have filled : ((2 ^ j : Nat) : Int) ≠ 0 := by
    have := Nat.two_pow_pos j
    omega
  simp only [toInt?, signedRatio, ratio, Int.neg_neg, Int.toNat_natCast, Int.toNat_neg_natCast,
    Nat.pow_zero, Nat.mul_one, Bool.false_eq_true, if_false]
  rw [Int.natCast_mul, Int.mul_emod_left, if_pos rfl, Int.mul_ediv_cancel _ filled]

theorem toInt?_nothing (j : Nat) : toInt? ⟨false, 0, -j⟩ = some 0 := by
  have shifted := toInt?_shifted 0 j
  rwa [Nat.zero_mul] at shifted

/-- The decimal of an integer below `2 ^ 53` is read as that integer. -/
theorem ofDecimal_nat {n : Nat} (small : n < 2 ^ (53 : Nat)) :
    ∃ x, ofDecimal false n 0 = some x ∧ x.toInt? = some (n : Int) := by
  by_cases pos : n = 0
  · subst pos
    exact ⟨zero false, rfl, toInt?_nothing 1074⟩
  · have digits : n.log2 < 53 := (Nat.log2_lt pos).mpr small
    obtain ⟨j, _, precise⟩ := ofRatio_one false pos small
    refine ⟨_, ?_, toInt?_shifted n j⟩
    simp only [ofDecimal, if_neg pos, Int.add_zero]
    rw [if_neg (by omega), if_neg (by omega)]
    simpa using precise

/-- A whole decimal that can be held at all is held as a whole number: below `2 ^ 53` as what it
is, and from there on as a mantissa that is doubled. -/
theorem toInt?_of_ofDecimal {n : Nat} {x : Binary64} (held : ofDecimal false n 0 = some x) :
    ∃ m : Nat, x.toInt? = some (m : Int) := by
  by_cases small : n < 2 ^ (53 : Nat)
  · obtain ⟨y, held', whole⟩ := ofDecimal_nat small
    obtain rfl : y = x := Option.some.inj (held'.symm.trans held)
    exact ⟨n, whole⟩
  · have pos : n ≠ 0 := by
      rintro rfl
      exact small (by decide)
    have large : 53 ≤ n.log2 := Nat.not_lt.mp fun short => small ((Nat.log2_lt pos).mp short)
    have exponent : max ((n.log2 : Int) - 52) minExponent = (n.log2 : Int) - 52 := by
      rw [minExponent]
      omega
    have doubled : ∀ (m : Nat) (e : Int), 0 ≤ e →
        (if e > maxExponent then none else some (⟨false, m, e⟩ : Binary64)) = some x →
        ∃ i : Nat, x.toInt? = some (i : Int) := by
      intro m e positive held
      have vanishes : (-e).toNat = 0 := by omega
      split at held <;> cases held
      exact ⟨m * 2 ^ e.toNat, by simp [toInt?, signedRatio, ratio, vanishes]⟩
    unfold ofDecimal at held
    rw [if_neg pos] at held
    dsimp only at held
    split at held
    · cases held
    · split at held
      · omega
      · simp only [Int.toNat_zero, Int.neg_zero, Nat.pow_zero, Nat.mul_one, ofRatio, if_neg pos,
          floorLog2_one pos, exponent] at held
        generalize roundQuotient _ _ = m at held
        split at held
        · exact doubled _ _ (by omega) held
        · exact doubled _ _ (by omega) held

end Binary64

end DurableFlow
