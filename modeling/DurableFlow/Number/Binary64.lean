import DurableFlow.Number.Power

/-!
# Finite binary64 numbers

A number is a sign, a mantissa below `2 ^ 53` and a power of two, in the one
canonical form that the format gives it. Arithmetic is exact rational arithmetic
followed by a single rounding to the nearest number, a tie going to the even
mantissa; an operation without a finite result has none.
-/

namespace DurableFlow

/-- The finite number `± mantissa * 2 ^ exponent`. -/
structure Binary64 where
  negative : Bool
  mantissa : Nat
  exponent : Int
deriving DecidableEq, Repr

namespace Binary64

/-- The least power of two that a mantissa is multiplied by. -/
def minExponent : Int := -1074

/-- The greatest power of two that a mantissa is multiplied by. -/
def maxExponent : Int := 971

/-- The form in which each finite number is written once: a mantissa of 53 bits,
or the least exponent. -/
def Canonical (x : Binary64) : Prop :=
  x.mantissa < 2 ^ (53 : Nat) ∧ minExponent ≤ x.exponent ∧ x.exponent ≤ maxExponent ∧
    (2 ^ (52 : Nat) ≤ x.mantissa ∨ x.exponent = minExponent)

instance (x : Binary64) : Decidable x.Canonical := by
  unfold Canonical; infer_instance

/-- The zero of the given sign. -/
def zero (negative : Bool) : Binary64 := ⟨negative, 0, minExponent⟩

instance : Inhabited Binary64 := ⟨zero false⟩

/-- The integer nearest to `num / den`, a tie going to the even one. -/
def roundQuotient (num den : Nat) : Nat :=
  let q := num / den
  let r := num % den
  if 2 * r > den ∨ (2 * r = den ∧ q % 2 = 1) then q + 1 else q

/-- The greatest `k` with `2 ^ k ≤ num / den`, for positive operands. -/
def floorLog2 (num den : Nat) : Int :=
  let k : Int := (num.log2 : Int) - (den.log2 : Int)
  if den * 2 ^ k.toNat ≤ num * 2 ^ (-k).toNat then k else k - 1

/-- The number nearest to `± num / den`; none when it lies beyond the format. -/
def ofRatio (negative : Bool) (num den : Nat) : Option Binary64 :=
  if num = 0 then
    some (zero negative)
  else
    let e := max (floorLog2 num den - 52) minExponent
    let m := roundQuotient (num * 2 ^ (-e).toNat) (den * 2 ^ e.toNat)
    let (m, e) := if m = 2 ^ (53 : Nat) then (2 ^ (52 : Nat), e + 1) else (m, e)
    if e > maxExponent then none else some ⟨negative, m, e⟩

/-- The magnitude as a quotient of two integers. -/
def ratio (x : Binary64) : Nat × Nat :=
  (x.mantissa * 2 ^ x.exponent.toNat, 2 ^ (-x.exponent).toNat)

/-- The value with its sign as a quotient of two integers. -/
def signedRatio (x : Binary64) : Int × Nat :=
  let (num, den) := x.ratio
  (if x.negative then -(num : Int) else num, den)

/-- The greatest finite number of the given sign. -/
def largest (negative : Bool) : Binary64 := ⟨negative, 2 ^ (53 : Nat) - 1, maxExponent⟩

/-- The number nearest to an integer; integers beyond the format go to the end of it. -/
def ofInt (i : Int) : Binary64 :=
  (ofRatio (i < 0) i.natAbs 1).getD (largest (i < 0))

/-- The number nearest to `± digits * 10 ^ scale`; none when it lies beyond the format. -/
def ofDecimal (negative : Bool) (digits : Nat) (scale : Int) : Option Binary64 :=
  if digits = 0 then
    some (zero negative)
  else
    let top : Int := (Nat.log2 digits : Int) * 30103 / 100000 + scale
    if top > 400 then none
    else if top < -400 then some (zero negative)
    else ofRatio negative (digits * 10 ^ scale.toNat) (10 ^ (-scale).toNat)

def isZero (x : Binary64) : Bool := x.mantissa == 0

def neg (x : Binary64) : Binary64 := { x with negative := !x.negative }

def abs (x : Binary64) : Binary64 := { x with negative := false }

@[simp] theorem neg_neg (x : Binary64) : x.neg.neg = x := by
  simp [neg]

/-- Round an exact quotient; an exact zero takes the sign given for it. -/
def ofSigned (num : Int) (den : Nat) (zeroSign : Bool) : Option Binary64 :=
  if num = 0 then some (zero zeroSign) else ofRatio (num < 0) num.natAbs den

def add (x y : Binary64) : Option Binary64 :=
  let (a, b) := x.signedRatio
  let (c, d) := y.signedRatio
  ofSigned (a * d + c * b) (b * d) (x.negative && y.negative)

def sub (x y : Binary64) : Option Binary64 := x.add y.neg

def mul (x y : Binary64) : Option Binary64 :=
  let (a, b) := x.signedRatio
  let (c, d) := y.signedRatio
  ofSigned (a * c) (b * d) (x.negative != y.negative)

/-- None for a zero divisor. -/
def div (x y : Binary64) : Option Binary64 :=
  let (a, b) := x.ratio
  let (c, d) := y.ratio
  if c = 0 then none else ofRatio (x.negative != y.negative) (a * d) (b * c)

/-- The remainder of the division that truncates, with the sign of the dividend;
none for a zero divisor. -/
def rem (x y : Binary64) : Option Binary64 :=
  let (a, b) := x.ratio
  let (c, d) := y.ratio
  if c = 0 then none else ofRatio x.negative (a * d % (c * b)) (b * d)

/-- The order of the values; zeros of either sign are equal. -/
def compare (x y : Binary64) : Ordering :=
  let (a, b) := x.signedRatio
  let (c, d) := y.signedRatio
  Ord.compare (a * d) (c * b)

/-- Equality of the values; zeros of either sign are equal. -/
def same (x y : Binary64) : Bool := x.compare y == .eq

/-- The integer that the value is, if it is one. -/
def toInt? (x : Binary64) : Option Int :=
  let (num, den) := x.signedRatio
  if num % den = 0 then some (num / den) else none

/-- The value with its fraction dropped. -/
def truncate (x : Binary64) : Int :=
  let (num, den) := x.signedRatio
  num.tdiv den

/-- The greatest integer that is not above the value. -/
def floor (x : Binary64) : Int :=
  let (num, den) := x.signedRatio
  num.fdiv den

/-- The least integer that is not below the value. -/
def ceil (x : Binary64) : Int :=
  let (num, den) := x.signedRatio
  Int.neg ((-num).fdiv den)

/-- The integer nearest to the value, a tie going away from zero. -/
def round (x : Binary64) : Int :=
  let (num, den) := x.ratio
  let magnitude : Int := ((2 * num + den) / (2 * den) : Nat)
  if x.negative then -magnitude else magnitude

end Binary64

end DurableFlow
