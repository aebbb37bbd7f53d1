import DurableFlow.Number.Decimal

/-!
# Numbers of structured data

A number is an integer or a finite binary64 number, and the two are kept apart:
`1` and `1.0` are different data, although an expression compares them by value.
-/

namespace DurableFlow

/-- A number as data holds it. -/
inductive Number where
  | int (value : Int)
  | float (value : Binary64)
deriving DecidableEq, Repr

namespace Number

/-- The least integer that data holds. -/
def minInt : Int := -(2 ^ (63 : Nat))

/-- The bound of the integers that data holds. -/
def intBound : Int := 2 ^ (64 : Nat)

/-- The range of the integers that data holds: those of 64 bits, signed or not. -/
def InRange : Number → Prop
  | .int i => minInt ≤ i ∧ i < intBound
  | .float x => x.Canonical

instance (n : Number) : Decidable n.InRange := by
  cases n <;> unfold InRange <;> infer_instance

/-- An integer outside the range is held as the float nearest to it. -/
def ofInt (i : Int) : Number :=
  if minInt ≤ i ∧ i < intBound then .int i else .float (.ofInt i)

/-- The value as a float, rounded if it has to be. -/
def toBinary64 : Number → Binary64
  | .int i => .ofInt i
  | .float x => x

/-- The integer, if it is one of 64 bits with a sign. -/
def toInt64? : Number → Option Int
  | .int i => if i < 2 ^ (63 : Nat) then some i else none
  | .float _ => none

/-- The integer, if it is one of 64 bits without a sign. -/
def toNat64? : Number → Option Nat
  | .int i => if 0 ≤ i then some i.toNat else none
  | .float _ => none

/-- Equality of data: a number of one form never equals one of the other, and
floats are equal by value. -/
def same : Number → Number → Bool
  | .int i, .int j => i == j
  | .float x, .float y => x.same y
  | _, _ => false

/-- Floats keep a point or an exponent, which marks them as floats; an exponent is
written from `10 ^ 16` on and below `10 ^ -5`. -/
def layout : Binary64.Layout := ⟨some (-5, 16), ".0", "+"⟩

/-- The text of a number in data. -/
protected def toString : Number → String
  | .int i => toString i
  | .float x => x.text layout

instance : ToString Number := ⟨Number.toString⟩

end Number

end DurableFlow
